import GoUml.Proofs.AliasLeaves

/-!
# Which declared types a leaf can be mistaken for

Identifiers are kept apart from one another but not from the names that packages declare. A leaf
stands in the namespace of its package, among classes that go by their declared names, so a declared
type whose name is the identifier of a leaf is the same class to a reader of the diagram. The
identifier is the letters and digits of the package's name and of the type shown, with at most a
number behind them, and the number is no larger than the number of leaves. A name of any other form is
safe.
-/

namespace GoUml

open Identifiers

namespace Diagram

theorem declaredNodes_listing (g : Struct → List InterfaceRef) (c : Catalog) :
    declaredNodes (c.listing g) = declaredNodes c := by
  have hpackage : packageNodes (c.listing g) = packageNodes c := by
    funext p
    rw [packageNodes, Catalog.listing, PackageTable.inPackage_mapValues, List.map_map]
    rfl
  rw [declaredNodes, hpackage]
  rfl

theorem declaredNodes_eq {packages : List Package} {c : Catalog} (hc : c.BuiltFrom packages) :
    declaredNodes c = declaredNodes (Catalog.ofPackages packages) := by
  cases hc with
  | plain => rfl
  | classified =>
    rw [Catalog.classify_eq_listing (Catalog.reachable_ofPackages packages).filed,
      declaredNodes_listing]

/-- A class that is not a leaf stands for an entity. -/
theorem exists_entity_of_mem_declaredNodes {packages : List Package} {node : Node}
    (hnode : node ∈ declaredNodes (Catalog.ofPackages packages)) :
    ∃ path e, (Catalog.ofPackages packages).find? path node.head.name = some e ∧
      e.package.name = node.space := by
  have h := Catalog.orderly_ofPackages packages
  simp only [declaredNodes, packageNodes, List.mem_append, List.mem_flatMap, List.mem_map] at hnode
  rcases hnode with ⟨p, hp, (⟨s, hs, rfl⟩ | ⟨i, hi, rfl⟩) | ⟨d, hd, rfl⟩⟩ | ⟨a, ha, rfl⟩
  · obtain ⟨hfound, howner⟩ := h.find?_of_mem_inPackage h.structs hp hs
    exact ⟨p.path, _, hfound, congrArg PackageId.name howner⟩
  · obtain ⟨hfound, howner⟩ := h.find?_of_mem_inPackage h.interfaces hp hi
    exact ⟨p.path, _, hfound, congrArg PackageId.name howner⟩
  · obtain ⟨hfound, howner⟩ := h.find?_of_mem_inPackage h.definedTypes hp hd
    exact ⟨p.path, _, hfound, congrArg PackageId.name howner⟩
  · rw [sortedAliases, Text.sortOnRow, List.mem_mergeSort] at ha
    exact ⟨a.package.path, .typeAlias a, (h.mem_all_iff h.typeAliases).1 ha, rfl⟩

/-- A name that a leaf could be given: the letters and digits of its namespace and of the type that
it shows, with nothing or a number up to the number of leaves behind them. -/
def Lookalike (elements : List Element) (leaf : Node) (name : String) : Prop :=
  ∃ n < (leaves elements).length, name = candidate (sanitize (leaf.space ++ leaf.head.name)) n

theorem lookalike_of_mem_leaves {o : RenderingOptions} (ho : o.aliases = true) {c : Catalog}
    {leaf : Node} (hleaf : leaf ∈ leaves (classElements o c)) {name : String}
    (hname : leaf.head.identifier = some name) : Lookalike (classElements o c) leaf name := by
  obtain ⟨path, key, e, he, rfl⟩ := (mem_leaves_iff ho).1 hleaf
  obtain ⟨n, hn, hcandidate⟩ := (sound_ofCatalog c).derived path key e he
  refine ⟨n, ?_, ?_⟩
  · rwa [leaves_classElements ho, List.length_map, ← Identifiers.size, (sound_ofCatalog c).size_eq]
  · rw [← Option.some.inj hname]
    exact hcandidate

theorem nodup_edgeEnd_leaves {o : RenderingOptions} (ho : o.aliases = true) (c : Catalog) :
    ((leaves (classElements o c)).map Node.edgeEnd).Nodup := by
  apply List.Nodup.of_map EdgeEnd.name
  rw [leaves_classElements ho, List.map_map, List.map_map]
  exact (sound_ofCatalog c).nodup_identifiers

/-- In the class diagram of a list of packages, a leaf is called like a declared type of its
namespace only if that type has a name that the leaf could be given. If there is no such type, the
leaf is the only class that relations reach by its name. -/
theorem leaf_captures_only_lookalikes {packages : List Package} {c : Catalog}
    (hc : c.BuiltFrom packages) {o : RenderingOptions} (ho : o.aliases = true) {leaf : Node}
    (hleaf : leaf ∈ leaves (classElements o c)) :
    (∀ path name e, (Catalog.ofPackages packages).find? path name = some e →
      e.package.name = leaf.space → ¬ Lookalike (classElements o c) leaf name →
        leaf.head.identifier ≠ some name) ∧
    ((∀ path name e, (Catalog.ofPackages packages).find? path name = some e →
      e.package.name = leaf.space → ¬ Lookalike (classElements o c) leaf name) →
        ((nodes (classElements o c)).map Node.edgeEnd).count leaf.edgeEnd = 1) := by
  have hcapture : ∀ name, leaf.head.identifier = some name →
      Lookalike (classElements o c) leaf name := fun name => lookalike_of_mem_leaves ho hleaf
  refine ⟨fun path name e _ _ hsafe hname => hsafe (hcapture name hname), fun hsafe => ?_⟩
  have hdeclared : ((declaredNodes c).map Node.edgeEnd).count leaf.edgeEnd = 0 := by
    rw [List.count_eq_zero, declaredNodes_eq hc]
    intro hmem
    obtain ⟨node, hnode, heq⟩ := List.mem_map.1 hmem
    obtain ⟨path, e, hfound, hspace⟩ := exists_entity_of_mem_declaredNodes hnode
    obtain ⟨-, -, entry, -, rfl⟩ := (mem_leaves_iff ho).1 hleaf
    rw [Node.edgeEnd, identifier_of_mem_declaredNodes hnode, Option.getD_none] at heq
    simp only [Node.edgeEnd, leafNode, Option.getD_some, EdgeEnd.mk.injEq,
      Option.some.injEq] at heq
    apply hsafe path node.head.name e hfound (hspace.trans heq.1)
    exact hcapture node.head.name (congrArg some heq.2.symm)
  rw [nodes_classElements ho, List.map_append, List.count_append, hdeclared, Nat.zero_add,
    ← leaves_classElements ho]
  exact List.count_eq_one_of_mem (nodup_edgeEnd_leaves ho c) (List.mem_map.2 ⟨leaf, hleaf, rfl⟩)

/-- A package with a slice and a pointer over the same type, so that one of them gets a number, and a
struct of the given name. -/
def kinds (declared : String) : Package where
  name := "kinds"
  path := "example.com/kinds"
  imports := []
  declarations :=
    [⟨"Names", false, .slice (.basic "string")⟩, ⟨"Text", true, .pointer (.basic "string")⟩,
     ⟨declared, false, .struct []⟩]
  methods := []

def kindsCatalog (declared : String) : Catalog := Catalog.ofPackages [kinds declared]

def kindsDiagram (declared : String) : List Element :=
  classElements {} (kindsCatalog declared).classify

def namesLeaf : Node :=
  leafNode ⟨⟨"kinds", "example.com/kinds"⟩, "[]string", "kindsstring"⟩

def textLeaf : Node :=
  leafNode ⟨⟨"kinds", "example.com/kinds"⟩, "*string", "kindsstring2"⟩

theorem eq_of_find?_kinds {declared path name : String} {e : Entity}
    (h : (kindsCatalog declared).find? path name = some e) :
    name = "Names" ∨ name = "Text" ∨ name = declared := by
  obtain ⟨p, hfirst, hmentions⟩ := Catalog.exists_find?_iff.1 ⟨e, h⟩
  have hp : p = kinds declared := by
    simpa using List.mem_of_find?_eq_some hfirst
  subst hp
  simpa [Package.Mentions, kinds, eq_comm] using hmentions

/-- The number behind the name of the struct is larger than the number of leaves. -/
theorem leaf_captures_only_lookalikes_kinds :
    leaves (kindsDiagram "kindsstring3") = [textLeaf, namesLeaf] ∧
      ((nodes (kindsDiagram "kindsstring3")).map Node.edgeEnd).count textLeaf.edgeEnd = 1 := by
  have hleaves : leaves (kindsDiagram "kindsstring3") = [textLeaf, namesLeaf] := by
    rw [kindsDiagram, leaves_classElements rfl]
    decide +kernel
  refine ⟨hleaves, ?_⟩
  have hleaf : textLeaf ∈ leaves (kindsDiagram "kindsstring3") := by
    rw [hleaves]
    exact List.mem_cons_self
  refine (leaf_captures_only_lookalikes .classified rfl hleaf).2 ?_
  intro path name e hfound _ hlookalike
  obtain ⟨n, hn, hname⟩ := hlookalike
  rw [← kindsCatalog, ← kindsDiagram, hleaves, List.length_cons, List.length_singleton] at hn
  have hsafe : ∀ name ∈ ["Names", "Text", "kindsstring3"], ∀ n < 2,
      name ≠ candidate (sanitize (textLeaf.space ++ textLeaf.head.name)) n := by
    decide +kernel
  exact hsafe name (by simpa using eq_of_find?_kinds hfound) n hn hname

/-- A leaf can be given the name of a declared type of its namespace. -/
theorem leaf_captures_struct :
    ¬ ∀ leaf ∈ leaves (kindsDiagram "kindsstring"), ∀ path name e,
      (kindsCatalog "kindsstring").find? path name = some e →
        e.package.name = leaf.space → leaf.head.identifier ≠ some name := by
  intro h
  have hleaf : namesLeaf ∈ leaves (kindsDiagram "kindsstring") := by
    rw [kindsDiagram, leaves_classElements rfl]
    decide +kernel
  have hfound : (kindsCatalog "kindsstring").find? "example.com/kinds" "kindsstring" =
      some (.struct ⟨"kindsstring", ⟨"kinds", "example.com/kinds"⟩, [], [], []⟩) := by
    decide +kernel
  exact h namesLeaf hleaf _ _ _ hfound rfl rfl

end Diagram

end GoUml
