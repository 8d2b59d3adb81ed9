import GoUml.Diagram.Class
import GoUml.Proofs.Identifiers
import GoUml.Proofs.Ownership

/-!
# Alias arrows and the classes they point to

A declaration that names a composite type gets an arrow, and the composite type a class of its own, a
leaf. The identifier of a leaf is filed under the path and key of the type, the arrow looks it up
under the path and key that the declaration has, and each writes the name of a package in front of
it. They meet because all declarations of one path belong to one package.
-/

namespace GoUml

namespace Catalog

/-- The declarations that name another type are the defined types and the aliases. -/
theorem mem_namings_iff {packages : List Package} {n : Naming} :
    n ∈ (ofPackages packages).namings ↔
      (∃ d, (ofPackages packages).find? d.package.path d.name = some (.defined d) ∧
        Naming.mk d.name d.package d.underlying = n) ∨
      ∃ a, (ofPackages packages).find? a.package.path a.name = some (.typeAlias a) ∧
        Naming.mk a.name a.package a.underlying = n := by
  have horderly := orderly_ofPackages packages
  have hdefined (d : DefinedType) : d ∈ (ofPackages packages).definedTypes.all ↔
      (ofPackages packages).find? d.package.path d.name = some (.defined d) :=
    horderly.mem_all_iff horderly.definedTypes
  have halias (a : TypeAlias) : a ∈ (ofPackages packages).typeAliases.all ↔
      (ofPackages packages).find? a.package.path a.name = some (.typeAlias a) :=
    horderly.mem_all_iff horderly.typeAliases
  simp only [namings, List.mem_append, List.mem_map, hdefined, halias]

theorem package?_of_mem_namings {packages : List Package} {n : Naming}
    (h : n ∈ (ofPackages packages).namings) :
    (ofPackages packages).package? n.package.path = some n.package := by
  rcases mem_namings_iff.1 h with ⟨d, hfound, rfl⟩ | ⟨a, hfound, rfl⟩
  · exact (owner_of_find? hfound).2.2
  · exact (owner_of_find? hfound).2.2

theorem nodup_namings (packages : List Package) :
    ((ofPackages packages).namings.map fun n => (n.package.path, n.name)).Nodup := by
  have horderly := orderly_ofPackages packages
  rw [namings, List.map_append, List.map_map, List.map_map]
  refine List.Nodup.append (horderly.nodup_places horderly.definedTypes)
    (horderly.nodup_places horderly.typeAliases) ?_
  intro place hdefined halias
  obtain ⟨d, hd, hplace⟩ := List.mem_map.1 hdefined
  obtain ⟨a, ha, hplace'⟩ := List.mem_map.1 halias
  have hfound : (ofPackages packages).find? d.package.path d.name = some (.defined d) :=
    (horderly.mem_all_iff horderly.definedTypes).1 hd
  have hfound' : (ofPackages packages).find? a.package.path a.name = some (.typeAlias a) :=
    (horderly.mem_all_iff horderly.typeAliases).1 ha
  obtain ⟨hpath, hname⟩ := Prod.mk.inj (hplace.trans hplace'.symm)
  simp only at hpath hname
  rw [hpath, hname, hfound'] at hfound
  cases hfound

end Catalog

namespace Identifiers

theorem underlyings_eq_map (c : Catalog) :
    underlyings c = c.namings.map fun n => (n.package, n.underlying) := by
  simp [underlyings, Catalog.namings, Function.comp_def]

def requests (c : Catalog) : List (PackageId × TypeName) :=
  ((underlyings c).filter fun u => needed u.2).map fun u => (u.1, u.2.toTypeName)

theorem ofCatalog_eq_registerAll (c : Catalog) : ofCatalog c = registerAll (requests c) := by
  rw [ofCatalog, registerAll, requests, List.foldl_map]

theorem mem_requests_iff {c : Catalog} {call : PackageId × TypeName} :
    call ∈ requests c ↔ ∃ n ∈ c.namings, needed n.underlying = true ∧
      (n.package, n.underlying.toTypeName) = call := by
  simp only [requests, underlyings_eq_map, List.mem_map, List.mem_filter]
  constructor
  · intro h
    obtain ⟨u, ⟨⟨n, hn, rfl⟩, hneeded⟩, rfl⟩ := h
    exact ⟨n, hn, hneeded, rfl⟩
  · intro h
    obtain ⟨n, hn, hneeded, rfl⟩ := h
    exact ⟨_, ⟨⟨n, hn, rfl⟩, hneeded⟩, rfl⟩

/-- An entry of a catalog's table was asked for by a declaration. -/
theorem exists_naming_of_get? {c : Catalog} {path key : String} {e : IdentifierEntry}
    (h : (ofCatalog c).entries.get? path key = some e) :
    ∃ n ∈ c.namings, needed n.underlying = true ∧ n.package.path = path ∧
      n.underlying.key = key ∧ e.package = n.package := by
  rw [ofCatalog_eq_registerAll] at h
  obtain ⟨call, hcall, hpath, hkey, hpackage, -⟩ := exists_call_of_get? h
  obtain ⟨n, hn, hneeded, rfl⟩ := mem_requests_iff.1 hcall
  exact ⟨n, hn, hneeded, hpath, hkey, hpackage⟩

theorem exists_get?_of_needed {c : Catalog} {n : Naming} (hn : n ∈ c.namings)
    (hneeded : needed n.underlying = true) :
    ∃ e, (ofCatalog c).entries.get? n.package.path n.underlying.key = some e := by
  have hcall := mem_requests_iff.2 ⟨n, hn, hneeded, rfl⟩
  have hsome : ((registerAll (requests c)).identifier? n.package.path
      n.underlying.toTypeName).isSome = true := isSome_identifier?_iff.2 ⟨_, hcall, rfl, rfl⟩
  rw [identifier?, Option.isSome_map, ← ofCatalog_eq_registerAll] at hsome
  exact Option.isSome_iff_exists.1 hsome

theorem sound_ofCatalog (c : Catalog) : (ofCatalog c).Sound := by
  rw [ofCatalog_eq_registerAll]
  exact sound_registerAll _

theorem builtin_of_needed {t : TypeView} (h : needed t = true) : t.builtin = false := by
  simp only [needed, Bool.and_eq_true] at h
  simpa using h.1.1

end Identifiers

namespace Diagram

open Identifiers

/-- A class or interface and the namespace in which it stands. -/
structure Node where
  space : String
  head : ClassHead
  deriving DecidableEq

/-- How relations refer to it: by its identifier, or by the name shown if it has none. -/
def Node.edgeEnd (node : Node) : EdgeEnd :=
  ⟨some node.space, node.head.identifier.getD node.head.name⟩

def Element.nodes : Element → List Node
  | .namespaceBlock space children => children.filterMap fun child =>
    match child with
    | .classBlock head _ => some ⟨space, head⟩
    | .interfaceBlock name _ => some ⟨space, { name := name }⟩
    | _ => none
  | _ => []

def nodes (elements : List Element) : List Node := elements.flatMap Element.nodes

/-- The classes that are shown under a name other than the one relations use. -/
def leaves (elements : List Element) : List Node :=
  (nodes elements).filter fun node => node.head.identifier.isSome

def aliasArrows (elements : List Element) : List Relation :=
  elements.filterMap fun element =>
    match element with
    | .relation r => if r.kind = .typeAlias then some r else none
    | _ => none

def leafNode (e : IdentifierEntry) : Node where
  space := e.package.name
  head :=
    { name := e.displayed, identifier := some e.identifier,
      spot := some ⟨leafLetter e.displayed, "#3CB371"⟩ }

def packageNodes (c : Catalog) (p : PackageId) : List Node :=
  (c.structs.inPackage p.path).map (fun s =>
      ⟨p.name, { name := s.name, spot := some structSpot }⟩) ++
    (c.interfaces.inPackage p.path).map (fun i => ⟨p.name, { name := i.name }⟩) ++
    (c.definedTypes.inPackage p.path).map fun d =>
      ⟨p.name, { name := d.name, spot := some definedSpot,
                 stereotype := overBuiltin "type of" d.underlying }⟩

def aliasNode (a : TypeAlias) : Node where
  space := a.package.name
  head :=
    { name := a.name, spot := some aliasSpot, stereotype := overBuiltin "alias of" a.underlying }

def declaredNodes (c : Catalog) : List Node :=
  c.sortedPackages.flatMap (packageNodes c) ++ (sortedAliases c).map aliasNode

theorem nodes_append (elements others : List Element) :
    nodes (elements ++ others) = nodes elements ++ nodes others := List.flatMap_append

theorem nodes_relations (relations : List Relation) : nodes (relations.map .relation) = [] := by
  rw [nodes, List.flatMap_map, List.flatMap_eq_nil_iff]
  intro r _
  rfl

theorem nodes_header (o : RenderingOptions) : nodes (header o) = [] := by
  have hlegend (lines : List String) : nodes (legendOf? lines).toList = [] := by
    rw [legendOf?]
    split <;> rfl
  rw [header, nodes_append, nodes_append, hlegend]
  split <;> split <;> rfl

theorem nodes_packageElement (o : RenderingOptions) (c : Catalog) (p : PackageId) :
    (packageElement o c p).nodes = packageNodes c p := by
  simp [packageElement, packageNodes, Element.nodes, structElement, interfaceElement,
    definedElement, List.filterMap_map, Function.comp_def]

theorem nodes_package (o : RenderingOptions) (c : Catalog) (p : PackageId) :
    nodes (packageElement o c p :: (packageRelations o c p.path).map .relation) =
      packageNodes c p := by
  rw [nodes, List.flatMap_cons, ← nodes, nodes_relations, nodes_packageElement, List.append_nil]

theorem nodes_classElements_eq (o : RenderingOptions) (c : Catalog) :
    nodes (classElements o c) =
      declaredNodes c ++ if o.aliases then (ofCatalog c).entries.all.map leafNode else [] := by
  have hpackages : nodes (c.sortedPackages.flatMap fun p =>
      packageElement o c p :: (packageRelations o c p.path).map .relation) =
        c.sortedPackages.flatMap (packageNodes c) := by
    rw [nodes, List.flatMap_assoc]
    apply List.flatMap_congr
    intro p _
    exact nodes_package o c p
  have haliases : nodes ((sortedAliases c).map aliasElement) =
      (sortedAliases c).map aliasNode := by
    rw [nodes, List.flatMap_map]
    exact List.flatMap_pure_eq_map _ _
  have hleaves : nodes ((ofCatalog c).entries.all.map leafElement) =
      (ofCatalog c).entries.all.map leafNode := by
    rw [nodes, List.flatMap_map]
    exact List.flatMap_pure_eq_map _ _
  simp only [classElements, nodes_append, nodes_header, hpackages, haliases, declaredNodes,
    List.nil_append]
  split
  · rw [nodes_append, nodes_relations, hleaves, List.nil_append]
  · rfl

theorem nodes_classElements {o : RenderingOptions} (ho : o.aliases = true) (c : Catalog) :
    nodes (classElements o c) =
      declaredNodes c ++ (ofCatalog c).entries.all.map leafNode := by
  rw [nodes_classElements_eq, if_pos ho]

theorem identifier_of_mem_declaredNodes {c : Catalog} {node : Node}
    (h : node ∈ declaredNodes c) : node.head.identifier = none := by
  simp only [declaredNodes, packageNodes, List.mem_append, List.mem_flatMap, List.mem_map] at h
  rcases h with ⟨p, -, (⟨s, -, rfl⟩ | ⟨i, -, rfl⟩) | ⟨d, -, rfl⟩⟩ | ⟨a, -, rfl⟩ <;> rfl

/-- The leaves of a class diagram are the classes of the registered types. -/
theorem leaves_classElements {o : RenderingOptions} (ho : o.aliases = true) (c : Catalog) :
    leaves (classElements o c) = (ofCatalog c).entries.all.map leafNode := by
  rw [leaves, nodes_classElements ho, List.filter_append]
  have hdeclared : (declaredNodes c).filter (fun node => node.head.identifier.isSome) = [] := by
    rw [List.filter_eq_nil_iff]
    intro node hnode
    simp [identifier_of_mem_declaredNodes hnode]
  have hleaves : ((ofCatalog c).entries.all.map leafNode).filter
      (fun node => node.head.identifier.isSome) = (ofCatalog c).entries.all.map leafNode := by
    rw [List.filter_eq_self]
    intro node hnode
    obtain ⟨e, -, rfl⟩ := List.mem_map.1 hnode
    rfl
  rw [hdeclared, hleaves, List.nil_append]

/-! ### Alias arrows -/

theorem dropRepeats_sublist (relations : List Relation) :
    (dropRepeats relations).Sublist relations := by
  fun_induction dropRepeats relations with
  | case1 => exact .refl _
  | case2 r => exact .refl _
  | case3 r s rest _ ih => exact ih.trans ((List.sublist_cons_self s rest).cons_cons r)
  | case4 r s rest _ ih => exact ih.cons_cons r

theorem exists_edge_of_mem_sortedRelations {labels : Bool} {edges : List Edge} {r : Relation}
    (h : r ∈ sortedRelations labels edges) : ∃ e ∈ edges, relationOf labels e = r := by
  have hmem := (dropRepeats_sublist _).subset h
  rw [Text.sortOn, List.mem_mergeSort] at hmem
  exact List.mem_map.1 hmem

theorem exists_edge_of_mem_shown {labels shown : Bool} {edges : List Edge} {r : Relation}
    (h : r ∈ if shown then sortedRelations labels edges else []) :
    ∃ edge ∈ edges, relationOf labels edge = r := by
  split at h
  · exact exists_edge_of_mem_sortedRelations h
  · cases h

/-- Edges of other kinds give no alias arrows. -/
theorem kind_of_mem_shown {labels shown : Bool} {edges : List Edge} {r : Relation}
    (hedges : ∀ e ∈ edges, e.kind ≠ .typeAlias)
    (h : r ∈ if shown then sortedRelations labels edges else []) : r.kind ≠ .typeAlias := by
  obtain ⟨e, he, rfl⟩ := exists_edge_of_mem_shown h
  have hkind := hedges e he
  cases hk : e.kind <;> simp_all [relationOf, relationKind]

theorem kind_of_mem_packageRelations {o : RenderingOptions} {c : Catalog} {path : String}
    {r : Relation} (h : r ∈ packageRelations o c path) : r.kind ≠ .typeAlias := by
  rw [packageRelations, List.mem_append, List.mem_append] at h
  rcases h with (h | h) | h
  · refine kind_of_mem_shown ?_ h
    intro e he
    simp only [packageCompositions, Struct.compositions, Interface.compositions, List.mem_append,
      List.mem_flatMap, List.mem_map] at he
    rcases he with ⟨s, -, f, -, rfl⟩ | ⟨i, -, t, -, rfl⟩ <;> nofun
  · refine kind_of_mem_shown ?_ h
    intro e he
    simp only [packageImplementations, Struct.implementations, List.mem_flatMap,
      List.mem_map] at he
    obtain ⟨s, -, i, -, rfl⟩ := he
    nofun
  · refine kind_of_mem_shown ?_ h
    intro e he
    simp only [packageAggregations, List.mem_flatMap, List.mem_append] at he
    obtain ⟨s, -, he | he⟩ := he
    · obtain ⟨t, -, rfl⟩ := List.mem_map.1 he
      nofun
    · split at he
      · obtain ⟨t, -, rfl⟩ := List.mem_map.1 he
        nofun
      · cases he

theorem aliasArrows_append (elements others : List Element) :
    aliasArrows (elements ++ others) = aliasArrows elements ++ aliasArrows others :=
  List.filterMap_append

/-- Elements other than relations hold no arrows. -/
theorem aliasArrows_eq_nil {elements : List Element}
    (h : ∀ r, .relation r ∈ elements → r.kind ≠ .typeAlias) : aliasArrows elements = [] := by
  rw [aliasArrows, List.filterMap_eq_nil_iff]
  intro element helement
  cases element with
  | relation r => exact if_neg (h r helement)
  | _ => rfl

theorem aliasArrows_header (o : RenderingOptions) : aliasArrows (header o) = [] := by
  have hlegend (lines : List String) : aliasArrows (legendOf? lines).toList = [] := by
    rw [legendOf?]
    split <;> rfl
  rw [header, aliasArrows_append, aliasArrows_append, hlegend]
  split <;> split <;> rfl

theorem aliasArrows_map_relation {relations : List Relation}
    (h : ∀ r ∈ relations, r.kind = .typeAlias) :
    aliasArrows (relations.map .relation) = relations := by
  induction relations with
  | nil => rfl
  | cons r rest ih =>
    have hrest := ih fun r hr => h r (List.mem_cons_of_mem _ hr)
    rw [aliasArrows] at hrest
    simp [aliasArrows, h r List.mem_cons_self, hrest]

/-- The alias arrows of a class diagram are the relations of the alias edges. -/
theorem aliasArrows_classElements {o : RenderingOptions} (ho : o.aliases = true) (c : Catalog) :
    aliasArrows (classElements o c) = aliasRelations o c (ofCatalog c) := by
  have hpackages : aliasArrows (c.sortedPackages.flatMap fun p =>
      packageElement o c p :: (packageRelations o c p.path).map .relation) = [] := by
    apply aliasArrows_eq_nil
    intro r hr
    obtain ⟨p, -, hr⟩ := List.mem_flatMap.1 hr
    have hrelation : r ∈ packageRelations o c p.path := by
      simpa [packageElement] using hr
    exact kind_of_mem_packageRelations hrelation
  have haliases : aliasArrows ((sortedAliases c).map aliasElement) = [] := by
    apply aliasArrows_eq_nil
    intro r hr
    obtain ⟨a, -, heq⟩ := List.mem_map.1 hr
    cases heq
  have hleaves : aliasArrows ((ofCatalog c).entries.all.map leafElement) = [] := by
    apply aliasArrows_eq_nil
    intro r hr
    obtain ⟨e, -, heq⟩ := List.mem_map.1 hr
    cases heq
  have harrows : aliasArrows ((aliasRelations o c (ofCatalog c)).map .relation) =
      aliasRelations o c (ofCatalog c) := by
    apply aliasArrows_map_relation
    intro r hr
    simp only [aliasRelations, Catalog.aliasEdges, List.mem_map] at hr
    obtain ⟨e, ⟨n, -, rfl⟩, rfl⟩ := hr
    rfl
  simp only [classElements, aliasArrows_append, aliasArrows_header, hpackages, haliases,
    if_pos ho, harrows, hleaves, List.nil_append, List.append_nil]

/-! ### Arrows and leaves -/

theorem text_targetEnd_of_get? {ids : Identifiers} {n : Naming} {e : IdentifierEntry}
    (h : ids.entries.get? n.package.path n.underlying.key = some e) :
    (n.targetEnd ids).text = n.package.name ++ "." ++ e.identifier := by
  rw [Naming.targetEnd, identifier?, h, Option.map_some]
  rfl

theorem mem_leaves_iff {o : RenderingOptions} (ho : o.aliases = true) {c : Catalog} {leaf : Node} :
    leaf ∈ leaves (classElements o c) ↔
      ∃ path key e, (ofCatalog c).entries.get? path key = some e ∧ leafNode e = leaf := by
  rw [leaves_classElements ho, List.mem_map]
  simp only [PackageTable.mem_all_iff]
  constructor
  · intro h
    obtain ⟨e, ⟨path, key, he⟩, hleaf⟩ := h
    exact ⟨path, key, e, he, hleaf⟩
  · intro h
    obtain ⟨path, key, e, he, hleaf⟩ := h
    exact ⟨e, ⟨path, key, he⟩, hleaf⟩

theorem nodup_leaf_identifiers {o : RenderingOptions} (ho : o.aliases = true) (c : Catalog) :
    ((leaves (classElements o c)).map (·.head.identifier)).Nodup := by
  have hnodup := (sound_ofCatalog c).nodup_identifiers.map (Option.some_injective String)
  rw [leaves_classElements ho, List.map_map]
  rwa [List.map_map] at hnodup

/-- Arrows and leaves of the class diagram of a catalog correspond, when every declaration has its
arrow point to `target`. -/
structure Anchors (o : RenderingOptions) (c : Catalog) (target : Naming → String) : Prop where
  /-- One arrow for each declaration over a type that is not predeclared, and no other arrow. -/
  arrows : (aliasArrows (classElements o c)).Perm
    ((c.namings.filter fun n => !n.underlying.builtin).map fun n =>
      { kind := .typeAlias, source := n.package.name ++ "." ++ n.name, target := target n,
        label := if o.connectionLabels then some "alias of" else none })
  /-- A composite type that needs an identifier has one leaf, in the namespace that the arrow
  names. -/
  anchored : ∀ n ∈ c.namings, needed n.underlying = true →
    ∃ identifier, target n = n.package.name ++ "." ++ identifier ∧
      ((leaves (classElements o c)).map (·.head.identifier)).count (some identifier) = 1 ∧
      ∃ leaf ∈ leaves (classElements o c),
        leaf.space = n.package.name ∧ leaf.head.identifier = some identifier
  /-- Every leaf is pointed to. -/
  reached : ∀ leaf ∈ leaves (classElements o c),
    ∃ n ∈ c.namings, n.underlying.builtin = false ∧
      ∃ identifier, leaf.head.identifier = some identifier ∧
        target n = leaf.space ++ "." ++ identifier

theorem anchors_targetEnd {o : RenderingOptions} (ho : o.aliases = true) {c : Catalog}
    (hpackage : ∀ n ∈ c.namings, ∀ m ∈ c.namings, n.package.path = m.package.path →
      n.package = m.package) :
    Anchors o c fun n => (n.targetEnd (ofCatalog c)).text where
  arrows := by
    rw [aliasArrows_classElements ho, aliasRelations, Catalog.aliasEdges, List.map_map]
    exact (List.mergeSort_perm _ _).map _
  anchored := by
    intro n hn hneeded
    obtain ⟨e, he⟩ := exists_get?_of_needed hn hneeded
    obtain ⟨m, hm, -, hpath, -, howner⟩ := exists_naming_of_get? he
    have hleaf : leafNode e ∈ leaves (classElements o c) := (mem_leaves_iff ho).2 ⟨_, _, e, he, rfl⟩
    refine ⟨e.identifier, text_targetEnd_of_get? he, ?_, leafNode e, hleaf, ?_, rfl⟩
    · exact List.count_eq_one_of_mem (nodup_leaf_identifiers ho c)
        (List.mem_map.2 ⟨leafNode e, hleaf, rfl⟩)
    · rw [← hpackage m hm n hn hpath, ← howner]
      rfl
  reached := by
    intro leaf hleaf
    obtain ⟨path, key, e, he, rfl⟩ := (mem_leaves_iff ho).1 hleaf
    obtain ⟨n, hn, hneeded, rfl, rfl, howner⟩ := exists_naming_of_get? he
    refine ⟨n, hn, builtin_of_needed hneeded, e.identifier, rfl, ?_⟩
    rw [text_targetEnd_of_get? he, ← howner]
    rfl

/-- In the class diagram of a list of packages, alias arrows and leaves correspond. The declarations
are the defined types and aliases of the packages, each listed once. -/
theorem aliasArrows_leaves_correspond {packages : List Package} {c : Catalog}
    (hc : c.BuiltFrom packages) {o : RenderingOptions} (ho : o.aliases = true) :
    (∀ n, n ∈ c.namings ↔
      (∃ d, (Catalog.ofPackages packages).find? d.package.path d.name = some (.defined d) ∧
        Naming.mk d.name d.package d.underlying = n) ∨
      ∃ a, (Catalog.ofPackages packages).find? a.package.path a.name = some (.typeAlias a) ∧
        Naming.mk a.name a.package a.underlying = n) ∧
    (c.namings.map fun n => (n.package.path, n.name)).Nodup ∧
    Anchors o c fun n => (n.targetEnd (ofCatalog c)).text := by
  have hnamings : c.namings = (Catalog.ofPackages packages).namings := by
    cases hc <;> rfl
  refine ⟨?_, ?_, anchors_targetEnd ho ?_⟩
  · intro n
    rw [hnamings]
    exact Catalog.mem_namings_iff
  · rw [hnamings]
    exact Catalog.nodup_namings packages
  · intro n hn m hm hpath
    rw [hnamings] at hn hm
    have hn' := Catalog.package?_of_mem_namings hn
    rw [hpath, Catalog.package?_of_mem_namings hm, Option.some.injEq] at hn'
    exact hn'.symm

/-- A predeclared type, a named one, and the same slice under two names. -/
def gauges : Package where
  name := "gauges"
  path := "example.com/gauges"
  imports := []
  declarations :=
    [⟨"Celsius", false, .basic "float64"⟩,
     ⟨"Sink", true, .named "Writer" (some ⟨"io", "io"⟩)⟩,
     ⟨"Names", false, .slice (.basic "string")⟩, ⟨"Words", true, .slice (.basic "string")⟩]
  methods := []

theorem aliasArrows_leaves_correspond_gauges :
    ((Catalog.ofPackages [gauges]).classify.namings.map fun n => needed n.underlying) =
        [false, true, false, true] ∧
      leaves (classElements {} (Catalog.ofPackages [gauges]).classify) =
        [leafNode ⟨⟨"gauges", "example.com/gauges"⟩, "[]string", "gaugesstring"⟩] ∧
      Anchors {} (Catalog.ofPackages [gauges]).classify fun n =>
        (n.targetEnd (ofCatalog (Catalog.ofPackages [gauges]).classify)).text := by
  refine ⟨by decide +kernel, ?_, (aliasArrows_leaves_correspond .classified rfl).2.2⟩
  rw [leaves_classElements rfl]
  decide +kernel

end Diagram

end GoUml
