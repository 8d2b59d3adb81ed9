import GoUml.Proofs.AliasLeaves
import GoUml.Proofs.Pointwise
import Mathlib.Data.List.Permutation

/-!
# Every entity is drawn once

The namespaces of a class diagram come from the table of packages, and what stands in them from
four other tables that are looked up by path. An entity whose path has no package would be missing
from the diagram, and one that two tables hold would be drawn twice. Neither can happen in the
catalog of a list of packages: each table holds exactly what is found of its kind, and whatever is
found belongs to the package of its path. The order in which things are drawn is that of the
tables, except for packages, aliases and members, which are sorted; sorting members is stable, so
that members with one name, such as blank fields, are all kept and stay in their order.
-/

namespace GoUml

namespace Diagram

open Identifiers

/-- `listed` is `members` in ascending order of name, where members of one name keep their order. -/
structure Arranged {α : Type} (name : α → String) (members listed : List α) : Prop where
  perm : listed.Perm members
  ascending : listed.Pairwise fun a b => name a ≤ name b
  stable : ∀ n, listed.filter (fun m => name m = n) = members.filter fun m => name m = n

theorem eq_of_pairwise_of_filter {α : Type} {name : α → String} {xs ys : List α}
    (hxs : xs.Pairwise fun a b => name a ≤ name b) (hys : ys.Pairwise fun a b => name a ≤ name b)
    (hperm : xs.Perm ys)
    (hfilter : ∀ n, xs.filter (fun m => name m = n) = ys.filter fun m => name m = n) : xs = ys := by
  induction xs generalizing ys with
  | nil => exact hperm.nil_eq
  | cons x xs ih =>
    cases ys with
    | nil => cases hperm.eq_nil
    | cons y ys =>
      rw [List.pairwise_cons] at hxs hys
      have hle : ∀ {a b : α} {as : List α}, (∀ c ∈ as, name a ≤ name c) → b ∈ a :: as →
          name a ≤ name b := by
        intro a b as has hb
        rcases List.mem_cons.1 hb with rfl | hb
        · exact String.le_refl _
        · exact has b hb
      have hname : name x = name y :=
        String.le_antisymm (hle hxs.1 (hperm.mem_iff.2 List.mem_cons_self))
          (hle hys.1 (hperm.mem_iff.1 List.mem_cons_self))
      have hfirst := hfilter (name y)
      rw [List.filter_cons_of_pos (by simpa using hname),
        List.filter_cons_of_pos (by simp)] at hfirst
      obtain ⟨rfl, hsame⟩ := List.cons.inj hfirst
      refine congrArg _ (ih hxs.2 hys.2 hperm.cons_inv fun n => ?_)
      by_cases hn : name x = n
      · rwa [hn] at hsame
      · have hrest := hfilter n
        rwa [List.filter_cons_of_neg (by simpa using hn),
          List.filter_cons_of_neg (by simpa using hn)] at hrest

theorem Arranged.unique {α : Type} {name : α → String} {members listed listed' : List α}
    (h : Arranged name members listed) (h' : Arranged name members listed') : listed = listed' :=
  eq_of_pairwise_of_filter h.ascending h'.ascending (h.perm.trans h'.perm.symm)
    fun n => (h.stable n).trans (h'.stable n).symm

/-- The members that the options show: none of a kind that is hidden, and private ones only on
request. -/
def visibleMembers {α : Type} (o : RenderingOptions) (shown : Bool) (name : α → String)
    (members : List α) : List α :=
  if shown then members.filter fun m => o.privateMembers || !isPrivate (name m) else []

theorem arranged_shownMembers {α : Type} (o : RenderingOptions) (shown : Bool) (name : α → String)
    (members : List α) :
    Arranged name (visibleMembers o shown name members) (shownMembers o shown name members) := by
  have hsorted : shownMembers o shown name members =
      Text.sortOn name (visibleMembers o shown name members) := by
    rw [shownMembers, visibleMembers]
    cases shown with
    | false => simp [Text.sortOn]
    | true => rfl
  rw [hsorted]
  refine ⟨Text.sortOn_perm _ _, ?_, fun n => Text.filter_sortOn name n _⟩
  apply (Text.pairwise_sortOn name _).imp
  intro a b hab
  rwa [Text.notAfter, Bool.not_eq_true', decide_eq_false_iff_not, String.not_lt] at hab

/-- The lines of the visible fields, by name. -/
inductive ListsFields (o : RenderingOptions) (fields : List Field) : List Element → Prop
  | lines {listed : List Field}
      (h : Arranged Field.name (visibleMembers o o.fields Field.name fields) listed) :
      ListsFields o fields (listed.map fun f => .field f.name f.type.qualifiedName)

/-- The lines of the visible methods, by name. -/
inductive ListsMethods (o : RenderingOptions) (methods : List Function) : List Element → Prop
  | lines {listed : List Function}
      (h : Arranged Function.name (visibleMembers o o.methods Function.name methods) listed) :
      ListsMethods o methods (listed.map fun m => .method {
        name := m.name
        params := m.parameters.map fun p => (p.name, p.type.qualifiedName)
        results := m.results.map fun r => r.qualifiedName })

/-- The block that an entity has in its namespace: its visible fields and then its visible
methods. -/
inductive Draws (o : RenderingOptions) : Entity → Element → Prop
  | struct {s : Struct} {fields methods : List Element} (hfields : ListsFields o s.fields fields)
      (hmethods : ListsMethods o s.methods methods) :
      Draws o (.struct s) (.classBlock { name := s.name, spot := some structSpot }
        (fields ++ methods))
  | interface {i : Interface} {methods : List Element}
      (hmethods : ListsMethods o i.methods methods) :
      Draws o (.interface i) (.interfaceBlock i.name methods)
  | defined {d : DefinedType} {methods : List Element}
      (hmethods : ListsMethods o d.methods methods) :
      Draws o (.defined d) (.classBlock
        { name := d.name, spot := some definedSpot,
          stereotype := overBuiltin "type of" d.underlying } methods)
  | typeAlias {a : TypeAlias} :
      Draws o (.typeAlias a) (.classBlock
        { name := a.name, spot := some aliasSpot,
          stereotype := overBuiltin "alias of" a.underlying } [])

section Elements

variable (o : RenderingOptions)

theorem listsFields_fieldElements (fields : List Field) :
    ListsFields o fields (fieldElements o fields) :=
  .lines (arranged_shownMembers ..)

theorem listsMethods_methodElements (methods : List Function) :
    ListsMethods o methods (methodElements o methods) :=
  .lines (arranged_shownMembers ..)

theorem draws_structElement (s : Struct) : Draws o (.struct s) (structElement o s) :=
  .struct (listsFields_fieldElements o s.fields) (listsMethods_methodElements o s.methods)

theorem draws_interfaceElement (i : Interface) : Draws o (.interface i) (interfaceElement o i) :=
  .interface (listsMethods_methodElements o i.methods)

theorem draws_definedElement (d : DefinedType) : Draws o (.defined d) (definedElement o d) :=
  .defined (listsMethods_methodElements o d.methods)

end Elements

/-- The entities of one kind under a path, each once, in ascending order of name. -/
structure Roll {α : Type} (c : Catalog) (path : String) (kind : α → Entity) (items : List α) :
    Prop where
  ascending : items.Pairwise fun a b => (kind a).name < (kind b).name
  mem_iff : ∀ a, a ∈ items ↔ c.find? path (kind a).name = some (kind a)

inductive DrawsPackage (o : RenderingOptions) (c : Catalog) (p : PackageId) : Element → Prop
  | block {structs : List Struct} {interfaces : List Interface} {definedTypes : List DefinedType}
      {blocks : List Element} (hstructs : Roll c p.path .struct structs)
      (hinterfaces : Roll c p.path .interface interfaces)
      (hdefinedTypes : Roll c p.path .defined definedTypes)
      (hblocks : List.Forall₂ (Draws o)
        (structs.map .struct ++ interfaces.map .interface ++ definedTypes.map .defined) blocks) :
      DrawsPackage o c p (.namespaceBlock p.name blocks)

inductive DrawsAlias (o : RenderingOptions) (a : TypeAlias) : Element → Prop
  | block {block : Element} (h : Draws o (.typeAlias a) block) :
      DrawsAlias o a (.namespaceBlock a.package.name [block])

inductive DrawsLeaf : Element → Prop
  | block {space : String} {head : ClassHead} {children : List Element}
      (h : head.identifier.isSome = true) :
      DrawsLeaf (.namespaceBlock space [.classBlock head children])

theorem roll_inPackage {α : Type} {c : Catalog} (h : c.Orderly) {t : PackageTable α}
    {kind : α → Entity} (ht : c.Keeps t kind) (path : String) :
    Roll c path kind (t.inPackage path) :=
  ⟨h.pairwise_inPackage ht path, fun _ => h.mem_inPackage_iff ht⟩

theorem forall₂_map_map {α : Type} {o : RenderingOptions} {kind : α → Entity}
    {element : α → Element} (h : ∀ a, Draws o (kind a) (element a)) (items : List α) :
    List.Forall₂ (Draws o) (items.map kind) (items.map element) := by
  rw [List.forall₂_map_left_iff, List.forall₂_map_right_iff, List.forall₂_same]
  intro a _
  exact h a

theorem drawsPackage_packageElement (o : RenderingOptions) {c : Catalog} (h : c.Orderly)
    (p : PackageId) : DrawsPackage o c p (packageElement o c p) := by
  refine .block (roll_inPackage h h.structs p.path) (roll_inPackage h h.interfaces p.path)
    (roll_inPackage h h.definedTypes p.path) ?_
  refine List.rel_append (List.rel_append ?_ ?_) ?_
  · exact forall₂_map_map (draws_structElement o) _
  · exact forall₂_map_map (draws_interfaceElement o) _
  · exact forall₂_map_map (draws_definedElement o) _

/-! ### The blocks of a class diagram -/

def Element.isBlock : Element → Bool
  | .namespaceBlock _ _ => true
  | .classBlock _ _ => true
  | .interfaceBlock _ _ => true
  | _ => false

def blocks (elements : List Element) : List Element := elements.filter Element.isBlock

theorem blocks_append (elements others : List Element) :
    blocks (elements ++ others) = blocks elements ++ blocks others := List.filter_append ..

theorem blocks_relations (relations : List Relation) : blocks (relations.map .relation) = [] := by
  rw [blocks, List.filter_eq_nil_iff]
  intro element helement
  obtain ⟨r, -, rfl⟩ := List.mem_map.1 helement
  nofun

theorem blocks_header (o : RenderingOptions) : blocks (header o) = [] := by
  have hlegend (lines : List String) : blocks (legendOf? lines).toList = [] := by
    rw [legendOf?]
    split <;> rfl
  rw [header, blocks_append, blocks_append, hlegend]
  split <;> split <;> rfl

theorem blocks_map {α : Type} {element : α → Element} (h : ∀ a, (element a).isBlock = true)
    (items : List α) : blocks (items.map element) = items.map element := by
  rw [blocks, List.filter_eq_self]
  intro e he
  obtain ⟨a, -, rfl⟩ := List.mem_map.1 he
  exact h a

theorem blocks_classElements (o : RenderingOptions) (c : Catalog) :
    blocks (classElements o c) =
      c.sortedPackages.map (packageElement o c) ++ (sortedAliases c).map aliasElement ++
        if o.aliases then (ofCatalog c).entries.all.map leafElement else [] := by
  have hpackages : blocks (c.sortedPackages.flatMap fun p =>
      packageElement o c p :: (packageRelations o c p.path).map .relation) =
        c.sortedPackages.map (packageElement o c) := by
    rw [blocks, List.filter_flatMap, ← List.flatMap_pure_eq_map]
    apply List.flatMap_congr
    intro p _
    rw [List.filter_cons_of_pos rfl, ← blocks, blocks_relations]
    rfl
  have haliases : blocks ((sortedAliases c).map aliasElement) =
      (sortedAliases c).map aliasElement :=
    blocks_map (fun _ => rfl) _
  have hleaves : blocks ((ofCatalog c).entries.all.map leafElement) =
      (ofCatalog c).entries.all.map leafElement :=
    blocks_map (fun _ => rfl) _
  simp only [classElements, blocks_append, blocks_header, hpackages, haliases, List.nil_append]
  split
  · rw [blocks_append, blocks_relations, hleaves, List.nil_append]
  · rfl

theorem length_packageNodes (c : Catalog) :
    (c.sortedPackages.flatMap (packageNodes c)).length =
      (c.sortedPackages.flatMap fun p => c.structs.inPackage p.path).length +
        (c.sortedPackages.flatMap fun p => c.interfaces.inPackage p.path).length +
        (c.sortedPackages.flatMap fun p => c.definedTypes.inPackage p.path).length := by
  induction c.sortedPackages with
  | nil => rfl
  | cons p rest ih =>
    simp only [List.flatMap_cons, List.length_append, ih, packageNodes, List.length_map]
    omega

theorem length_declaredNodes {c : Catalog} (h : c.Orderly) :
    (declaredNodes c).length = c.entityCount := by
  have haliases : (sortedAliases c).length = c.typeAliases.all.length :=
    (Text.sortOnRow_perm _ _).length_eq
  rw [declaredNodes, List.length_append, List.length_map, length_packageNodes,
    (h.flatMap_inPackage_perm h.structs).length_eq,
    (h.flatMap_inPackage_perm h.interfaces).length_eq,
    (h.flatMap_inPackage_perm h.definedTypes).length_eq, haliases, Catalog.entityCount]

theorem filter_nodes_classElements (o : RenderingOptions) (c : Catalog) :
    (nodes (classElements o c)).filter (fun node => node.head.identifier.isNone) =
      declaredNodes c := by
  have hdeclared : (declaredNodes c).filter (fun node => node.head.identifier.isNone) =
      declaredNodes c := by
    rw [List.filter_eq_self]
    intro node hnode
    rw [identifier_of_mem_declaredNodes hnode]
    rfl
  rw [nodes_classElements_eq, List.filter_append, hdeclared, List.append_right_eq_self,
    List.filter_eq_nil_iff]
  intro node hnode
  split at hnode
  · obtain ⟨e, -, rfl⟩ := List.mem_map.1 hnode
    nofun
  · cases hnode

/-- The packages and aliases of a catalog, each once, and every entity in one of the packages. -/
structure Inventory (c : Catalog) (loaded : List PackageId) (aliases : List TypeAlias) : Prop where
  ascending : loaded.Pairwise PackageId.Before
  mem_loaded_iff : ∀ p, p ∈ loaded ↔ c.package? p.path = some p
  owned : ∀ path name e, c.find? path name = some e →
    e.name = name ∧ e.package.path = path ∧ e.package ∈ loaded
  nodup_aliases : aliases.Nodup
  mem_aliases_iff : ∀ a, a ∈ aliases ↔ c.find? a.package.path a.name = some (.typeAlias a)

theorem inventory_sorted {c : Catalog} (h : c.Orderly) :
    Inventory c c.sortedPackages (sortedAliases c) := by
  have hperm : (sortedAliases c).Perm c.typeAliases.all := Text.sortOnRow_perm _ _
  refine ⟨h.pairwise_sortedPackages, fun p => h.mem_sortedPackages_iff, ?_, ?_, ?_⟩
  · intro path name e he
    obtain ⟨hname, hpath, howner⟩ := h.owner he
    refine ⟨hname, hpath, h.mem_sortedPackages_iff.2 ?_⟩
    rwa [hpath]
  · exact hperm.nodup_iff.2 (h.nodup_all h.typeAliases)
  · intro a
    rw [hperm.mem_iff, h.mem_all_iff h.typeAliases]
    rfl

/-- The blocks of the class diagram of a list of packages are the namespaces of the packages, by
name and path, then one namespace for each alias, and then those of the leaves. As many classes and
interfaces as the catalog has entities are not leaves. -/
theorem classElements_draw_once {packages : List Package} {c : Catalog}
    (hc : c.BuiltFrom packages) (o : RenderingOptions) :
    (∃ loaded aliases, Inventory c loaded aliases ∧
      ∃ packageBlocks aliasBlocks leafBlocks,
        blocks (classElements o c) = packageBlocks ++ aliasBlocks ++ leafBlocks ∧
        List.Forall₂ (DrawsPackage o c) loaded packageBlocks ∧
        List.Forall₂ (DrawsAlias o) aliases aliasBlocks ∧
        ∀ block ∈ leafBlocks, DrawsLeaf block) ∧
    ((nodes (classElements o c)).filter fun node => node.head.identifier.isNone).length =
      c.entityCount := by
  have h := hc.orderly
  constructor
  · refine ⟨_, _, inventory_sorted h, _, _, _, blocks_classElements o c, ?_, ?_, ?_⟩
    · rw [List.forall₂_map_right_iff, List.forall₂_same]
      intro p _
      exact drawsPackage_packageElement o h p
    · rw [List.forall₂_map_right_iff, List.forall₂_same]
      intro a _
      exact .block .typeAlias
    · intro block hblock
      split at hblock
      · obtain ⟨e, -, rfl⟩ := List.mem_map.1 hblock
        exact .block rfl
      · cases hblock
  · rw [filter_nodes_classElements, length_declaredNodes h]

/-- Two packages of one name. One has a struct with two blank fields and a private one, and a method
on a type that it does not declare; the other has a defined type and an alias of it. -/
def stores : List Package :=
  [{ name := "store", path := "example.com/b/store", imports := [],
     declarations :=
       [⟨"Shelf", false, .struct
         [⟨"_", .basic "int", false⟩, ⟨"cost", .basic "int", false⟩, ⟨"Size", .basic "int", false⟩,
          ⟨"_", .basic "bool", false⟩]⟩],
     methods :=
       [⟨"Ledger", true, "Total", ⟨[], []⟩⟩,
        ⟨"Shelf", false, "Has", ⟨[⟨"name", .basic "string"⟩], [⟨"", .basic "bool"⟩]⟩⟩] },
   { name := "store", path := "example.com/a/store", imports := [],
     declarations :=
       [⟨"Price", false, .basic "int"⟩,
        ⟨"Cost", true, .named "Price" (some ⟨"store", "example.com/a/store"⟩)⟩],
     methods := [] }]

def shelf : Struct where
  name := "Shelf"
  package := ⟨"store", "example.com/b/store"⟩
  fields := [⟨"_", .basic "int", false⟩, ⟨"cost", .basic "int", false⟩,
    ⟨"Size", .basic "int", false⟩, ⟨"_", .basic "bool", false⟩].map
      (Field.ofStructField ⟨"store", "example.com/b/store"⟩)
  methods := [Function.ofSignature ⟨"store", "example.com/b/store"⟩ "Has"
    ⟨[⟨"name", .basic "string"⟩], [⟨"", .basic "bool"⟩]⟩]
  implemented := []

def shelfBlock : Element :=
  .classBlock { name := "Shelf", spot := some ⟨'S', "#7FFFD4"⟩ }
    [.field "Size" "int", .field "_" "int", .field "_" "bool",
      .method ⟨"Has", [("name", "string")], ["bool"]⟩]

theorem eq_shelfBlock_of_draws {block : Element}
    (h : Draws { privateMembers := false } (.struct shelf) block) : block = shelfBlock := by
  cases h with
  | struct hfields hmethods =>
    cases hfields with
    | lines hfields =>
      cases hmethods with
      | lines hmethods =>
        rw [hfields.unique (arranged_shownMembers _ true ..),
          hmethods.unique (arranged_shownMembers _ true ..)]
        cbv

theorem classElements_draw_once_stores :
    (∃ loaded packageBlocks others,
      blocks (classElements { privateMembers := false } (Catalog.ofPackages stores).classify) =
        packageBlocks ++ others ∧
      List.Forall₂ (DrawsPackage { privateMembers := false } (Catalog.ofPackages stores).classify)
        loaded packageBlocks ∧
      loaded.Pairwise PackageId.Before ∧
      ⟨"store", "example.com/a/store"⟩ ∈ loaded ∧ ⟨"store", "example.com/b/store"⟩ ∈ loaded ∧
      ∃ children, .namespaceBlock "store" children ∈ packageBlocks ∧ shelfBlock ∈ children) ∧
    ((nodes (classElements { privateMembers := false } (Catalog.ofPackages stores).classify)).filter
      fun node => node.head.identifier.isNone).length = 4 := by
  have hc : (Catalog.ofPackages stores).classify.BuiltFrom stores := .classified
  obtain ⟨⟨loaded, aliases, inventory, packageBlocks, aliasBlocks, leafBlocks, hblocks, hdrawn, -⟩,
    hcount⟩ := classElements_draw_once hc { privateMembers := false }
  have hfirst : ⟨"store", "example.com/a/store"⟩ ∈ loaded := by
    rw [inventory.mem_loaded_iff]
    decide +kernel
  have hsecond : ⟨"store", "example.com/b/store"⟩ ∈ loaded := by
    rw [inventory.mem_loaded_iff]
    decide +kernel
  refine ⟨⟨loaded, packageBlocks, aliasBlocks ++ leafBlocks, ?_, hdrawn, inventory.ascending,
    hfirst, hsecond, ?_⟩, ?_⟩
  · rw [hblocks, List.append_assoc]
  · obtain ⟨block, hblock, hdraws⟩ := exists_of_forall₂ hdrawn hsecond
    cases hdraws with
    | block hstructs hinterfaces hdefinedTypes hinner =>
      have hshelf : (Catalog.ofPackages stores).classify.find? "example.com/b/store" "Shelf" =
          some (.struct shelf) := by
        decide +kernel
      have hentity := List.mem_map_of_mem (f := Entity.struct) ((hstructs.mem_iff shelf).2 hshelf)
      obtain ⟨inner, hmem, hdraws⟩ := exists_of_forall₂ hinner
        (List.mem_append_left _ (List.mem_append_left _ hentity))
      rw [eq_shelfBlock_of_draws hdraws] at hmem
      exact ⟨_, hblock, hmem⟩
  · rw [hcount]
    decide +kernel

end Diagram

end GoUml
