import GoUml.Proofs.Drawing

/-!
# Relation lines start and end at blocks that are drawn

A relation names its ends by the name of a package and the name of a type. The package name at an
end comes from the entity, or from the reference to an interface that a struct lists; the name of
a namespace comes from the table of packages, and what stands in it is looked up by path. Packages
with different paths may share a name, so names alone do not tell that the two agree. They do
because every edge is derived from an entity that is found, because an entity that is found is
drawn in the namespace of the package it carries, and because a struct lists only interfaces of
the same catalog.
-/

namespace GoUml

def Naming.edges (ids : Identifiers) (n : Naming) : List Edge :=
  if n.underlying.builtin then [] else [n.edge ids]

def Entity.edges (ids : Identifiers) : Entity → List Edge
  | .struct s => s.compositions ++ s.implementations ++ s.aggregations ++ s.privateAggregations
  | .interface i => i.compositions
  | .defined d => Naming.edges ids ⟨d.name, d.package, d.underlying⟩
  | .typeAlias a => Naming.edges ids ⟨a.name, a.package, a.underlying⟩

theorem Naming.eq_edge_of_mem_edges {ids : Identifiers} {n : Naming} {edge : Edge}
    (h : edge ∈ n.edges ids) : edge = n.edge ids := by
  rw [edges] at h
  split at h
  · cases h
  · exact List.mem_singleton.1 h

namespace Diagram

open Identifiers

mutual

def Element.relations : Element → List Relation
  | .namespaceBlock _ children => relationsIn children
  | .classBlock _ children => relationsIn children
  | .interfaceBlock _ children => relationsIn children
  | .relation r => [r]
  | _ => []

def relationsIn : List Element → List Relation
  | [] => []
  | e :: rest => e.relations ++ relationsIn rest

end

theorem relationsIn_eq_flatMap (elements : List Element) :
    relationsIn elements = elements.flatMap Element.relations := by
  induction elements with
  | nil => rfl
  | cons e rest ih => rw [relationsIn, ih, List.flatMap_cons]

theorem relationsIn_append (elements others : List Element) :
    relationsIn (elements ++ others) = relationsIn elements ++ relationsIn others := by
  simp only [relationsIn_eq_flatMap, List.flatMap_append]

theorem relationsIn_map_eq_nil {α : Type} {element : α → Element}
    (h : ∀ a, (element a).relations = []) (items : List α) :
    relationsIn (items.map element) = [] := by
  rw [relationsIn_eq_flatMap, List.flatMap_map, List.flatMap_eq_nil_iff]
  intro a _
  exact h a

theorem relationsIn_relations (relations : List Relation) :
    relationsIn (relations.map .relation) = relations := by
  induction relations with
  | nil => rfl
  | cons r rest ih => rw [List.map_cons, relationsIn, ih, Element.relations, List.singleton_append]

theorem ListsFields.relationsIn_eq_nil {o : RenderingOptions} {fields : List Field}
    {lines : List Element} (h : ListsFields o fields lines) : relationsIn lines = [] := by
  obtain ⟨-⟩ := h
  exact relationsIn_map_eq_nil (fun f => by simp [Element.relations]) _

theorem ListsMethods.relationsIn_eq_nil {o : RenderingOptions} {methods : List Function}
    {lines : List Element} (h : ListsMethods o methods lines) : relationsIn lines = [] := by
  obtain ⟨-⟩ := h
  exact relationsIn_map_eq_nil (fun m => by simp [Element.relations]) _

/-- There are no relations inside the block of an entity. -/
theorem Draws.relations_eq_nil {o : RenderingOptions} {e : Entity} {block : Element}
    (h : Draws o e block) : block.relations = [] := by
  cases h with
  | struct hfields hmethods =>
    rw [Element.relations, relationsIn_append, hfields.relationsIn_eq_nil,
      hmethods.relationsIn_eq_nil, List.append_nil]
  | interface hmethods => rw [Element.relations, hmethods.relationsIn_eq_nil]
  | defined hmethods => rw [Element.relations, hmethods.relationsIn_eq_nil]
  | typeAlias => simp [Element.relations, relationsIn]

theorem relationsIn_drawn {o : RenderingOptions} {entities : List Entity} {blocks : List Element}
    (h : List.Forall₂ (Draws o) entities blocks) : relationsIn blocks = [] := by
  induction h with
  | nil => rfl
  | cons hdraws _ ih => rw [relationsIn, hdraws.relations_eq_nil, ih, List.append_nil]

theorem DrawsPackage.relations_eq_nil {o : RenderingOptions} {c : Catalog} {p : PackageId}
    {element : Element} (h : DrawsPackage o c p element) : element.relations = [] := by
  obtain ⟨-, -, -, hblocks⟩ := h
  rw [Element.relations]
  exact relationsIn_drawn hblocks

theorem relationsIn_header (o : RenderingOptions) : relationsIn (header o) = [] := by
  have hlegend (lines : List String) : relationsIn (legendOf? lines).toList = [] := by
    rw [legendOf?]
    split <;> simp [relationsIn, Element.relations]
  rw [header, relationsIn_append, relationsIn_append, hlegend]
  split <;> split <;> simp [relationsIn, Element.relations]

theorem relations_aliasElement (a : TypeAlias) : (aliasElement a).relations = [] := by
  simp [aliasElement, Element.relations, relationsIn]

theorem relations_leafElement (e : IdentifierEntry) : (leafElement e).relations = [] := by
  simp [leafElement, Element.relations, relationsIn]

/-- The relations of a class diagram are those of its packages and the alias lines. -/
theorem relationsIn_classElements (o : RenderingOptions) {c : Catalog} (h : c.Orderly) :
    relationsIn (classElements o c) =
      c.sortedPackages.flatMap (fun p => packageRelations o c p.path) ++
        if o.aliases then aliasRelations o c (ofCatalog c) else [] := by
  have hpackages : relationsIn (c.sortedPackages.flatMap fun p =>
      packageElement o c p :: (packageRelations o c p.path).map .relation) =
        c.sortedPackages.flatMap fun p => packageRelations o c p.path := by
    rw [relationsIn_eq_flatMap, List.flatMap_assoc]
    apply List.flatMap_congr
    intro p _
    rw [← relationsIn_eq_flatMap, relationsIn, relationsIn_relations,
      (drawsPackage_packageElement o h p).relations_eq_nil, List.nil_append]
  have haliases : relationsIn ((sortedAliases c).map aliasElement) = [] :=
    relationsIn_map_eq_nil relations_aliasElement _
  have hleaves : relationsIn ((ofCatalog c).entries.all.map leafElement) = [] :=
    relationsIn_map_eq_nil relations_leafElement _
  simp only [classElements, relationsIn_append, relationsIn_header, hpackages, haliases,
    List.nil_append, List.append_nil]
  split
  · rw [relationsIn_append, relationsIn_relations, hleaves, List.append_nil]
  · rfl

/-! ### Where relations come from -/

/-- A relation of a package is derived from one of its structs or interfaces. -/
theorem exists_entity_of_mem_packageRelations {o : RenderingOptions} {c : Catalog} (h : c.Orderly)
    (ids : Identifiers) {path : String} {r : Relation} (hr : r ∈ packageRelations o c path) :
    ∃ e edge, c.find? path e.name = some e ∧ edge ∈ e.edges ids ∧
      relationOf o.connectionLabels edge = r := by
  have hstruct {s : Struct} (hs : s ∈ c.structs.inPackage path) :
      c.find? path s.name = some (.struct s) := (h.mem_inPackage_iff h.structs).1 hs
  rw [packageRelations, List.mem_append, List.mem_append] at hr
  rcases hr with (hr | hr) | hr
  · obtain ⟨edge, hedge, rfl⟩ := exists_edge_of_mem_shown hr
    rcases List.mem_append.1 hedge with hedge | hedge
    · obtain ⟨s, hs, hedge⟩ := List.mem_flatMap.1 hedge
      exact ⟨.struct s, edge, hstruct hs, by simp [Entity.edges, hedge], rfl⟩
    · obtain ⟨i, hi, hedge⟩ := List.mem_flatMap.1 hedge
      exact ⟨.interface i, edge, (h.mem_inPackage_iff h.interfaces).1 hi, hedge, rfl⟩
  · obtain ⟨edge, hedge, rfl⟩ := exists_edge_of_mem_shown hr
    obtain ⟨s, hs, hedge⟩ := List.mem_flatMap.1 hedge
    exact ⟨.struct s, edge, hstruct hs, by simp [Entity.edges, hedge], rfl⟩
  · obtain ⟨edge, hedge, rfl⟩ := exists_edge_of_mem_shown hr
    obtain ⟨s, hs, hedge⟩ := List.mem_flatMap.1 hedge
    refine ⟨.struct s, edge, hstruct hs, ?_, rfl⟩
    rcases List.mem_append.1 hedge with hedge | hedge
    · simp [Entity.edges, hedge]
    · split at hedge
      · simp [Entity.edges, hedge]
      · cases hedge

/-- An alias line is derived from a defined type or an alias. -/
theorem exists_entity_of_mem_aliasRelations {o : RenderingOptions} {c : Catalog} (h : c.Orderly)
    {ids : Identifiers} {r : Relation} (hr : r ∈ aliasRelations o c ids) :
    ∃ path e edge, c.find? path e.name = some e ∧ edge ∈ e.edges ids ∧
      relationOf o.connectionLabels edge = r := by
  rw [aliasRelations, Catalog.aliasEdges, List.map_map, List.mem_map] at hr
  obtain ⟨n, hn, rfl⟩ := hr
  rw [(Text.sortOnRow_perm _ _).mem_iff, List.mem_filter, Catalog.namings, List.mem_append] at hn
  obtain ⟨hn, hbuiltin⟩ := hn
  rcases hn with hn | hn
  · obtain ⟨d, hd, rfl⟩ := List.mem_map.1 hn
    refine ⟨_, .defined d, _, (h.mem_all_iff h.definedTypes).1 hd, ?_, rfl⟩
    simpa [Entity.edges, Naming.edges] using hbuiltin
  · obtain ⟨a, ha, rfl⟩ := List.mem_map.1 hn
    refine ⟨_, .typeAlias a, _, (h.mem_all_iff h.typeAliases).1 ha, ?_, rfl⟩
    simpa [Entity.edges, Naming.edges] using hbuiltin

theorem exists_entity_of_mem_relationsIn {o : RenderingOptions} {c : Catalog} (h : c.Orderly)
    {r : Relation} (hr : r ∈ relationsIn (classElements o c)) :
    ∃ path e edge, c.find? path e.name = some e ∧ edge ∈ e.edges (ofCatalog c) ∧
      relationOf o.connectionLabels edge = r := by
  rw [relationsIn_classElements o h, List.mem_append] at hr
  rcases hr with hr | hr
  · obtain ⟨p, -, hr⟩ := List.mem_flatMap.1 hr
    exact ⟨p.path, exists_entity_of_mem_packageRelations h _ hr⟩
  · split at hr
    · exact exists_entity_of_mem_aliasRelations h hr
    · cases hr

/-- The end that an entity has in the relations derived from it. What is part of another type, or
implements an interface, is written behind it. -/
def Relation.ownEnd (r : Relation) : String :=
  match r.kind with
  | .composition => r.source
  | .typeAlias => r.source
  | .aggregation => r.target
  | .implementation => r.target
  | .imports => r.source

/-- What the edges of an entity are. Only structs implement, and what they implement is what they
list. -/
theorem edges_cases {ids : Identifiers} {e : Entity} {edge : Edge} (h : edge ∈ e.edges ids) :
    ((edge.kind = .composition ∨ edge.kind = .typeAlias) ∧
      edge.source = .declared e.package e.name) ∨
    (edge.kind = .aggregation ∧ edge.target = .declared e.package e.name) ∨
    (edge.kind = .implementation ∧ edge.target = .declared e.package e.name ∧
      ∃ s, e = .struct s ∧ ∃ i ∈ s.implemented, edge.source = .declared i.package i.name) := by
  cases e with
  | struct s =>
    simp only [Entity.edges, List.mem_append, Struct.compositions, Struct.implementations,
      Struct.aggregations, Struct.privateAggregations, List.mem_map] at h
    rcases h with ((⟨_, -, rfl⟩ | ⟨i, hi, rfl⟩) | ⟨_, -, rfl⟩) | ⟨_, -, rfl⟩
    · exact .inl ⟨.inl rfl, rfl⟩
    · exact .inr (.inr ⟨rfl, rfl, s, rfl, i, hi, rfl⟩)
    · exact .inr (.inl ⟨rfl, rfl⟩)
    · exact .inr (.inl ⟨rfl, rfl⟩)
  | interface i =>
    obtain ⟨t, -, rfl⟩ := List.mem_map.1 h
    exact .inl ⟨.inl rfl, rfl⟩
  | defined d =>
    rw [Naming.eq_edge_of_mem_edges h]
    exact .inl ⟨.inr rfl, rfl⟩
  | typeAlias a =>
    rw [Naming.eq_edge_of_mem_edges h]
    exact .inl ⟨.inr rfl, rfl⟩

theorem ownEnd_relationOf {ids : Identifiers} {e : Entity} {edge : Edge} (h : edge ∈ e.edges ids)
    (labels : Bool) :
    (relationOf labels edge).ownEnd = e.package.name ++ "." ++ e.name := by
  rcases edges_cases h with ⟨hkind | hkind, hend⟩ | ⟨hkind, hend⟩ | ⟨hkind, hend, -⟩ <;>
    simp [Relation.ownEnd, relationOf, relationKind, hkind, hend, EdgeEnd.text, EdgeEnd.declared]

theorem exists_implemented {ids : Identifiers} {e : Entity} {edge : Edge} (h : edge ∈ e.edges ids)
    (hkind : edge.kind = .implementation) :
    ∃ s, e = .struct s ∧ ∃ i ∈ s.implemented, edge.source = .declared i.package i.name := by
  rcases edges_cases h with ⟨hother | hother, -⟩ | ⟨hother, -⟩ | ⟨-, -, hlisted⟩
  · simp [hother] at hkind
  · simp [hother] at hkind
  · simp [hother] at hkind
  · exact hlisted

/-- After classifying, the interfaces that a struct lists are those of the catalog. -/
theorem find?_of_mem_implemented {packages : List Package} {path name : String} {s : Struct}
    (hs : (Catalog.ofPackages packages).classify.find? path name = some (.struct s))
    {r : InterfaceRef} (hr : r ∈ s.implemented) :
    ∃ i : Interface, i.reference = r ∧
      (Catalog.ofPackages packages).classify.find? i.package.path i.name =
        some (.interface i) := by
  have horderly : (Catalog.ofPackages packages).classify.Orderly :=
    Catalog.BuiltFrom.classified.orderly
  rw [Catalog.classify_eq_listing (Catalog.reachable_ofPackages packages).filed,
    Catalog.find?_listing, Option.map_eq_some_iff] at hs
  obtain ⟨e, -, heq⟩ := hs
  cases e with
  | struct unlisted =>
    obtain rfl := Entity.struct.inj heq
    obtain ⟨i, hi, -, href⟩ := Catalog.mem_matching_iff.1 hr
    exact ⟨i, href, (horderly.mem_all_iff horderly.interfaces).1 hi⟩
  | _ => cases heq

/-! ### Ends that are drawn -/

/-- The entity is drawn in the namespace of its package. -/
def Stands (o : RenderingOptions) (elements : List Element) (e : Entity) : Prop :=
  ∃ children block, .namespaceBlock e.package.name children ∈ elements ∧ block ∈ children ∧
    Draws o e block

theorem packageElement_mem_classElements (o : RenderingOptions) {c : Catalog} {p : PackageId}
    (hp : p ∈ c.sortedPackages) : packageElement o c p ∈ classElements o c := by
  have hmem : packageElement o c p ∈ blocks (classElements o c) := by
    rw [blocks_classElements]
    exact List.mem_append_left _ (List.mem_append_left _ (List.mem_map_of_mem hp))
  exact List.mem_of_mem_filter hmem

theorem aliasElement_mem_classElements (o : RenderingOptions) {c : Catalog} {a : TypeAlias}
    (ha : a ∈ sortedAliases c) : aliasElement a ∈ classElements o c := by
  have hmem : aliasElement a ∈ blocks (classElements o c) := by
    rw [blocks_classElements]
    exact List.mem_append_left _ (List.mem_append_right _ (List.mem_map_of_mem ha))
  exact List.mem_of_mem_filter hmem

theorem stands_of_find? (o : RenderingOptions) {c : Catalog} (h : c.Orderly) {path name : String}
    {e : Entity} (he : c.find? path name = some e) : Stands o (classElements o c) e := by
  have hown := h.find?_own he
  obtain ⟨-, -, howner⟩ := h.owner hown
  have hspace := packageElement_mem_classElements o (h.mem_sortedPackages_iff.2 howner)
  cases e with
  | struct s =>
    have hs : s ∈ c.structs.inPackage s.package.path := (h.mem_inPackage_iff h.structs).2 hown
    refine ⟨_, _, hspace, ?_, draws_structElement o s⟩
    exact List.mem_append_left _ (List.mem_append_left _ (List.mem_map_of_mem hs))
  | interface i =>
    have hi : i ∈ c.interfaces.inPackage i.package.path :=
      (h.mem_inPackage_iff h.interfaces).2 hown
    refine ⟨_, _, hspace, ?_, draws_interfaceElement o i⟩
    exact List.mem_append_left _ (List.mem_append_right _ (List.mem_map_of_mem hi))
  | defined d =>
    have hd : d ∈ c.definedTypes.inPackage d.package.path :=
      (h.mem_inPackage_iff h.definedTypes).2 hown
    refine ⟨_, _, hspace, ?_, draws_definedElement o d⟩
    exact List.mem_append_right _ (List.mem_map_of_mem hd)
  | typeAlias a =>
    have ha : a ∈ sortedAliases c :=
      (Text.sortOnRow_perm _ _).mem_iff.2 ((h.mem_all_iff h.typeAliases).2 hown)
    exact ⟨_, _, aliasElement_mem_classElements o ha, List.mem_singleton_self _, .typeAlias⟩

/-- Every relation of the class diagram of a list of packages is derived from an entity. The entity
is drawn, and the relation names it by its namespace and name. If the relation is an implementation,
the entity is a struct, and the other end is an interface that is drawn and named likewise. -/
theorem relations_anchored {packages : List Package} {c : Catalog}
    (hc : c = (Catalog.ofPackages packages).classify) {o : RenderingOptions} {r : Relation}
    (hr : r ∈ relationsIn (classElements o c)) :
    ∃ owner edge, c.find? owner.package.path owner.name = some owner ∧
      edge ∈ owner.edges (ofCatalog c) ∧ relationOf o.connectionLabels edge = r ∧
      r.ownEnd = owner.package.name ++ "." ++ owner.name ∧ Stands o (classElements o c) owner ∧
      (r.kind = .implementation →
        (∃ s, owner = .struct s) ∧
        ∃ i : Interface, c.find? i.package.path i.name = some (.interface i) ∧
          r.source = i.package.name ++ "." ++ i.name ∧
          Stands o (classElements o c) (.interface i)) := by
  subst hc
  have h : (Catalog.ofPackages packages).classify.Orderly := Catalog.BuiltFrom.classified.orderly
  obtain ⟨path, owner, edge, hfound, hedge, rfl⟩ := exists_entity_of_mem_relationsIn h hr
  refine ⟨owner, edge, h.find?_own hfound, hedge, rfl, ownEnd_relationOf hedge _,
    stands_of_find? o h hfound, ?_⟩
  intro hkind
  have hkind' : edge.kind = .implementation := by
    cases hk : edge.kind <;> simp_all [relationOf, relationKind]
  obtain ⟨s, rfl, ref, href, hsource⟩ := exists_implemented hedge hkind'
  obtain ⟨i, rfl, hi⟩ := find?_of_mem_implemented hfound href
  refine ⟨⟨s, rfl⟩, i, hi, ?_, stands_of_find? o h hi⟩
  show edge.source.text = _
  rw [hsource]
  rfl

/-- Two packages of one name, with an interface in one and a struct that implements it in the
other. -/
def depots : List Package :=
  [{ name := "depot", path := "example.com/b/depot", imports := [],
     declarations := [⟨"Crate", false, .struct []⟩],
     methods := [⟨"Crate", true, "Close", ⟨[], []⟩⟩] },
   { name := "depot", path := "example.com/a/depot", imports := [],
     declarations := [⟨"Closer", false, .interface [⟨"Close", ⟨[], []⟩⟩] []⟩],
     methods := [] }]

def crateCloses : Relation where
  kind := .implementation
  source := "depot.Closer"
  target := "depot.Crate"
  label := some "implements"

theorem relations_anchored_depots :
    crateCloses ∈ relationsIn
        (classElements { connectionLabels := true } (Catalog.ofPackages depots).classify) ∧
      ∃ i : Interface, crateCloses.source = i.package.name ++ "." ++ i.name ∧
        Stands { connectionLabels := true }
          (classElements { connectionLabels := true } (Catalog.ofPackages depots).classify)
          (.interface i) := by
  have h : (Catalog.ofPackages depots).classify.Orderly := Catalog.BuiltFrom.classified.orderly
  have hp : ⟨"depot", "example.com/b/depot"⟩ ∈
      (Catalog.ofPackages depots).classify.sortedPackages :=
    h.mem_sortedPackages_iff.2 (by decide +kernel)
  have hline : crateCloses ∈ packageRelations { connectionLabels := true }
      (Catalog.ofPackages depots).classify "example.com/b/depot" := by
    decide +kernel
  have hr : crateCloses ∈ relationsIn
      (classElements { connectionLabels := true } (Catalog.ofPackages depots).classify) := by
    rw [relationsIn_classElements _ h]
    exact List.mem_append_left _ (List.mem_flatMap.2 ⟨_, hp, hline⟩)
  obtain ⟨owner, edge, -, -, -, -, -, himplementation⟩ := relations_anchored rfl hr
  obtain ⟨-, i, -, hsource, hstands⟩ := himplementation rfl
  exact ⟨hr, i, hsource, hstands⟩

end Diagram

end GoUml
