import GoUml.Diagram.Class
import GoUml.Diagram.Package
import GoUml.Proofs.Correspondence
import GoUml.Proofs.Implementation
import GoUml.Proofs.MethodSet
import GoUml.Proofs.Sorting

/-!
# Diagrams do not depend on the order of declarations

Packages, imports, declarations and methods can be written down in any order. As long as names are
not repeated, the order survives extraction in two places only: the methods of an entity and the
imports of a package. Catalogs that differ in nothing else are followed here through the search for
promoted methods, classification and rendering. The methods of an entity have different names, so
the first of a name is the only one and sorting by name gives one result; imports become a set.
-/

namespace GoUml

open Text

section Lists

variable {α κ : Type} [DecidableEq κ] {key : α → κ} {l l' : List α}

/-- When keys are not repeated, it does not matter in which order a key is searched for. -/
theorem find?_eq_of_perm (h : l.Perm l') (hkeys : (l.map key).Nodup) (k : κ) :
    l.find? (key · = k) = l'.find? (key · = k) := by
  induction h with
  | nil => rfl
  | cons a _ ih =>
    rw [List.find?_cons, List.find?_cons, ih (List.nodup_cons.1 hkeys).2]
  | swap a b l =>
    have hne : key b ≠ key a := by
      intro heq
      simp [heq] at hkeys
    by_cases ha : key a = k
    · have hb : key b ≠ k := fun hb => hne (hb.trans ha.symm)
      simp [ha, hb]
    · by_cases hb : key b = k
      · simp [ha, hb]
      · simp [ha, hb]
  | trans h₁ _ ih₁ ih₂ => exact (ih₁ hkeys).trans (ih₂ ((h₁.map key).nodup_iff.1 hkeys))

end Lists

theorem MethodSet.addAll_eq_of_perm {fs gs : List Function} (h : fs.Perm gs)
    (hnames : (fs.map Function.name).Nodup) (set : MethodSet) : set.addAll fs = set.addAll gs := by
  refine Table.ext_find? fun name => ?_
  rw [find?_addAll, find?_addAll, find?_eq_of_perm h hnames]

theorem TextSet.ofList_eq_of_perm {texts others : List String} (h : texts.Perm others) :
    TextSet.ofList texts = TextSet.ofList others := by
  refine Table.ext_find? fun text => ?_
  rw [TextSet.ofList, TextSet.ofList, TextSet.find?_foldl_insert, TextSet.find?_foldl_insert]
  simp only [h.mem_iff]

/-- The same package with imports, declarations and methods in another order. -/
structure Package.Reordered (p q : Package) : Prop where
  name : p.name = q.name
  path : p.path = q.path
  imports : p.imports.Perm q.imports
  declarations : p.declarations.Perm q.declarations
  methods : p.methods.Perm q.methods

/-- No name is declared twice, and no method is declared twice for one receiver. -/
structure Package.Distinct (p : Package) : Prop where
  declarations : (p.declarations.map Declaration.name).Nodup
  methods : (p.methods.map fun m => (m.receiver, m.name)).Nodup

structure Struct.Reordered (s t : Struct) : Prop where
  name : s.name = t.name
  package : s.package = t.package
  fields : s.fields = t.fields
  methods : s.methods.Perm t.methods
  implemented : s.implemented = t.implemented
  distinct : (s.methods.map Function.name).Nodup

structure DefinedType.Reordered (d e : DefinedType) : Prop where
  name : d.name = e.name
  package : d.package = e.package
  underlying : d.underlying = e.underlying
  methods : d.methods.Perm e.methods
  distinct : (d.methods.map Function.name).Nodup

/-- The same entity with its methods in another order; their names are different. -/
inductive Entity.Reordered : Entity → Entity → Prop
  | struct {s t : Struct} (h : s.Reordered t) : Reordered (.struct s) (.struct t)
  | interface (i : Interface) : Reordered (.interface i) (.interface i)
  | defined {d e : DefinedType} (h : d.Reordered e) : Reordered (.defined d) (.defined e)
  | typeAlias (a : TypeAlias) : Reordered (.typeAlias a) (.typeAlias a)

namespace Package

variable {p q : Package}

theorem Reordered.id_eq (h : p.Reordered q) : p.id = q.id := by rw [id, id, h.name, h.path]

theorem Reordered.lastDeclaration?_eq (h : p.Reordered q) (hp : p.Distinct) (name : String) :
    p.lastDeclaration? name = q.lastDeclaration? name := by
  have hnames : (p.declarations.reverse.map Declaration.name).Nodup := by
    rw [List.map_reverse, List.nodup_reverse]
    exact hp.declarations
  have hperm : p.declarations.reverse.Perm q.declarations.reverse :=
    (List.reverse_perm _).trans (h.declarations.trans (List.reverse_perm _).symm)
  exact find?_eq_of_perm hperm hnames name

theorem Reordered.methodsOf_perm (h : p.Reordered q) (name : String) :
    (p.methodsOf name).Perm (q.methodsOf name) := by
  rw [methodsOf, methodsOf, h.id_eq]
  exact (h.methods.filter _).map _

theorem Distinct.nodup_methodsOf (h : p.Distinct) (name : String) :
    ((p.methodsOf name).map Function.name).Nodup := by
  have hfilter : ((p.methods.filter (·.receiver = name)).map
      fun m => (m.receiver, m.name)).Nodup :=
    (List.filter_sublist.map _).nodup h.methods
  have hname : (p.methodsOf name).map Function.name =
      (p.methods.filter (·.receiver = name)).map MethodDecl.name := by
    rw [methodsOf, List.map_map]
    rfl
  rw [hname]
  rw [List.Nodup, List.pairwise_map] at hfilter ⊢
  refine hfilter.imp_of_mem fun {m m'} hm hm' hne heq => hne ?_
  have hreceiver : m.receiver = name := by simpa using (List.mem_filter.1 hm).2
  have hreceiver' : m'.receiver = name := by simpa using (List.mem_filter.1 hm').2
  rw [hreceiver, hreceiver', heq]

theorem Reordered.mentions (h : p.Reordered q) {name : String} (hname : q.Mentions name) :
    p.Mentions name := by
  rcases hname with ⟨d, hd, hname⟩ | ⟨m, hm, hreceiver⟩
  · exact .inl ⟨d, h.declarations.mem_iff.2 hd, hname⟩
  · exact .inr ⟨m, h.methods.mem_iff.2 hm, hreceiver⟩

theorem Reordered.declares (h : p.Reordered q) (hp : p.Distinct) {name : String} {e : Entity}
    (he : p.Declares name e) : ∃ e', q.Declares name e' ∧ e.Reordered e' := by
  have hid := h.id_eq
  have hlast := h.lastDeclaration?_eq hp name
  have hmethods := h.methodsOf_perm name
  have hdistinct := hp.nodup_methodsOf name
  cases he with
  | struct hd hshape =>
    rw [hlast] at hd
    refine ⟨_, .struct hd hshape, .struct ?_⟩
    exact ⟨rfl, hid, by rw [hid], hmethods, rfl, hdistinct⟩
  | interface hd hshape =>
    rw [hlast] at hd
    refine ⟨_, .interface hd hshape, ?_⟩
    rw [hid]
    exact .interface _
  | defined hd hstruct hinterface halias =>
    rw [hlast] at hd
    refine ⟨_, .defined hd hstruct hinterface halias, .defined ?_⟩
    exact ⟨rfl, hid, by rw [hid], hmethods, hdistinct⟩
  | typeAlias hd hstruct hinterface halias =>
    rw [hlast] at hd
    refine ⟨_, .typeAlias hd hstruct hinterface halias, ?_⟩
    rw [hid]
    exact .typeAlias _
  | receiver hnone hm hreceiver =>
    have hnone' : ∀ d ∈ q.declarations, d.name ≠ name :=
      fun d hd => hnone d (h.declarations.mem_iff.2 hd)
    refine ⟨_, .receiver hnone' (h.methods.mem_iff.1 hm) hreceiver, .struct ?_⟩
    exact ⟨rfl, hid, rfl, hmethods, rfl, hdistinct⟩

end Package

/-! ### Catalogs -/

namespace Catalog

/-- The same catalog with the methods of entities and the imports of packages in another order. -/
structure Reordered (c d : Catalog) : Prop where
  packages : c.packages = d.packages
  imports : ∀ path, (c.importsOf path).Perm (d.importsOf path)
  structs : c.structs.Related Struct.Reordered d.structs
  interfaces : c.interfaces = d.interfaces
  definedTypes : c.definedTypes.Related DefinedType.Reordered d.definedTypes
  typeAliases : c.typeAliases = d.typeAliases

theorem matched_reordered {packages middle others : List Package} (hperm : packages.Perm middle)
    (hinside : List.Forall₂ Package.Reordered middle others)
    (hpaths : (packages.map Package.path).Nodup) (hdistinct : ∀ p ∈ packages, p.Distinct) :
    Matched Entity.Reordered packages others := by
  intro path
  have hfirst : Package.first? packages path = Package.first? middle path :=
    find?_eq_of_perm hperm hpaths path
  have hrel : Option.Rel Package.Reordered (Package.first? middle path)
      (Package.first? others path) :=
    rel_find?_of_forall₂ hinside fun p q hpq => by rw [hpq.path]
  obtain ⟨hp, hq⟩ | ⟨p, q, hp, hq, hpq⟩ := rel_cases hrel
  · rw [hfirst, hp, hq]
    exact .none
  · have hp' : p.Distinct :=
      hdistinct p (List.mem_of_find?_eq_some (hfirst.trans hp))
    rw [hfirst, hp, hq]
    refine .some ⟨hpq.id_eq, hpq.imports.map _, fun name => ?_⟩
    exact Package.rel_find?_entities (fun e he => hpq.declares hp' he) hpq.mentions

theorem reordered_ofPackages {packages others : List Package}
    (h : Matched Entity.Reordered packages others) :
    (ofPackages packages).Reordered (ofPackages others) where
  packages := h.packages_eq
  imports := h.importsOf_perm
  structs := (h.related Shelf.structs fun _ _ hrel => by cases hrel <;> rfl).imp
    fun _ _ hrel => by cases hrel; assumption
  interfaces := ((h.related Shelf.interfaces fun _ _ hrel => by cases hrel <;> rfl).imp
    fun _ _ hrel => by cases hrel; rfl).eq
  definedTypes := (h.related Shelf.definedTypes fun _ _ hrel => by cases hrel <;> rfl).imp
    fun _ _ hrel => by cases hrel; assumption
  typeAliases := ((h.related Shelf.typeAliases fun _ _ hrel => by cases hrel <;> rfl).imp
    fun _ _ hrel => by cases hrel; rfl).eq

variable {c d : Catalog}

theorem Reordered.rel_find? (h : c.Reordered d) (path name : String) :
    Option.Rel Entity.Reordered (c.find? path name) (d.find? path name) := by
  rw [find?, find?, findInterface?, findInterface?, h.interfaces, h.typeAliases]
  refine rel_orElse ?_ (rel_orElse ?_ (rel_orElse ?_ ?_))
  · exact rel_map (h.structs.rel_get? path name) fun _ _ => .struct
  · cases d.interfaces.get? path name with
    | none => exact .none
    | some i => exact .some (.interface i)
  · exact rel_map (h.definedTypes.rel_get? path name) fun _ _ => .defined
  · cases d.typeAliases.get? path name with
    | none => exact .none
    | some a => exact .some (.typeAlias a)

theorem requireEmbeds_congr (h : c.interfaces = d.interfaces)
    (visit : Interface → Requirements → Bool × Requirements) (embeds : List TypeView)
    (found : Requirements) :
    c.requireEmbeds visit embeds found = d.requireEmbeds visit embeds found := by
  induction embeds generalizing found with
  | nil => rfl
  | cons e rest ih => simp only [requireEmbeds, ih, findInterface?, h]

theorem require_congr (h : c.interfaces = d.interfaces) (fuel : Nat) :
    c.require fuel = d.require fuel := by
  induction fuel with
  | zero => rfl
  | succ fuel ih =>
    funext i found
    rw [require, require, ih, requireEmbeds_congr h]

theorem requireFuel_congr (h : c.interfaces = d.interfaces) : c.requireFuel = d.requireFuel := by
  rw [requireFuel, requireFuel, h]

theorem demands_congr (h : c.interfaces = d.interfaces) : c.demands = d.demands := by
  simp only [demands, demanded?, requiredMethods?, require_congr h, requireFuel_congr h, h]

/-! ### Method sets

The two searches for promoted methods go through the same levels, with the methods of each item in
another order. -/

inductive Promoted.Reordered : Promoted → Promoted → Prop
  | struct {s t : Struct} (h : s.Reordered t) : Reordered (.struct s) (.struct t)
  | interface (i : Interface) : Reordered (.interface i) (.interface i)
  | methods {fs gs : List Function} (h : fs.Perm gs) (hnames : (fs.map Function.name).Nodup) :
      Reordered (.methods fs) (.methods gs)

structure Promotion.Reordered (p q : Promotion) : Prop where
  methods : p.methods = q.methods
  visited : p.visited = q.visited
  deeper : List.Forall₂ Promoted.Reordered p.deeper q.deeper

theorem Reordered.rel_promoted? (h : c.Reordered d) (path name : String) :
    Option.Rel Promoted.Reordered (c.promoted? path name) (d.promoted? path name) := by
  rw [promoted?, promoted?]
  obtain ⟨hc, hd⟩ | ⟨e, e', hc, hd, hrel⟩ := rel_cases (h.rel_find? path name)
  · rw [hc, hd]
    exact .none
  · rw [hc, hd]
    cases hrel with
    | struct hst => exact .some (.struct hst)
    | interface i => exact .some (.interface i)
    | defined hde => exact .some (.methods hde.methods hde.distinct)
    | typeAlias a => exact .none

theorem Reordered.promoteField (h : c.Reordered d) {p q : Promotion} (hpq : p.Reordered q)
    (f : Field) : (c.promoteField p f).Reordered (d.promoteField q f) := by
  rw [Catalog.promoteField, Catalog.promoteField]
  cases f.composed.package with
  | none =>
    dsimp only
    split
    · exact ⟨by rw [hpq.methods], hpq.visited, hpq.deeper⟩
    · exact hpq
  | some package =>
    refine ⟨hpq.methods, hpq.visited, List.rel_append hpq.deeper ?_⟩
    obtain ⟨hc, hd⟩ | ⟨a, b, hc, hd, hab⟩ :=
      rel_cases (h.rel_promoted? package.path f.composed.goName)
    · rw [hc, hd]
      exact .nil
    · rw [hc, hd]
      exact .cons hab .nil

theorem Reordered.foldl_promoteField (h : c.Reordered d) (fields : List Field) {p q : Promotion}
    (hpq : p.Reordered q) :
    (fields.foldl c.promoteField p).Reordered (fields.foldl d.promoteField q) := by
  induction fields generalizing p q with
  | nil => exact hpq
  | cons f rest ih => exact ih (h.promoteField hpq f)

theorem Reordered.promoteOne (h : c.Reordered d) {p q : Promotion} (hpq : p.Reordered q)
    {item item' : Promoted} (hitem : item.Reordered item') :
    (c.promoteOne p item).Reordered (d.promoteOne q item') := by
  cases hitem with
  | methods hperm hnames =>
    refine ⟨?_, hpq.visited, hpq.deeper⟩
    rw [Catalog.promoteOne, Catalog.promoteOne, hpq.methods]
    exact MethodSet.addAll_eq_of_perm hperm hnames q.methods
  | interface i =>
    refine ⟨?_, hpq.visited, hpq.deeper⟩
    rw [Catalog.promoteOne, Catalog.promoteOne, hpq.methods, require_congr h.interfaces,
      requireFuel_congr h.interfaces]
  | @struct s t hst =>
    have hkey : s.entityKey = t.entityKey := by
      rw [Struct.entityKey, Struct.entityKey, hst.package, hst.name]
    have hfields : s.embeddedFields = t.embeddedFields := by
      rw [Struct.embeddedFields, Struct.embeddedFields, hst.fields]
    rw [Catalog.promoteOne, Catalog.promoteOne, hpq.visited, hkey, hfields]
    split
    · exact hpq
    · apply h.foldl_promoteField
      refine ⟨?_, rfl, hpq.deeper⟩
      rw [hpq.methods]
      exact MethodSet.addAll_eq_of_perm hst.methods hst.distinct q.methods

theorem Reordered.foldl_promoteOne (h : c.Reordered d) {items items' : List Promoted}
    (hitems : List.Forall₂ Promoted.Reordered items items') {p q : Promotion}
    (hpq : p.Reordered q) :
    (items.foldl c.promoteOne p).Reordered (items'.foldl d.promoteOne q) := by
  induction hitems generalizing p q with
  | nil => exact hpq
  | cons hitem _ ih => exact ih (h.promoteOne hpq hitem)

theorem Reordered.promoteLevels_eq (h : c.Reordered d) (fuel : Nat) {p q : Promotion}
    (hpq : p.Reordered q) : c.promoteLevels fuel p = d.promoteLevels fuel q := by
  induction fuel generalizing p q with
  | zero => exact hpq.methods
  | succ fuel ih =>
    have hempty : p.deeper.isEmpty = q.deeper.isEmpty := by
      rw [Bool.eq_iff_iff, List.isEmpty_iff_length_eq_zero, List.isEmpty_iff_length_eq_zero,
        hpq.deeper.length_eq]
    rw [promoteLevels, promoteLevels, hempty]
    split
    · exact hpq.methods
    · exact ih (h.foldl_promoteOne hpq.deeper ⟨hpq.methods, hpq.visited, .nil⟩)

theorem Reordered.methodSet_eq (h : c.Reordered d) {s t : Struct} (hst : s.Reordered t) :
    c.methodSet s = d.methodSet t := by
  rw [methodSet, methodSet, h.structs.forall₂_all.length_eq]
  exact h.promoteLevels_eq _ ⟨rfl, rfl, .cons (.struct hst) .nil⟩

theorem Reordered.classify (h : c.Reordered d) (hc : c.Filed) (hd : d.Filed) :
    c.classify.Reordered d.classify := by
  rw [classify_eq_listing hc, classify_eq_listing hd]
  refine ⟨h.packages, h.imports, ?_, h.interfaces, h.definedTypes, h.typeAliases⟩
  refine h.structs.mapValues fun s t hst => ?_
  refine ⟨hst.name, hst.package, hst.fields, hst.methods, ?_, hst.distinct⟩
  rw [Struct.listing, Struct.listing, matching, matching, h.methodSet_eq hst,
    demands_congr h.interfaces]

end Catalog

/-! ### Class diagrams -/

namespace Diagram

variable {c d : Catalog} {o : RenderingOptions}

theorem methodElements_eq_of_perm {fs gs : List Function} (h : fs.Perm gs)
    (hnames : (fs.map Function.name).Nodup) : methodElements o fs = methodElements o gs := by
  rw [methodElements, methodElements, shownMembers, shownMembers]
  split
  · congr 1
    apply sortOn_eq_of_perm (h.filter _)
    exact (List.filter_sublist.map _).nodup hnames
  · rfl

theorem structElement_eq {s t : Struct} (h : s.Reordered t) :
    structElement o s = structElement o t := by
  rw [structElement, structElement, h.name, h.fields,
    methodElements_eq_of_perm h.methods h.distinct]

theorem definedElement_eq {e e' : DefinedType} (h : e.Reordered e') :
    definedElement o e = definedElement o e' := by
  rw [definedElement, definedElement, h.name, h.underlying,
    methodElements_eq_of_perm h.methods h.distinct]

theorem packageElement_eq (h : c.Reordered d) (p : PackageId) :
    packageElement o c p = packageElement o d p := by
  rw [packageElement, packageElement, h.interfaces,
    map_eq_of_forall₂ (h.structs.forall₂_inPackage p.path) fun _ _ => structElement_eq,
    map_eq_of_forall₂ (h.definedTypes.forall₂_inPackage p.path) fun _ _ => definedElement_eq]

theorem compositions_eq {s t : Struct} (h : s.Reordered t) : s.compositions = t.compositions := by
  simp only [Struct.compositions, Struct.embeddedFields, Struct.edgeEnd, h.fields, h.package, h.name]

theorem implementations_eq {s t : Struct} (h : s.Reordered t) :
    s.implementations = t.implementations := by
  simp only [Struct.implementations, Struct.edgeEnd, h.implemented, h.package, h.name]

theorem aggregations_eq {s t : Struct} (h : s.Reordered t) (withPrivate : Bool) :
    (s.aggregations ++ if withPrivate then s.privateAggregations else []) =
      t.aggregations ++ if withPrivate then t.privateAggregations else [] := by
  have hto : s.aggregationTo = t.aggregationTo := by
    funext u
    rw [Struct.aggregationTo, Struct.aggregationTo, Struct.edgeEnd, Struct.edgeEnd, h.package, h.name]
  simp only [Struct.aggregations, Struct.privateAggregations, Struct.usedTypes, h.fields, hto]

theorem packageRelations_eq (h : c.Reordered d) (path : String) :
    packageRelations o c path = packageRelations o d path := by
  have hstructs := h.structs.forall₂_inPackage path
  have hcompositions : packageCompositions c path = packageCompositions d path := by
    rw [packageCompositions, packageCompositions, h.interfaces,
      flatMap_eq_of_forall₂ hstructs fun _ _ => compositions_eq]
  have himplementations : packageImplementations c path = packageImplementations d path :=
    flatMap_eq_of_forall₂ hstructs fun _ _ => implementations_eq
  have haggregations (withPrivate : Bool) :
      packageAggregations withPrivate c path = packageAggregations withPrivate d path :=
    flatMap_eq_of_forall₂ hstructs fun _ _ hst => aggregations_eq hst withPrivate
  rw [packageRelations, packageRelations, hcompositions, himplementations, haggregations]

theorem ofCatalog_eq (h : c.Reordered d) : Identifiers.ofCatalog c = Identifiers.ofCatalog d := by
  have hdefined : c.definedTypes.all.map (fun e => (e.package, e.underlying)) =
      d.definedTypes.all.map fun e => (e.package, e.underlying) :=
    map_eq_of_forall₂ h.definedTypes.forall₂_all fun _ _ he => by rw [he.package, he.underlying]
  rw [Identifiers.ofCatalog, Identifiers.ofCatalog, Identifiers.underlyings,
    Identifiers.underlyings, hdefined, h.typeAliases]

theorem aliasEdges_eq (h : c.Reordered d) (ids : Identifiers) :
    c.aliasEdges ids = d.aliasEdges ids := by
  have hdefined : c.definedTypes.all.map (fun e => Naming.mk e.name e.package e.underlying) =
      d.definedTypes.all.map fun e => Naming.mk e.name e.package e.underlying :=
    map_eq_of_forall₂ h.definedTypes.forall₂_all fun _ _ he => by
      rw [he.name, he.package, he.underlying]
  rw [Catalog.aliasEdges, Catalog.aliasEdges, Catalog.namings, Catalog.namings, hdefined,
    h.typeAliases]

theorem renderClasses_eq (h : c.Reordered d) : renderClasses o c = renderClasses o d := by
  have hpackages : c.sortedPackages = d.sortedPackages := by
    rw [Catalog.sortedPackages, Catalog.sortedPackages, h.packages]
  simp only [renderClasses, classElements, hpackages, packageElement_eq h, packageRelations_eq h,
    sortedAliases, h.typeAliases, ofCatalog_eq h, aliasRelations, aliasEdges_eq h]

theorem importGraph_eq (h : c.Reordered d) : ImportGraph.ofCatalog c = ImportGraph.ofCatalog d := by
  have himported : ImportGraph.importedBy c = ImportGraph.importedBy d := by
    funext path
    rw [ImportGraph.importedBy, ImportGraph.importedBy]
    simp only [Catalog.package?, h.packages]
    exact TextSet.ofList_eq_of_perm (((h.imports path).map _).filter _)
  rw [ImportGraph.ofCatalog, ImportGraph.ofCatalog, h.packages, himported]

/-- Both diagrams are the same text for two lists of packages with different paths, when one comes
from the other by reordering the packages and, inside each package, the imports, the declarations
and the methods, and no name is declared twice and no method is declared twice for its receiver. -/
theorem diagrams_eq_of_reordered {packages middle others : List Package}
    (hpaths : (packages.map Package.path).Nodup) (hdistinct : ∀ p ∈ packages, p.Distinct)
    (hperm : packages.Perm middle) (hinside : List.Forall₂ Package.Reordered middle others)
    (o : RenderingOptions) :
    classDiagram o packages = classDiagram o others ∧
      packageDiagram o packages = packageDiagram o others := by
  have h := Catalog.reordered_ofPackages
    (Catalog.matched_reordered hperm hinside hpaths hdistinct)
  have hclassified := h.classify (Catalog.reachable_ofPackages packages).filed
    (Catalog.reachable_ofPackages others).filed
  constructor
  · rw [classDiagram, classDiagram, renderClasses_eq hclassified]
  · rw [packageDiagram, packageDiagram, importGraph_eq h]

/-- A package with a method that stands for a type that is declared nowhere. -/
def harbour : Package where
  name := "harbour"
  path := "example.com/harbour"
  imports := [⟨"example.com/fleet", "fleet", none⟩, ⟨"example.com/sea", "sea", some "s"⟩]
  declarations := [⟨"Pier", false, .struct [⟨"length", .basic "int", false⟩]⟩,
    ⟨"Docker", false, .interface [⟨"Dock", ⟨[], []⟩⟩] []⟩]
  methods := [⟨"Pier", true, "Open", ⟨[], []⟩⟩, ⟨"Pier", true, "Dock", ⟨[], []⟩⟩,
    ⟨"Tide", false, "Rise", ⟨[], []⟩⟩]

def fleet : Package where
  name := "fleet"
  path := "example.com/fleet"
  imports := []
  declarations := [⟨"Tons", false, .basic "int"⟩]
  methods := [⟨"Tons", false, "String", ⟨[], [⟨"", .basic "string"⟩]⟩⟩]

def harbourBackwards : Package :=
  { harbour with
    imports := harbour.imports.reverse
    declarations := harbour.declarations.reverse
    methods := harbour.methods.reverse }

theorem diagrams_eq_of_reordered_harbour :
    harbour ≠ harbourBackwards ∧ (∀ p ∈ [harbour, fleet], p.Distinct) ∧
      classDiagram {} [harbour, fleet] = classDiagram {} [fleet, harbourBackwards] ∧
      packageDiagram {} [harbour, fleet] = packageDiagram {} [fleet, harbourBackwards] := by
  have hdistinct : ∀ p ∈ [harbour, fleet], p.Distinct := by
    simp only [List.forall_mem_cons]
    exact ⟨⟨by decide, by decide⟩, ⟨by decide, by decide⟩, by simp⟩
  have hback : harbour.Reordered harbourBackwards :=
    ⟨rfl, rfl, (List.reverse_perm _).symm, (List.reverse_perm _).symm, (List.reverse_perm _).symm⟩
  have hfleet : fleet.Reordered fleet := ⟨rfl, rfl, .refl _, .refl _, .refl _⟩
  have hne : harbour ≠ harbourBackwards := by decide
  exact ⟨hne, hdistinct, diagrams_eq_of_reordered (by decide) hdistinct (.swap fleet harbour [])
    (.cons hfleet (.cons hback .nil)) _⟩

end Diagram

end GoUml
