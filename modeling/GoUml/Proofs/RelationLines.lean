import GoUml.Proofs.Visibility

/-!
# The relation lines of a package

Behind the namespace of a package stand the lines of its edges, kind after kind. The edges of all
its entities are put together before they are written, and different edges can have one text, as
those to types of one name in packages of one name have, so lines are compared and not edges: each
text is listed once, in its place in the ascending order, whatever edges it comes from.
-/

namespace GoUml.Diagram

/-- The texts of the edges in strictly ascending order, or nothing when their kind is hidden. -/
structure Lists (shown labels : Bool) (edges : Edge → Prop) (texts : List String) : Prop where
  ascending : texts.Pairwise (· < ·)
  mem_iff : ∀ text, text ∈ texts ↔
    shown = true ∧ ∃ e, edges e ∧ (relationOf labels e).text = text

/-- The edge embeds something in a struct or an interface of the package. -/
def IsComposition (c : Catalog) (path : String) (e : Edge) : Prop :=
  (∃ s ∈ c.structs.inPackage path, e ∈ s.compositions) ∨
    ∃ i ∈ c.interfaces.inPackage path, e ∈ i.compositions

/-- The edge goes from an interface to a struct of the package that implements it. -/
def IsImplementation (c : Catalog) (path : String) (e : Edge) : Prop :=
  ∃ s ∈ c.structs.inPackage path, e ∈ s.implementations

/-- The edge goes from a type to a struct of the package that uses it. Uses by private fields alone
count on request. -/
def IsAggregation (withPrivate : Bool) (c : Catalog) (path : String) (e : Edge) : Prop :=
  ∃ s ∈ c.structs.inPackage path,
    e ∈ s.aggregations ∨ withPrivate = true ∧ e ∈ s.privateAggregations

def packageLines (o : RenderingOptions) (c : Catalog) (p : PackageId) : List String :=
  (packageElement o c p).lines 0 ++ (packageRelations o c p.path).map Relation.text

def aliasElements (o : RenderingOptions) (c : Catalog) : List Element :=
  (sortedAliases c).map aliasElement ++
    if o.aliases then
      (aliasRelations o c (.ofCatalog c)).map .relation ++
        (Identifiers.ofCatalog c).entries.all.map leafElement
    else []

variable {o : RenderingOptions} {c : Catalog} {path : String}

/-! ### The relations of a package -/

theorem lists_shown {shown labels : Bool} {derived : Edge → Prop} {edges : List Edge}
    (h : ∀ e, e ∈ edges ↔ derived e) :
    Lists shown labels derived
      ((if shown then sortedRelations labels edges else [] : List Relation).map Relation.text) := by
  cases shown with
  | false => exact ⟨.nil, by simp⟩
  | true =>
    refine ⟨pairwise_map_text_sortedRelations labels edges, fun text => ?_⟩
    rw [if_pos rfl, mem_map_text_sortedRelations, eq_self, true_and]
    simp only [h]

theorem mem_packageCompositions_iff (e : Edge) :
    e ∈ packageCompositions c path ↔ IsComposition c path e := by
  simp only [packageCompositions, List.mem_append, List.mem_flatMap, IsComposition]

theorem mem_packageImplementations_iff (e : Edge) :
    e ∈ packageImplementations c path ↔ IsImplementation c path e := by
  simp only [packageImplementations, List.mem_flatMap, IsImplementation]

theorem mem_packageAggregations_iff {withPrivate : Bool} (e : Edge) :
    e ∈ packageAggregations withPrivate c path ↔ IsAggregation withPrivate c path e := by
  simp only [packageAggregations, List.mem_flatMap, List.mem_append, IsAggregation]
  cases withPrivate <;> simp

theorem exists_map_text_packageRelations (o : RenderingOptions) (c : Catalog) (path : String) :
    ∃ compositions implementations aggregations,
      (packageRelations o c path).map Relation.text =
        compositions ++ implementations ++ aggregations ∧
      Lists o.compositions o.connectionLabels (IsComposition c path) compositions ∧
      Lists o.implementations o.connectionLabels (IsImplementation c path) implementations ∧
      Lists o.aggregations o.connectionLabels (IsAggregation o.aggregatePrivateMembers c path)
        aggregations := by
  refine ⟨_, _, _, ?_, lists_shown mem_packageCompositions_iff,
    lists_shown mem_packageImplementations_iff, lists_shown mem_packageAggregations_iff⟩
  simp only [packageRelations, List.map_append]

theorem lineAt_zero (text : String) : lineAt 0 text = text := String.empty_append

theorem elementLines_flatMap_packages (packages : List PackageId) :
    elementLines 0 (packages.flatMap fun p =>
        packageElement o c p :: (packageRelations o c p.path).map .relation) =
      packages.flatMap (packageLines o c) := by
  rw [elementLines_eq_flatMap, List.flatMap_assoc]
  apply List.flatMap_congr
  intro p _
  rw [← elementLines_eq_flatMap, elementLines, elementLines_relations, packageLines]
  simp only [lineAt_zero]

theorem documentLines_classElements (o : RenderingOptions) (c : Catalog) :
    documentLines (classElements o c) =
      "@startuml" :: elementLines 0 (header o) ++ c.sortedPackages.flatMap (packageLines o c) ++
        (elementLines 0 (aliasElements o c) ++ ["@enduml"]) := by
  rw [documentLines, classElements, aliasElements, List.append_assoc _ _ (ite _ _ _),
    elementLines_append, elementLines_append, elementLines_flatMap_packages]
  simp only [List.cons_append, List.append_assoc]

/-- Every relation behind the packages is an alias line. -/
theorem kind_of_mem_aliasElements {r : Relation} (h : .relation r ∈ aliasElements o c) :
    r.kind = .typeAlias := by
  rw [aliasElements, List.mem_append] at h
  rcases h with h | h
  · obtain ⟨a, -, ha⟩ := List.mem_map.1 h
    cases ha
  · split at h
    · rcases List.mem_append.1 h with h | h
      · obtain ⟨r', hr', hr⟩ := List.mem_map.1 h
        cases hr
        obtain ⟨e, he, rfl⟩ := List.mem_map.1 hr'
        obtain ⟨n, -, rfl⟩ := List.mem_map.1 he
        rfl
      · obtain ⟨e, -, he⟩ := List.mem_map.1 h
        cases he
    · cases h

/-- In the text of a class diagram, the namespace of a package is followed by the lines of its
compositions, implementations and aggregations, and then by the next package. Behind the last
package come aliases, whose relations are of a kind of their own. -/
theorem relationLines_of_package (o : RenderingOptions) {c : Catalog} {p : PackageId}
    {earlier later : List PackageId} (h : c.sortedPackages = earlier ++ p :: later) :
    ∃ compositions implementations aggregations,
      renderClasses o c = textOfLines
        (("@startuml" :: elementLines 0 (header o) ++ earlier.flatMap (packageLines o c)) ++
          (packageElement o c p).lines 0 ++
          (compositions ++ implementations ++ aggregations) ++
          (later.flatMap (packageLines o c) ++ elementLines 0 (aliasElements o c) ++
            ["@enduml"])) ∧
      Lists o.compositions o.connectionLabels (IsComposition c p.path) compositions ∧
      Lists o.implementations o.connectionLabels (IsImplementation c p.path) implementations ∧
      Lists o.aggregations o.connectionLabels (IsAggregation o.aggregatePrivateMembers c p.path)
        aggregations ∧
      ∀ r, .relation r ∈ aliasElements o c → r.kind = .typeAlias := by
  obtain ⟨compositions, implementations, aggregations, htexts, hlists⟩ :=
    exists_map_text_packageRelations o c p.path
  refine ⟨compositions, implementations, aggregations, ?_, hlists.1, hlists.2.1, hlists.2.2,
    fun r => kind_of_mem_aliasElements⟩
  rw [renderClasses, render, documentLines_classElements, h, List.flatMap_append,
    List.flatMap_cons, packageLines, htexts]
  simp only [List.cons_append, List.append_assoc]

/-- A struct with an exported and a private field over types of one name from two packages of one
name, and an interface beside it. -/
def yards : List Package :=
  [{ name := "yard", path := "example.com/yard", imports := [],
     declarations :=
       [⟨"Ship", false, .struct [⟨"Bow", crane "example.com/b/dock", false⟩,
         ⟨"stern", crane "example.com/a/dock", false⟩, ⟨"Hull", hull, true⟩]⟩,
        ⟨"Hull", false, .struct []⟩,
        ⟨"Floater", false, .interface [⟨"Float", ⟨[], []⟩⟩] [hull]⟩],
     methods := [⟨"Hull", true, "Float", ⟨[], []⟩⟩] },
   { name := "dock", path := "example.com/b/dock", imports := [], declarations := [],
     methods := [] }]
where
  crane (path : String) : GoType := .named "Crane" (some ⟨"dock", path⟩)
  hull : GoType := .named "Hull" (some ⟨"yard", "example.com/yard"⟩)

theorem relationLines_of_package_yard :
    (Catalog.ofPackages yards).sortedPackages =
        [⟨"dock", "example.com/b/dock"⟩] ++ ⟨"yard", "example.com/yard"⟩ :: [] ∧
      ∃ compositions implementations aggregations,
        renderClasses fullView (Catalog.ofPackages yards) = textOfLines
          (("@startuml" :: elementLines 0 (header fullView) ++
              packageLines fullView (Catalog.ofPackages yards) ⟨"dock", "example.com/b/dock"⟩) ++
            (packageElement fullView (Catalog.ofPackages yards)
              ⟨"yard", "example.com/yard"⟩).lines 0 ++
            (compositions ++ implementations ++ aggregations) ++
            (elementLines 0 (aliasElements fullView (Catalog.ofPackages yards)) ++ ["@enduml"])) ∧
        "\"yard.Ship\" *-- \"yard.Hull\"" ∈ compositions ∧
        "\"dock.Crane\" o-- \"yard.Ship\"" ∈ aggregations ∧
        aggregations.Pairwise (· < ·) := by
  have hvalues : (Catalog.ofPackages yards).packages.values =
      [⟨"dock", "example.com/b/dock"⟩, ⟨"yard", "example.com/yard"⟩] := by
    decide +kernel
  have hpackages : (Catalog.ofPackages yards).sortedPackages =
      [⟨"dock", "example.com/b/dock"⟩] ++ ⟨"yard", "example.com/yard"⟩ :: [] := by
    rw [Catalog.sortedPackages, hvalues]
    exact List.mergeSort_of_pairwise (by decide)
  have hcomposition : (⟨.composition, ⟨some "yard", "Ship"⟩, ⟨some "yard", "Hull"⟩⟩ : Edge) ∈
      packageCompositions (Catalog.ofPackages yards) "example.com/yard" := by
    decide +kernel
  have haggregation : (⟨.aggregation, ⟨some "dock", "Crane"⟩, ⟨some "yard", "Ship"⟩⟩ : Edge) ∈
      packageAggregations true (Catalog.ofPackages yards) "example.com/yard" := by
    decide +kernel
  obtain ⟨compositions, implementations, aggregations, htext, hcompositions, -, haggregations, -⟩ :=
    relationLines_of_package fullView hpackages
  rw [List.flatMap_singleton, List.flatMap_nil, List.nil_append] at htext
  refine ⟨hpackages, compositions, implementations, aggregations, htext, ?_, ?_,
    haggregations.ascending⟩
  · exact (hcompositions.mem_iff _).2
      ⟨rfl, _, (mem_packageCompositions_iff _).1 hcomposition, by decide⟩
  · exact (haggregations.mem_iff _).2
      ⟨rfl, _, (mem_packageAggregations_iff _).1 haggregation, by decide⟩

end GoUml.Diagram
