import GoUml.Proofs.Aggregation
import GoUml.Proofs.Anchoring
import GoUml.Proofs.Unquoted
import GoUml.Proofs.Visibility

/-!
# Labels only annotate

A label stands behind a relation line, but the lines of a package are sorted and repeated ones are
dropped by their text with the label. That could move or unmask a line if one line were the start of
another. It is not when no name contains a double quote: every line then holds four of them and ends
with the fourth, so no line is a proper start of another, and what is put behind all of them decides
nothing.
-/

namespace GoUml

structure Edge.Unquoted (e : Edge) : Prop where
  source : IsUnquoted e.source.text
  target : IsUnquoted e.target.text

namespace EdgeEnd

theorem isUnquoted_declared {package : PackageId} {name : String} (hpackage : IsUnquoted package.name)
    (hname : IsUnquoted name) : IsUnquoted (declared package name).text :=
  isUnquoted_append.2 ⟨isUnquoted_append.2 ⟨hpackage, by decide⟩, hname⟩

theorem isUnquoted_ofType {t : TypeName} (h : AllUnquoted t.names) : IsUnquoted (ofType t).text := by
  have hname : IsUnquoted t.goName := h _ (by simp [TypeName.names])
  have hpackage : IsUnquoted t.packageName := h _ (by simp [TypeName.names])
  rw [ofType]
  split
  · exact hname
  · exact isUnquoted_append.2 ⟨isUnquoted_append.2 ⟨hpackage, by decide⟩, hname⟩

end EdgeEnd

/-- The type that an embedded field brings in is named in the type of the field. -/
theorem Field.names_composed_subset (f : Field) : f.composed.names ⊆ f.names := by
  intro name hname
  rw [composed] at hname
  cases hterminals : f.type.terminals with
  | nil =>
    rw [hterminals] at hname
    exact List.mem_cons_of_mem _ (List.mem_append_left _ hname)
  | cons t rest =>
    rw [hterminals] at hname
    refine List.mem_cons_of_mem _ (List.mem_append_right _ ?_)
    exact List.mem_flatMap.2 ⟨t, by simp [hterminals], hname⟩

namespace Struct

variable {s : Struct}

theorem allUnquoted_field (h : AllUnquoted (Entity.struct s).names) {f : Field} (hf : f ∈ s.fields) :
    AllUnquoted f.names := by
  simp only [Entity.names, allUnquoted_cons, allUnquoted_append, allUnquoted_flatMap] at h
  exact h.2.2.1.1 f hf

theorem allUnquoted_implemented (h : AllUnquoted (Entity.struct s).names) {r : InterfaceRef}
    (hr : r ∈ s.implemented) : AllUnquoted r.names := by
  simp only [Entity.names, allUnquoted_cons, allUnquoted_append, allUnquoted_flatMap] at h
  exact h.2.2.2 r hr

theorem isUnquoted_edgeEnd (h : AllUnquoted (Entity.struct s).names) :
    IsUnquoted s.edgeEnd.text :=
  EdgeEnd.isUnquoted_declared (h _ List.mem_cons_self) (h _ (by simp [Entity.names]))

theorem unquoted_compositions (h : AllUnquoted (Entity.struct s).names) {e : Edge}
    (he : e ∈ s.compositions) : e.Unquoted := by
  obtain ⟨f, hf, rfl⟩ := List.mem_map.1 he
  have hfield : AllUnquoted f.names := allUnquoted_field h (List.mem_filter.1 hf).1
  exact ⟨isUnquoted_edgeEnd h, EdgeEnd.isUnquoted_ofType (hfield.of_subset f.names_composed_subset)⟩

theorem unquoted_implementations (h : AllUnquoted (Entity.struct s).names) {e : Edge}
    (he : e ∈ s.implementations) : e.Unquoted := by
  obtain ⟨r, hr, rfl⟩ := List.mem_map.1 he
  have hnames : AllUnquoted r.names := allUnquoted_implemented h hr
  simp only [InterfaceRef.names, allUnquoted_cons] at hnames
  exact ⟨EdgeEnd.isUnquoted_declared hnames.1 hnames.2.1, isUnquoted_edgeEnd h⟩

theorem unquoted_aggregationTo (h : AllUnquoted (Entity.struct s).names)
    {hidden : Bool} {t : TypeName} (ht : t ∈ s.usedTypes hidden) : (s.aggregationTo t).Unquoted := by
  obtain ⟨f, hf, ht⟩ := List.mem_flatMap.1 ht
  have hfield : AllUnquoted f.names := allUnquoted_field h (List.mem_filter.1 hf).1
  have hterminals := (allUnquoted_append.1 (allUnquoted_cons.1 hfield).2).2
  have hnames : AllUnquoted t.names :=
    allUnquoted_flatMap.1 hterminals t (List.mem_filter.1 ht).1
  exact ⟨EdgeEnd.isUnquoted_ofType hnames, isUnquoted_edgeEnd h⟩

end Struct

theorem Interface.unquoted_compositions {i : Interface}
    (h : AllUnquoted (Entity.interface i).names) {e : Edge} (he : e ∈ i.compositions) :
    e.Unquoted := by
  obtain ⟨t, ht, rfl⟩ := List.mem_map.1 he
  have hembedded : t ∈ i.embedded := (Text.sortOn_perm _ _).mem_iff.1 ht
  simp only [Entity.names, allUnquoted_cons, allUnquoted_append, allUnquoted_flatMap] at h
  obtain ⟨hpackage, hname, -, hembeds⟩ := h
  have htype : AllUnquoted t.toTypeName.names := (allUnquoted_append.1 (hembeds t hembedded)).1
  exact ⟨EdgeEnd.isUnquoted_declared hpackage hname, EdgeEnd.isUnquoted_ofType htype⟩

namespace Diagram

open Text

variable {c : Catalog} {path : String}

/-- Edges of one kind between ends without double quotes. -/
def Uniform (kind : EdgeKind) (edges : List Edge) : Prop := ∀ e ∈ edges, e.kind = kind ∧ e.Unquoted

theorem uniform_packageCompositions (h : c.Unquoted) :
    Uniform .composition (packageCompositions c path) := by
  intro e he
  rcases List.mem_append.1 he with he | he
  · obtain ⟨s, hs, he⟩ := List.mem_flatMap.1 he
    have hunquoted := Struct.unquoted_compositions (h.struct hs) he
    obtain ⟨f, -, rfl⟩ := List.mem_map.1 he
    exact ⟨rfl, hunquoted⟩
  · obtain ⟨i, hi, he⟩ := List.mem_flatMap.1 he
    have hunquoted := Interface.unquoted_compositions (h.interface hi) he
    obtain ⟨t, -, rfl⟩ := List.mem_map.1 he
    exact ⟨rfl, hunquoted⟩

theorem uniform_packageImplementations (h : c.Unquoted) :
    Uniform .implementation (packageImplementations c path) := by
  intro e he
  obtain ⟨s, hs, he⟩ := List.mem_flatMap.1 he
  have hunquoted := Struct.unquoted_implementations (h.struct hs) he
  obtain ⟨i, -, rfl⟩ := List.mem_map.1 he
  exact ⟨rfl, hunquoted⟩

theorem uniform_packageAggregations (h : c.Unquoted) (withPrivate : Bool) :
    Uniform .aggregation (packageAggregations withPrivate c path) := by
  intro e he
  obtain ⟨s, hs, he⟩ := List.mem_flatMap.1 he
  rcases List.mem_append.1 he with he | he
  · obtain ⟨t, ht, rfl⟩ := List.mem_map.1 he
    have hused := Struct.mem_of_mem_firstOfKeys ht
    exact ⟨rfl, Struct.unquoted_aggregationTo (h.struct hs) hused⟩
  · split at he
    · obtain ⟨t, ht, rfl⟩ := List.mem_map.1 he
      have hused := Struct.mem_of_mem_firstOfKeys ht
      exact ⟨rfl, Struct.unquoted_aggregationTo (h.struct hs) hused⟩
    · cases he

/-- A text that holds as many of the character with which the longer one ends is all of it. -/
theorem eq_of_isPrefix_of_count_eq {l l' : List Char} {c : Char} (h : l <+: l')
    (hcount : l.count c = l'.count c) (hlast : l'.getLast? = some c) : l = l' := by
  obtain ⟨rest, rfl⟩ := h
  rcases List.eq_nil_or_concat rest with hrest | ⟨front, last, hrest⟩
  · rw [hrest, List.append_nil]
  · rw [hrest, List.concat_eq_append, ← List.append_assoc, List.getLast?_concat] at hlast
    cases hlast
    simp [hrest] at hcount

theorem append_lt_append_iff {l l' : List Char} (h : l <+: l' → l = l') (h' : l' <+: l → l' = l)
    (rest : List Char) : l ++ rest < l' ++ rest ↔ l < l' := by
  induction l generalizing l' with
  | nil =>
    rw [← h List.nil_prefix]
    exact iff_of_false (List.lt_irrefl _) (List.lt_irrefl _)
  | cons a l ih =>
    cases l' with
    | nil => cases h' List.nil_prefix
    | cons b l' =>
      rw [List.cons_append, List.cons_append, List.cons_lt_cons_iff, List.cons_lt_cons_iff]
      by_cases hab : a = b
      · subst hab
        have hl : l <+: l' → l = l' := fun hbegins =>
          (List.cons.inj (h (List.cons_prefix_cons.2 ⟨rfl, hbegins⟩))).2
        have hl' : l' <+: l → l' = l := fun hbegins =>
          (List.cons.inj (h' (List.cons_prefix_cons.2 ⟨rfl, hbegins⟩))).2
        rw [ih hl hl']
      · simp [hab]

structure Relation.Unquoted (r : Relation) : Prop where
  source : IsUnquoted r.source
  target : IsUnquoted r.target

variable {r s : Relation}

theorem count_quote_arrow (h : r.Unquoted) : r.arrow.toList.count '"' = 4 := by
  have hsource : r.source.toList.count '"' = 0 := List.count_eq_zero.2 h.source
  have htarget : r.target.toList.count '"' = 0 := List.count_eq_zero.2 h.target
  have hconnector : r.kind.connector.toList.count '"' = 0 := by
    cases r.kind <;> decide
  simp [Relation.arrow, quoted, hsource, htarget, hconnector]

theorem getLast?_arrow (r : Relation) : r.arrow.toList.getLast? = some '"' := by
  have harrow : r.arrow.toList =
      (quoted r.source ++ " " ++ r.kind.connector ++ " " ++ "\"" ++ r.target).toList ++ ['"'] := by
    simp [Relation.arrow, quoted]
  rw [harrow, List.getLast?_concat]

/-- No relation line is a proper start of another. -/
theorem arrow_eq_of_isPrefix (hr : r.Unquoted) (hs : s.Unquoted)
    (h : r.arrow.toList <+: s.arrow.toList) : r.arrow.toList = s.arrow.toList :=
  eq_of_isPrefix_of_count_eq h ((count_quote_arrow hr).trans (count_quote_arrow hs).symm)
    (getLast?_arrow s)

theorem notAfter_arrow_append (hr : r.Unquoted) (hs : s.Unquoted) (rest : String) :
    notAfter (r.arrow ++ rest) (s.arrow ++ rest) = notAfter r.arrow s.arrow := by
  have hlt : s.arrow ++ rest < r.arrow ++ rest ↔ s.arrow < r.arrow := by
    rw [String.lt_iff, String.lt_iff, String.toList_append,
      String.toList_append]
    exact append_lt_append_iff (arrow_eq_of_isPrefix hs hr) (arrow_eq_of_isPrefix hr hs) _
  simp only [notAfter, hlt]

/-! ### Labelling -/

def RelationKind.role? : RelationKind → Option String
  | .composition => some EdgeKind.composition.label
  | .implementation => some EdgeKind.implementation.label
  | .aggregation => some EdgeKind.aggregation.label
  | .typeAlias => some EdgeKind.typeAlias.label
  | .imports => none

/-- What a label puts behind a relation line. -/
def RelationKind.tag (kind : RelationKind) : String :=
  (kind.role?.map (" : " ++ ·)).getD ""

theorem tag_relationKind (kind : EdgeKind) :
    (relationKind kind).tag = " : " ++ kind.label := by
  cases kind <;> rfl

def Relation.labelled (r : Relation) : Relation := { r with label := r.kind.role? }

theorem text_labelled (r : Relation) : r.labelled.text = r.arrow ++ r.kind.tag := by
  rw [Relation.text, RelationKind.tag, Relation.labelled]
  cases r.kind.role? with
  | none => exact String.append_empty.symm
  | some role => exact String.append_assoc ..

theorem relationOf_true (e : Edge) : relationOf true e = (relationOf false e).labelled := by
  rw [relationOf, relationOf, Relation.labelled]
  cases e.kind <;> rfl

theorem dropRepeats_map {f : Relation → Relation} {relations : List Relation}
    (h : ∀ r ∈ relations, ∀ s ∈ relations, (f r).text = (f s).text ↔ r.text = s.text) :
    dropRepeats (relations.map f) = (dropRepeats relations).map f := by
  fun_induction dropRepeats relations with
  | case1 => rw [List.map_nil, dropRepeats]
  | case2 r => rw [List.map_singleton, dropRepeats]
  | case3 r s rest heq ih =>
    have hsub : r :: rest ⊆ r :: s :: rest :=
      List.cons_subset_cons r (List.subset_cons_self s rest)
    rw [← ih fun a ha b hb => h a (hsub ha) b (hsub hb), List.map_cons, List.map_cons, dropRepeats,
      if_pos ((h r (by simp) s (by simp)).2 heq), List.map_cons]
  | case4 r s rest hne ih =>
    have htail := ih fun a ha b hb => h a (List.mem_cons_of_mem r ha) b (List.mem_cons_of_mem r hb)
    have hne' : (f r).text ≠ (f s).text := fun heq =>
      hne ((h r (by simp) s (by simp)).1 heq)
    rw [List.map_cons, List.map_cons, dropRepeats, if_neg hne', ← List.map_cons, htail,
      List.map_cons]

/-- Labels keep the lines of edges of one kind in their order, and equal lines equal. -/
theorem sortedRelations_true {kind : EdgeKind} {edges : List Edge} (h : Uniform kind edges) :
    sortedRelations true edges = (sortedRelations false edges).map Relation.labelled := by
  have hrelations : ∀ r ∈ edges.map (relationOf false),
      r.Unquoted ∧ r.text = r.arrow ∧ r.labelled.text = r.arrow ++ (relationKind kind).tag := by
    intro r hr
    obtain ⟨e, he, rfl⟩ := List.mem_map.1 hr
    obtain ⟨hkind, hunquoted⟩ := h e he
    refine ⟨⟨hunquoted.source, hunquoted.target⟩, rfl, ?_⟩
    rw [text_labelled, ← hkind]
    rfl
  have hedges : edges.map (relationOf true) = (edges.map (relationOf false)).map .labelled := by
    rw [List.map_map]
    exact List.map_congr_left fun e _ => relationOf_true e
  rw [sortedRelations, sortedRelations, hedges, sortOn, sortOn, ← List.map_mergeSort, dropRepeats_map]
  · intro r hr s hs
    obtain ⟨-, hr, hr'⟩ := hrelations r (List.mem_mergeSort.1 hr)
    obtain ⟨-, hs, hs'⟩ := hrelations s (List.mem_mergeSort.1 hs)
    rw [hr, hs, hr', hs', String.append_left_inj]
  · intro r hr s hs
    obtain ⟨hunquoted, hr, hr'⟩ := hrelations r hr
    obtain ⟨hunquoted', hs, hs'⟩ := hrelations s hs
    rw [hr, hs, hr', hs', notAfter_arrow_append hunquoted hunquoted']

section Labelling

variable {o : RenderingOptions}

theorem shownRelations_true {kind : EdgeKind} {edges : List Edge} (h : Uniform kind edges)
    (shown : Bool) :
    (if shown then sortedRelations true edges else [] : List Relation) =
      (if shown then sortedRelations false edges else []).map Relation.labelled := by
  cases shown with
  | false => rfl
  | true => exact sortedRelations_true h

theorem packageRelations_labelled (h : c.Unquoted) (ho : o.connectionLabels = false)
    (path : String) :
    packageRelations { o with connectionLabels := true } c path =
      (packageRelations o c path).map Relation.labelled := by
  simp only [packageRelations, ho, List.map_append]
  rw [shownRelations_true (uniform_packageCompositions h),
    shownRelations_true (uniform_packageImplementations h),
    shownRelations_true (uniform_packageAggregations h _)]

theorem aliasRelations_labelled (ho : o.connectionLabels = false) (c : Catalog)
    (ids : Identifiers) :
    aliasRelations { o with connectionLabels := true } c ids =
      (aliasRelations o c ids).map Relation.labelled := by
  rw [aliasRelations, aliasRelations, ho, List.map_map]
  exact List.map_congr_left fun e _ => relationOf_true e

def Element.labelled : Element → Element
  | .relation r => .relation r.labelled
  | e => e

theorem map_labelled_eq_self {elements : List Element} (h : relationsIn elements = []) :
    elements.map Element.labelled = elements := by
  rw [relationsIn_eq_flatMap, List.flatMap_eq_nil_iff] at h
  refine (List.map_congr_left fun e he => ?_).trans (List.map_id _)
  have hnone := h e he
  cases e with
  | relation r => cases hnone
  | _ => rfl

theorem map_labelled_relations (relations : List Relation) :
    (relations.map Element.relation).map Element.labelled =
      (relations.map Relation.labelled).map Element.relation := by
  rw [List.map_map, List.map_map]
  rfl

theorem relations_packageElement (o : RenderingOptions) (c : Catalog) (p : PackageId) :
    (packageElement o c p).relations = [] := by
  have hstructs := fun s => (draws_structElement o s).relations_eq_nil
  have hinterfaces := fun i => (draws_interfaceElement o i).relations_eq_nil
  have hdefined := fun d => (draws_definedElement o d).relations_eq_nil
  simp only [packageElement, Element.relations, relationsIn_append,
    relationsIn_map_eq_nil hstructs, relationsIn_map_eq_nil hinterfaces,
    relationsIn_map_eq_nil hdefined, List.append_nil]

theorem classElements_labelled (h : c.Unquoted) (ho : o.connectionLabels = false) :
    classElements { o with connectionLabels := true } c =
      (classElements o c).map Element.labelled := by
  have hpackages : c.sortedPackages.flatMap (fun p =>
      packageElement o c p ::
        (packageRelations { o with connectionLabels := true } c p.path).map .relation) =
      (c.sortedPackages.flatMap fun p =>
        packageElement o c p :: (packageRelations o c p.path).map .relation).map
          Element.labelled := by
    rw [List.map_flatMap]
    apply List.flatMap_congr
    intro p _
    rw [List.map_cons, map_labelled_relations, packageRelations_labelled h ho]
    rfl
  have hheader := map_labelled_eq_self (relationsIn_header o)
  have haliases := map_labelled_eq_self
    (relationsIn_map_eq_nil relations_aliasElement (sortedAliases c))
  have hleaves := map_labelled_eq_self
    (relationsIn_map_eq_nil relations_leafElement (Identifiers.ofCatalog c).entries.all)
  simp only [classElements, List.map_append, hheader, haliases]
  refine congrArg₂ (· ++ ·) (congrArg₂ (· ++ ·) (congrArg₂ (· ++ ·) rfl hpackages) rfl) ?_
  split
  · rw [List.map_append, map_labelled_relations, hleaves, aliasRelations_labelled ho]
  · rfl

/-! ### Lines -/

/-- The lines of an element, with its role behind a relation line. -/
def annotatedLines : Element → List String
  | .relation r => [r.text ++ r.kind.tag]
  | e => e.lines 0

/-- The element is a relation without a label, which gets the role of its kind behind its line, or
there are no relations in it, and its lines stay as they are. -/
inductive Annotated : Element → Prop
  | relation {r : Relation} {kind : EdgeKind} (hlabel : r.label = none)
      (hkind : r.kind = relationKind kind) (hplain : (Element.relation r).lines 0 = [r.text])
      (hlines : annotatedLines (.relation r) = [r.text ++ " : " ++ kind.label]) :
      Annotated (.relation r)
  | other {e : Element} (hrelations : e.relations = []) (hlines : annotatedLines e = e.lines 0) :
      Annotated e

theorem annotatedLines_of_relations_eq_nil {e : Element} (h : e.relations = []) :
    annotatedLines e = e.lines 0 := by
  cases e with
  | relation r => cases h
  | _ => rfl

theorem lines_relation (r : Relation) : (Element.relation r).lines 0 = [r.text] :=
  congrArg (fun line => [line]) String.empty_append

theorem annotated_relationOf (e : Edge) : Annotated (.relation (relationOf false e)) := by
  have hlines : annotatedLines (.relation (relationOf false e)) =
      [(relationOf false e).text ++ " : " ++ e.kind.label] := by
    rw [annotatedLines, relationOf, tag_relationKind, String.append_assoc]
  exact .relation rfl rfl (lines_relation _) hlines

theorem lines_labelled {e : Element} (h : Annotated e) : e.labelled.lines 0 = annotatedLines e := by
  cases h with
  | @relation r kind hlabel hkind hplain hlines =>
    have htext : r.text = r.arrow := by rw [Relation.text, hlabel]
    rw [Element.labelled, lines_relation, annotatedLines, text_labelled, htext]
  | other hrelations hlines =>
    rw [hlines]
    cases e with
    | relation r => cases hrelations
    | _ => rfl

theorem exists_edge_of_mem_packageRelations {r : Relation} (h : r ∈ packageRelations o c path) :
    ∃ e, relationOf o.connectionLabels e = r := by
  rw [packageRelations, List.mem_append, List.mem_append] at h
  rcases h with (h | h) | h
  all_goals
    obtain ⟨e, -, he⟩ := exists_edge_of_mem_shown h
    exact ⟨e, he⟩

/-- Relations stand at the top of a class diagram only. -/
theorem annotated_of_mem_classElements (ho : o.connectionLabels = false) {e : Element}
    (he : e ∈ classElements o c) : Annotated e := by
  have hother {e : Element} (h : e.relations = []) : Annotated e :=
    .other h (annotatedLines_of_relations_eq_nil h)
  rw [classElements, List.mem_append, List.mem_append, List.mem_append] at he
  rcases he with ((he | he) | he) | he
  · have hheader := relationsIn_header o
    rw [relationsIn_eq_flatMap, List.flatMap_eq_nil_iff] at hheader
    exact hother (hheader e he)
  · obtain ⟨p, -, he⟩ := List.mem_flatMap.1 he
    rcases List.mem_cons.1 he with rfl | he
    · exact hother (relations_packageElement o c p)
    · obtain ⟨r, hr, rfl⟩ := List.mem_map.1 he
      obtain ⟨edge, rfl⟩ := exists_edge_of_mem_packageRelations hr
      rw [ho]
      exact annotated_relationOf edge
  · obtain ⟨a, -, rfl⟩ := List.mem_map.1 he
    exact hother (relations_aliasElement a)
  · split at he
    · rcases List.mem_append.1 he with he | he
      · obtain ⟨r, hr, rfl⟩ := List.mem_map.1 he
        obtain ⟨edge, -, rfl⟩ := List.mem_map.1 hr
        rw [ho]
        exact annotated_relationOf edge
      · obtain ⟨entry, -, rfl⟩ := List.mem_map.1 he
        exact hother (relations_leafElement entry)
    · cases he

theorem renderClasses_eq_flatMap (o : RenderingOptions) (c : Catalog) :
    renderClasses o c =
      textOfLines ("@startuml" :: (classElements o c).flatMap (Element.lines 0) ++ ["@enduml"]) := by
  rw [renderClasses, render, documentLines, elementLines_eq_flatMap]

/-- When no name contains a double quote, the class diagram with labels is the one without them in
which each relation line, and no other, has the role of its kind behind it. -/
theorem labels_only_annotate (h : c.Unquoted) (ho : o.connectionLabels = false) :
    renderClasses o c =
        textOfLines ("@startuml" :: (classElements o c).flatMap (Element.lines 0) ++ ["@enduml"]) ∧
      renderClasses { o with connectionLabels := true } c =
        textOfLines ("@startuml" :: (classElements o c).flatMap annotatedLines ++ ["@enduml"]) ∧
      ∀ e ∈ classElements o c, Annotated e := by
  refine ⟨renderClasses_eq_flatMap o c, ?_, fun e he => annotated_of_mem_classElements ho he⟩
  have hlines : ((classElements o c).map Element.labelled).flatMap (Element.lines 0) =
      (classElements o c).flatMap annotatedLines := by
    rw [List.flatMap_map]
    exact List.flatMap_congr fun e he => lines_labelled (annotated_of_mem_classElements ho he)
  rw [renderClasses_eq_flatMap, classElements_labelled h ho, hlines]

/-- A struct that embeds another one and implements an interface. -/
def fountains : List Package :=
  [{ name := "garden", path := "example.com/garden", imports := [],
     declarations :=
       [⟨"Fountain", false, .struct
         [⟨"Basin", .pointer (.named "Basin" (some ⟨"garden", "example.com/garden"⟩)), true⟩]⟩,
        ⟨"Basin", false, .struct [⟨"Depth", .basic "int", false⟩]⟩,
        ⟨"Spring", false, .interface [⟨"Flow", ⟨[], [⟨"", .basic "int"⟩]⟩⟩] []⟩],
     methods := [⟨"Fountain", true, "Flow", ⟨[], [⟨"", .basic "int"⟩]⟩⟩] }]

def fountainSprings : Relation := ⟨.implementation, "garden.Spring", "garden.Fountain", none⟩

theorem labels_only_annotate_fountains :
    (Catalog.ofPackages fountains).classify.Unquoted ∧
      ({} : RenderingOptions).connectionLabels = false ∧
      renderClasses { connectionLabels := true } (Catalog.ofPackages fountains).classify =
        textOfLines ("@startuml" ::
          (classElements {} (Catalog.ofPackages fountains).classify).flatMap annotatedLines ++
            ["@enduml"]) ∧
      .relation fountainSprings ∈ classElements {} (Catalog.ofPackages fountains).classify ∧
      annotatedLines (.relation fountainSprings) =
        ["\"garden.Spring\" <|-- \"garden.Fountain\" : implements"] := by
  have hnames : ∀ p ∈ fountains, AllUnquoted p.names := by decide
  have hunquoted := Catalog.unquoted_classify_ofPackages hnames
  obtain ⟨-, hlabelled, -⟩ := @labels_only_annotate _ {} hunquoted rfl
  have horderly : (Catalog.ofPackages fountains).classify.Orderly :=
    Catalog.BuiltFrom.classified.orderly
  have hp : ⟨"garden", "example.com/garden"⟩ ∈
      (Catalog.ofPackages fountains).classify.sortedPackages :=
    horderly.mem_sortedPackages_iff.2 (by decide +kernel)
  have hline : fountainSprings ∈
      packageRelations {} (Catalog.ofPackages fountains).classify "example.com/garden" := by
    decide +kernel
  refine ⟨hunquoted, rfl, hlabelled, ?_, by decide⟩
  refine List.mem_append_left _ (List.mem_append_left _ (List.mem_append_right _ ?_))
  refine List.mem_flatMap.2 ⟨_, hp, List.mem_cons_of_mem _ ?_⟩
  exact List.mem_map.2 ⟨_, hline, rfl⟩

end Labelling

end Diagram

end GoUml
