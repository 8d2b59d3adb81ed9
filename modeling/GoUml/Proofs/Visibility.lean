import GoUml.Diagram.Class
import GoUml.Proofs.Sorting
import GoUml.Proofs.Splitting
import Mathlib.Data.List.Flatten

/-!
# Hiding takes lines away and does nothing else

The options that hide members or relations decide what goes into a class diagram before it is
sorted and before repeated relation lines are dropped, so it is not plain that the lines which stay
are the same and in the same order. They are: sorting is stable, and the relation lines of a package
are the strictly ascending list of a set of texts, which can only shrink. What is said here is about
the lines of the text as written, so it also holds of names that contain line breaks.
-/

namespace GoUml

open Text

/-- The same texts and labels as in `o'`, and nothing shown that `o'` hides. -/
structure RenderingOptions.Within (o o' : RenderingOptions) : Prop where
  title : o.title = o'.title
  theme : o.theme = o'.theme
  notes : o.notes = o'.notes
  labels : o.connectionLabels = o'.connectionLabels
  toggles : ∀ t : Toggle, t.get o = true → t.get o' = true

namespace Text

theorem endedLines_append {pieces rest : List (List Char)} (hrest : rest ≠ []) :
    endedLines (pieces ++ rest) = pieces.map dropReturn ++ endedLines rest := by
  induction pieces with
  | nil => rfl
  | cons piece pieces ih =>
    have hne : pieces ++ rest ≠ [] := List.append_ne_nil_of_right_ne_nil pieces hrest
    rw [List.cons_append, endedLines, ih, List.map_cons, List.cons_append]
    exact hne

end Text

namespace Diagram

/-- The lines that a line of an element becomes when it contains line breaks. -/
def brokenLine (line : String) : List String :=
  ((splitList '\n' line.toList).map dropReturn).map String.ofList

theorem splitList_textOfLines (ls : List String) :
    splitList '\n' (textOfLines ls).toList =
      (ls.flatMap fun line => splitList '\n' line.toList) ++ [[]] := by
  induction ls with
  | nil => rfl
  | cons line rest ih =>
    have htext : (textOfLines (line :: rest)).toList =
        line.toList ++ '\n' :: (textOfLines rest).toList := by
      simp [textOfLines, concat]
    rw [htext, splitList_append, ih, List.flatMap_cons, List.append_assoc]

theorem lines_textOfLines (ls : List String) : lines (textOfLines ls) = ls.flatMap brokenLine := by
  rw [lines, splitList_textOfLines, endedLines_append (by simp)]
  simp only [endedLines, List.isEmpty_nil, if_true, List.append_nil, List.map_flatMap]
  rfl

theorem elementLines_eq_flatMap (depth : Nat) (elements : List Element) :
    elementLines depth elements = elements.flatMap (Element.lines depth) := by
  induction elements with
  | nil => rfl
  | cons e rest ih => rw [elementLines, ih, List.flatMap_cons]

theorem elementLines_append (depth : Nat) (elements others : List Element) :
    elementLines depth (elements ++ others) =
      elementLines depth elements ++ elementLines depth others := by
  simp only [elementLines_eq_flatMap, List.flatMap_append]

theorem elementLines_sublist (depth : Nat) {few many : List Element} (h : few.Sublist many) :
    (elementLines depth few).Sublist (elementLines depth many) := by
  rw [elementLines_eq_flatMap, elementLines_eq_flatMap]
  exact h.flatMap _

/-- Elements made from the same items, each with fewer lines. -/
theorem elementLines_map_sublist {α : Type} (depth : Nat) (items : List α) {f g : α → Element}
    (h : ∀ a ∈ items, ((f a).lines depth).Sublist ((g a).lines depth)) :
    (elementLines depth (items.map f)).Sublist (elementLines depth (items.map g)) := by
  rw [elementLines_eq_flatMap, elementLines_eq_flatMap, List.flatMap_map, List.flatMap_map]
  exact List.Sublist.flatMap_right items h

theorem blockLines_sublist (depth : Nat) (header : String) {few many : List String}
    (h : few.Sublist many) :
    (blockLines depth header few).Sublist (blockLines depth header many) := by
  rw [blockLines, blockLines]
  exact (h.cons_cons _).append_right _

theorem elementLines_relations (relations : List Relation) :
    elementLines 0 (relations.map .relation) = relations.map fun r => lineAt 0 r.text := by
  induction relations with
  | nil => rfl
  | cons r rest ih => rw [List.map_cons, elementLines, ih, Element.lines]; rfl

theorem mem_map_text_dropRepeats {text : String} (relations : List Relation) :
    text ∈ (dropRepeats relations).map Relation.text ↔ text ∈ relations.map Relation.text := by
  fun_induction dropRepeats relations with
  | case1 => rfl
  | case2 r => rfl
  | case3 r s rest heq ih =>
    rw [ih]
    simp only [List.map_cons, List.mem_cons, heq]
    tauto
  | case4 r s rest hne ih =>
    rw [List.map_cons, List.mem_cons, ih, List.map_cons, List.mem_cons]
    simp only [List.map_cons, List.mem_cons]

theorem lt_of_notAfter_of_ne {a b : String} (h : notAfter a b = true) (hne : a ≠ b) : a < b := by
  have hnot : ¬ b < a := by simpa [notAfter] using h
  exact Table.lt_of_not_lt_of_ne hnot (Ne.symm hne)

theorem pairwise_map_text_dropRepeats (relations : List Relation)
    (h : relations.Pairwise fun r s => notAfter r.text s.text = true) :
    ((dropRepeats relations).map Relation.text).Pairwise (· < ·) := by
  fun_induction dropRepeats relations with
  | case1 => exact .nil
  | case2 r => exact List.pairwise_singleton _ _
  | case3 r s rest heq ih =>
    apply ih
    exact h.sublist ((List.sublist_cons_self s rest).cons_cons r)
  | case4 r s rest hne ih =>
    obtain ⟨hr, hrest⟩ := List.pairwise_cons.1 h
    rw [List.map_cons, List.pairwise_cons]
    refine ⟨fun text htext => ?_, ih hrest⟩
    rw [mem_map_text_dropRepeats, List.mem_map] at htext
    obtain ⟨q, hq, rfl⟩ := htext
    have hrs : r.text < s.text := lt_of_notAfter_of_ne (hr s List.mem_cons_self) hne
    by_cases hsq : s.text = q.text
    · rwa [← hsq]
    · rcases List.mem_cons.1 hq with rfl | hq
      · exact absurd rfl hsq
      · have hle := (List.pairwise_cons.1 hrest).1 q hq
        exact String.lt_trans hrs (lt_of_notAfter_of_ne hle hsq)

theorem mem_map_text_sortedRelations {labels : Bool} {edges : List Edge} {text : String} :
    text ∈ (sortedRelations labels edges).map Relation.text ↔
      ∃ e ∈ edges, (relationOf labels e).text = text := by
  rw [sortedRelations, mem_map_text_dropRepeats, ((sortOn_perm _ _).map _).mem_iff, List.map_map,
    List.mem_map]
  rfl

theorem pairwise_map_text_sortedRelations (labels : Bool) (edges : List Edge) :
    ((sortedRelations labels edges).map Relation.text).Pairwise (· < ·) :=
  pairwise_map_text_dropRepeats _ (pairwise_sortOn Relation.text _)

/-- Fewer edges give fewer lines, whatever is dropped as repeated. -/
theorem map_text_sortedRelations_sublist (labels : Bool) {few many : List Edge}
    (h : few ⊆ many) :
    ((sortedRelations labels few).map Relation.text).Sublist
      ((sortedRelations labels many).map Relation.text) := by
  have hfew := pairwise_map_text_sortedRelations labels few
  have hmany := pairwise_map_text_sortedRelations labels many
  have hnodup : ((sortedRelations labels few).map Relation.text).Nodup := by
    apply hfew.imp
    rintro a b hlt rfl
    exact String.lt_irrefl a hlt
  have hsubset : (sortedRelations labels few).map Relation.text ⊆
      (sortedRelations labels many).map Relation.text := by
    intro text htext
    obtain ⟨e, he, heq⟩ := mem_map_text_sortedRelations.1 htext
    exact mem_map_text_sortedRelations.2 ⟨e, h he, heq⟩
  have hantisymm : Std.Antisymm fun a b : String => a < b :=
    ⟨fun a b hab hba => absurd hab (String.lt_asymm hba)⟩
  exact List.sublist_of_subperm_of_pairwise (List.subperm_of_subset hnodup hsubset) hfew hmany

/-! ### Parts of the class diagram -/

variable {o o' : RenderingOptions}

theorem header_eq (h : o.Within o') : header o = header o' := by
  rw [header, header, h.theme, h.title, h.notes]

theorem shownMembers_sublist {α : Type} (h : o.Within o') {shown shown' : Bool}
    (hshown : shown = true → shown' = true) (name : α → String) (members : List α) :
    (shownMembers o shown name members).Sublist (shownMembers o' shown' name members) := by
  cases hs : shown with
  | false => exact List.nil_sublist _
  | true =>
    rw [shownMembers, shownMembers, if_pos rfl, if_pos (hshown hs)]
    apply sortOn_sublist
    apply List.monotone_filter_right
    intro m hm
    have hprivate := h.toggles .privateMembers
    simp only [Toggle.get] at hprivate
    cases hp : o.privateMembers with
    | true => rw [hprivate hp, Bool.true_or]
    | false =>
      rw [hp, Bool.false_or] at hm
      rw [hm, Bool.or_true]

theorem fieldElements_sublist (h : o.Within o') (fields : List Field) :
    (fieldElements o fields).Sublist (fieldElements o' fields) :=
  (shownMembers_sublist h (h.toggles .fields) Field.name fields).map _

theorem methodElements_sublist (h : o.Within o') (methods : List Function) :
    (methodElements o methods).Sublist (methodElements o' methods) :=
  (shownMembers_sublist h (h.toggles .methods) Function.name methods).map _

theorem structElement_sublist (h : o.Within o') (depth : Nat) (s : Struct) :
    ((structElement o s).lines depth).Sublist ((structElement o' s).lines depth) := by
  simp only [structElement, Element.lines]
  apply blockLines_sublist
  apply elementLines_sublist
  exact (fieldElements_sublist h s.fields).append (methodElements_sublist h s.methods)

theorem interfaceElement_sublist (h : o.Within o') (depth : Nat) (i : Interface) :
    ((interfaceElement o i).lines depth).Sublist ((interfaceElement o' i).lines depth) := by
  simp only [interfaceElement, Element.lines]
  apply blockLines_sublist
  exact elementLines_sublist _ (methodElements_sublist h i.methods)

theorem definedElement_sublist (h : o.Within o') (depth : Nat) (d : DefinedType) :
    ((definedElement o d).lines depth).Sublist ((definedElement o' d).lines depth) := by
  simp only [definedElement, Element.lines]
  apply blockLines_sublist
  exact elementLines_sublist _ (methodElements_sublist h d.methods)

theorem packageElement_sublist (h : o.Within o') (c : Catalog) (depth : Nat) (p : PackageId) :
    ((packageElement o c p).lines depth).Sublist ((packageElement o' c p).lines depth) := by
  simp only [packageElement, Element.lines, elementLines_append]
  apply blockLines_sublist
  refine List.Sublist.append (List.Sublist.append ?_ ?_) ?_
  · exact elementLines_map_sublist _ _ fun s _ => structElement_sublist h _ s
  · exact elementLines_map_sublist _ _ fun i _ => interfaceElement_sublist h _ i
  · exact elementLines_map_sublist _ _ fun d _ => definedElement_sublist h _ d

theorem packageAggregations_subset (h : o.Within o') (c : Catalog) (path : String) :
    packageAggregations o.aggregatePrivateMembers c path ⊆
      packageAggregations o'.aggregatePrivateMembers c path := by
  intro e he
  simp only [packageAggregations, List.mem_flatMap, List.mem_append] at he ⊢
  obtain ⟨s, hs, he | he⟩ := he
  · exact ⟨s, hs, .inl he⟩
  · refine ⟨s, hs, .inr ?_⟩
    cases hprivate : o.aggregatePrivateMembers with
    | false => simp [hprivate] at he
    | true =>
      have hprivate' : o'.aggregatePrivateMembers = true :=
        h.toggles .aggregatePrivateMembers hprivate
      simpa [hprivate, hprivate'] using he

theorem shownRelations_sublist (labels : Bool) {shown shown' : Bool}
    (hshown : shown = true → shown' = true) {few many : List Edge} (hedges : few ⊆ many) :
    (((if shown then sortedRelations labels few else []) : List Relation).map Relation.text).Sublist
      ((if shown' then sortedRelations labels many else []).map Relation.text) := by
  cases hs : shown with
  | false => exact List.nil_sublist _
  | true =>
    rw [if_pos rfl, if_pos (hshown hs)]
    exact map_text_sortedRelations_sublist labels hedges

theorem packageRelations_sublist (h : o.Within o') (c : Catalog) (path : String) :
    ((packageRelations o c path).map Relation.text).Sublist
      ((packageRelations o' c path).map Relation.text) := by
  simp only [packageRelations, List.map_append, h.labels]
  refine List.Sublist.append (List.Sublist.append ?_ ?_) ?_
  · exact shownRelations_sublist _ (h.toggles .compositions) (List.Subset.refl _)
  · exact shownRelations_sublist _ (h.toggles .implementations) (List.Subset.refl _)
  · exact shownRelations_sublist _ (h.toggles .aggregations) (packageAggregations_subset h c path)

/-- One package with its relation lines. -/
theorem packageLines_sublist (h : o.Within o') (c : Catalog) (p : PackageId) :
    (elementLines 0 (packageElement o c p :: (packageRelations o c p.path).map .relation)).Sublist
      (elementLines 0
        (packageElement o' c p :: (packageRelations o' c p.path).map .relation)) := by
  rw [elementLines, elementLines, elementLines_relations, elementLines_relations]
  refine (packageElement_sublist h c 0 p).append ?_
  have hlines := (packageRelations_sublist h c p.path).map (lineAt 0)
  rwa [List.map_map, List.map_map] at hlines

theorem aliasPart_sublist (h : o.Within o') (c : Catalog) (ids : Identifiers) :
    (if o.aliases then
      (aliasRelations o c ids).map .relation ++ ids.entries.all.map leafElement
    else [] : List Element).Sublist
      (if o'.aliases then
        (aliasRelations o' c ids).map .relation ++ ids.entries.all.map leafElement
      else []) := by
  cases ha : o.aliases with
  | false => exact List.nil_sublist _
  | true =>
    have ha' : o'.aliases = true := h.toggles .aliases ha
    rw [if_pos rfl, if_pos ha', aliasRelations, aliasRelations, h.labels]

theorem documentLines_classElements_sublist (h : o.Within o') (c : Catalog) :
    (documentLines (classElements o c)).Sublist (documentLines (classElements o' c)) := by
  rw [documentLines, documentLines]
  refine List.Sublist.append (List.Sublist.cons_cons _ ?_) (.refl _)
  simp only [classElements, elementLines_append, header_eq h]
  refine List.Sublist.append (List.Sublist.append (List.Sublist.append (.refl _) ?_) (.refl _)) ?_
  · simp only [elementLines_eq_flatMap, List.flatMap_assoc]
    apply List.Sublist.flatMap_right
    intro p _
    have hlines := packageLines_sublist h c p
    rwa [elementLines_eq_flatMap, elementLines_eq_flatMap] at hlines
  · exact elementLines_sublist 0 (aliasPart_sublist h c _)

/-- Of two class diagrams of one catalog with the same title, theme, notes and labels, the one whose
options show less is the other one with some of its lines left out. -/
theorem lines_renderClasses_sublist (h : o.Within o') (c : Catalog) :
    (lines (renderClasses o c)).Sublist (lines (renderClasses o' c)) := by
  rw [renderClasses, renderClasses, render, render, lines_textOfLines, lines_textOfLines]
  exact (documentLines_classElements_sublist h c).flatMap _

/-- A struct with an exported and a private field of one type, and a private field of another. -/
def garage : Package where
  name := "garage"
  path := "example.com/garage"
  imports := []
  declarations :=
    [⟨"Car", false, .struct [⟨"Front", typed "Wheel", false⟩, ⟨"spare", typed "Wheel", false⟩,
      ⟨"motor", typed "Motor", false⟩]⟩,
     ⟨"Motor", false, .struct []⟩, ⟨"Wheel", false, .struct []⟩]
  methods := []
where
  typed (name : String) : GoType := .named name (some ⟨"garage", "example.com/garage"⟩)

def publicView : RenderingOptions := { privateMembers := false }

def fullView : RenderingOptions := { aggregatePrivateMembers := true }

theorem lines_renderClasses_sublist_garage :
    publicView.Within fullView ∧
      packageAggregations publicView.aggregatePrivateMembers (Catalog.ofPackages [garage])
          garage.path ≠
        packageAggregations fullView.aggregatePrivateMembers (Catalog.ofPackages [garage])
          garage.path ∧
      (lines (renderClasses publicView (Catalog.ofPackages [garage]))).Sublist
        (lines (renderClasses fullView (Catalog.ofPackages [garage]))) := by
  have hwithin : publicView.Within fullView :=
    ⟨rfl, rfl, rfl, rfl, fun t => by cases t <;> decide⟩
  exact ⟨hwithin, by decide +kernel, lines_renderClasses_sublist hwithin _⟩

end Diagram

end GoUml
