import GoUml.Proofs.Visibility

/-!
# Indentation

An element writes its lines at a depth, and some of them one level deeper: what stands in a
container, the lines of a legend, the icon size of a theme. Whatever the element, its lines at a
depth are its lines at the left margin moved to the right, so a whole tree can be moved without
looking at it again. For the lines of the text this takes texts without line breaks in the tree, as
what follows such a break starts at the margin at any depth.
-/

namespace GoUml

namespace Diagram

open Text

def ClassHead.texts (h : ClassHead) : List String :=
  h.name :: h.identifier.toList ++ (h.spot.map fun s => [s.letter.toString, s.color]).getD [] ++
    h.stereotype.toList

def MethodLine.texts (m : MethodLine) : List String :=
  m.name :: m.params.flatMap (fun p => [p.1, p.2]) ++ m.results

def Relation.texts (r : Relation) : List String := r.source :: r.target :: r.label.toList

mutual

def Element.texts : Element → List String
  | .namespaceBlock name children => name :: elementTexts children
  | .classBlock head children => head.texts ++ elementTexts children
  | .interfaceBlock name children => name :: elementTexts children
  | .title text => [text]
  | .theme name => [name]
  | .legend lines => lines
  | .comment text => [text]
  | .field name type => [name, type]
  | .method line => line.texts
  | .relation r => r.texts

def elementTexts : List Element → List String
  | [] => []
  | e :: rest => e.texts ++ elementTexts rest

end

def IsUnbroken (text : String) : Prop := '\n' ∉ text.toList

instance : DecidablePred IsUnbroken := fun text =>
  inferInstanceAs (Decidable ('\n' ∉ text.toList))

theorem lineAt_add (depth more : Nat) (text : String) :
    lineAt (depth + more) text = lineAt depth (lineAt more text) := by
  rw [lineAt, lineAt, lineAt, ← String.append_assoc, spaces, spaces, spaces, ← String.ofList_append,
    List.replicate_append_replicate, Nat.mul_add]

theorem blockLines_add (depth more : Nat) (header : String) (inner : List String) :
    blockLines (depth + more) header (inner.map (lineAt depth)) =
      (blockLines more header inner).map (lineAt depth) := by
  simp only [blockLines, lineAt_add, List.map_append, List.map_cons, List.map_nil, List.cons_append]

theorem themeLines_add (depth more : Nat) (name : String) :
    themeLines (depth + more) name = (themeLines more name).map (lineAt depth) := by
  rw [themeLines, themeLines, List.map_cons, ← lineAt_add]
  split
  · rw [← blockLines_add, List.map_singleton, ← lineAt_add, Nat.add_assoc]
  · rfl

mutual

theorem Element.lines_add (depth more : Nat) (e : Element) :
    e.lines (depth + more) = (e.lines more).map (lineAt depth) := by
  cases e with
  | namespaceBlock name children =>
    rw [Element.lines, Element.lines, Nat.add_assoc, elementLines_add, blockLines_add]
  | classBlock head children =>
    rw [Element.lines, Element.lines, Nat.add_assoc, elementLines_add, blockLines_add]
  | interfaceBlock name children =>
    rw [Element.lines, Element.lines, Nat.add_assoc, elementLines_add, blockLines_add]
  | theme name => rw [Element.lines, Element.lines, themeLines_add]
  | legend lines =>
    have hlines : lines.map (lineAt (depth + more + 1)) =
        (lines.map (lineAt (more + 1))).map (lineAt depth) := by
      rw [List.map_map]
      exact List.map_congr_left fun line _ => lineAt_add depth (more + 1) line
    simp only [Element.lines, hlines, lineAt_add depth more, List.map_append, List.map_cons,
      List.map_nil, List.cons_append]
  | _ => simp only [Element.lines, lineAt_add, List.map_cons, List.map_nil]

theorem elementLines_add (depth more : Nat) (elements : List Element) :
    elementLines (depth + more) elements = (elementLines more elements).map (lineAt depth) := by
  cases elements with
  | nil => rfl
  | cons e rest =>
    rw [elementLines, elementLines, e.lines_add, elementLines_add, List.map_append]

end

/-! ### Lines without breaks -/

theorem isUnbroken_append {a b : String} : IsUnbroken (a ++ b) ↔ IsUnbroken a ∧ IsUnbroken b := by
  simp [IsUnbroken]

theorem isUnbroken_lineAt {depth : Nat} {text : String} (h : IsUnbroken text) :
    IsUnbroken (lineAt depth text) := by
  refine isUnbroken_append.2 ⟨?_, h⟩
  simp [IsUnbroken, spaces, List.mem_replicate]

theorem isUnbroken_visibilityMark (name : String) : IsUnbroken (visibilityMark name) := by
  rw [visibilityMark]
  split <;> decide

theorem ClassHead.isUnbroken_text {h : ClassHead} (htexts : ∀ text ∈ h.texts, IsUnbroken text) :
    IsUnbroken h.text := by
  simp only [ClassHead.texts, List.cons_append, List.forall_mem_cons,
    List.forall_mem_append] at htexts
  obtain ⟨hname, ⟨hidentifier, hspot⟩, hstereotype⟩ := htexts
  have hmarks : ∀ mark ∈ h.marks, IsUnbroken mark := by
    rw [ClassHead.marks, List.forall_mem_append]
    refine ⟨?_, hstereotype⟩
    cases hs : h.spot with
    | none => nofun
    | some s =>
      rw [hs] at hspot
      simp only [Option.map_some, Option.getD_some, List.forall_mem_cons] at hspot
      obtain ⟨hletter, hcolor, -⟩ := hspot
      simp +decide only [Option.map_some, Option.toList_some, List.forall_mem_singleton,
        isUnbroken_append, hletter, hcolor]
  have hjoined : IsUnbroken (joinWith " " h.marks) := not_mem_joinWith (by decide) hmarks
  rw [ClassHead.text, quoted]
  split <;> split <;> simp_all +decide [isUnbroken_append]

theorem MethodLine.isUnbroken_text {m : MethodLine} (htexts : ∀ text ∈ m.texts, IsUnbroken text) :
    IsUnbroken m.text := by
  simp only [MethodLine.texts, List.cons_append, List.forall_mem_cons,
    List.forall_mem_append] at htexts
  obtain ⟨hname, hparams, hresults⟩ := htexts
  rw [MethodLine.text]
  refine isUnbroken_append.2 ⟨isUnbroken_append.2 ⟨isUnbroken_append.2 ⟨?front, ?params⟩,
    by decide⟩, ?results⟩
  case front => simp +decide only [isUnbroken_append, isUnbroken_visibilityMark, hname]
  case params =>
    refine not_mem_joinWith (by decide) fun piece hpiece => ?_
    obtain ⟨⟨name, type⟩, hparam, rfl⟩ := List.mem_map.1 hpiece
    have htype : IsUnbroken type := hparams _ (List.mem_flatMap.2 ⟨_, hparam, by simp⟩)
    have hparamName : IsUnbroken name := hparams _ (List.mem_flatMap.2 ⟨_, hparam, by simp⟩)
    show IsUnbroken (if name == "" then type else name ++ " " ++ type)
    split
    · exact htype
    · exact isUnbroken_append.2 ⟨isUnbroken_append.2 ⟨hparamName, by decide⟩, htype⟩
  case results =>
    have hlist : IsUnbroken (joinWith ", " m.results) := not_mem_joinWith (by decide) hresults
    split <;> simp_all +decide [isUnbroken_append]

theorem Relation.isUnbroken_text {r : Relation} (htexts : ∀ text ∈ r.texts, IsUnbroken text) :
    IsUnbroken r.text := by
  simp only [Relation.texts, List.forall_mem_cons] at htexts
  obtain ⟨hsource, htarget, hlabel⟩ := htexts
  have harrow : IsUnbroken r.arrow := by
    have hconnector : IsUnbroken r.kind.connector := by cases r.kind <;> decide
    simp +decide only [Relation.arrow, quoted, isUnbroken_append, hsource, htarget, hconnector]
  rw [Relation.text]
  cases h : r.label with
  | none => exact harrow
  | some label =>
    rw [h] at hlabel
    have hlabel : IsUnbroken label := hlabel label (by simp)
    simp +decide only [isUnbroken_append, harrow, hlabel]

theorem isUnbroken_of_mem_blockLines {depth : Nat} {header line : String} {inner : List String}
    (hheader : IsUnbroken header) (hinner : ∀ line ∈ inner, IsUnbroken line)
    (h : line ∈ blockLines depth header inner) : IsUnbroken line := by
  rw [blockLines, List.mem_append, List.mem_cons, List.mem_singleton] at h
  rcases h with (rfl | h) | rfl
  · exact isUnbroken_lineAt (isUnbroken_append.2 ⟨hheader, by decide⟩)
  · exact hinner line h
  · exact isUnbroken_lineAt (by decide)

mutual

theorem Element.isUnbroken_of_mem_lines {depth : Nat} {line : String} (e : Element)
    (htexts : ∀ text ∈ e.texts, IsUnbroken text) (h : line ∈ e.lines depth) : IsUnbroken line := by
  cases e with
  | namespaceBlock name children =>
    obtain ⟨hname, hchildren⟩ := List.forall_mem_cons.1 htexts
    exact isUnbroken_of_mem_blockLines (isUnbroken_append.2 ⟨by decide, hname⟩)
      (fun _ => isUnbroken_of_mem_elementLines children hchildren) h
  | classBlock head children =>
    obtain ⟨hhead, hchildren⟩ := List.forall_mem_append.1 htexts
    exact isUnbroken_of_mem_blockLines (ClassHead.isUnbroken_text hhead)
      (fun _ => isUnbroken_of_mem_elementLines children hchildren) h
  | interfaceBlock name children =>
    obtain ⟨hname, hchildren⟩ := List.forall_mem_cons.1 htexts
    exact isUnbroken_of_mem_blockLines (isUnbroken_append.2 ⟨by decide, hname⟩)
      (fun _ => isUnbroken_of_mem_elementLines children hchildren) h
  | title text =>
    have htext : IsUnbroken text := htexts text List.mem_cons_self
    obtain rfl := List.mem_singleton.1 h
    exact isUnbroken_lineAt (isUnbroken_append.2 ⟨by decide, htext⟩)
  | theme name =>
    have hname : IsUnbroken name := htexts name List.mem_cons_self
    rw [Element.lines, themeLines, List.mem_cons] at h
    rcases h with rfl | h
    · exact isUnbroken_lineAt (isUnbroken_append.2 ⟨by decide, hname⟩)
    · -- The icon sizes, which only some themes have.
      split at h
      · refine isUnbroken_of_mem_blockLines (by decide) (fun line hline => ?_) h
        obtain rfl := List.mem_singleton.1 hline
        exact isUnbroken_lineAt (by decide)
      · cases h
  | legend lines =>
    rw [Element.lines, List.mem_append, List.mem_cons, List.mem_singleton] at h
    rcases h with (rfl | h) | rfl
    · exact isUnbroken_lineAt (by decide)
    · obtain ⟨text, htext, rfl⟩ := List.mem_map.1 h
      exact isUnbroken_lineAt (htexts text htext)
    · exact isUnbroken_lineAt (by decide)
  | comment text =>
    have htext : IsUnbroken text := htexts text List.mem_cons_self
    obtain rfl := List.mem_singleton.1 h
    exact isUnbroken_lineAt (isUnbroken_append.2 ⟨by decide, htext⟩)
  | field name type =>
    have hname : IsUnbroken name := htexts name List.mem_cons_self
    have htype : IsUnbroken type := htexts type (by simp [Element.texts])
    obtain rfl := List.mem_singleton.1 h
    refine isUnbroken_lineAt ?_
    simp +decide only [isUnbroken_append, isUnbroken_visibilityMark, hname, htype]
  | method m =>
    obtain rfl := List.mem_singleton.1 h
    exact isUnbroken_lineAt (MethodLine.isUnbroken_text htexts)
  | relation r =>
    obtain rfl := List.mem_singleton.1 h
    exact isUnbroken_lineAt (Relation.isUnbroken_text htexts)

theorem isUnbroken_of_mem_elementLines {depth : Nat} {line : String} (elements : List Element)
    (htexts : ∀ text ∈ elementTexts elements, IsUnbroken text)
    (h : line ∈ elementLines depth elements) : IsUnbroken line := by
  cases elements with
  | nil => cases h
  | cons e rest =>
    obtain ⟨he, hrest⟩ := List.forall_mem_append.1 htexts
    rcases List.mem_append.1 h with h | h
    · exact e.isUnbroken_of_mem_lines he h
    · exact isUnbroken_of_mem_elementLines rest hrest h

end

/-- The text that an element writes at a depth. -/
def Element.text (depth : Nat) (e : Element) : String := textOfLines (e.lines depth)

/-- The lines of a text whose last line is ended like all others. -/
def writtenLines (text : String) : List String := (split '\n' text).dropLast

theorem writtenLines_textOfLines {lines : List String} (h : ∀ line ∈ lines, IsUnbroken line) :
    writtenLines (textOfLines lines) = lines := by
  have hpieces : (lines.flatMap fun line => splitList '\n' line.toList) =
      lines.map String.toList := by
    rw [← List.flatMap_pure_eq_map]
    exact List.flatMap_congr fun line hline => splitList_of_not_mem (h line hline)
  rw [writtenLines, split, splitList_textOfLines, hpieces, List.map_append, List.map_map,
    List.map_singleton, List.dropLast_concat]
  simp [Function.comp_def]

/-! ### Containers -/

/-- How many blanks a line starts with. -/
def leadingBlanks (line : String) : Nat := (line.toList.takeWhile (· = ' ')).length

theorem leadingBlanks_lineAt (depth : Nat) (text : String) :
    leadingBlanks (lineAt depth text) = 4 * depth + leadingBlanks text := by
  rw [leadingBlanks, lineAt, spaces, String.toList_append, String.toList_ofList,
    List.takeWhile_append_of_pos (by simp [List.mem_replicate]), List.length_append,
    List.length_replicate, leadingBlanks]

/-- The header and the children of a container. -/
def Element.block? : Element → Option (String × List Element)
  | .namespaceBlock name children => some ("namespace " ++ name, children)
  | .classBlock head children => some (head.text, children)
  | .interfaceBlock name children => some ("interface " ++ name, children)
  | _ => none

/-- The element `inner` stands in `outer`, so many containers deep. -/
inductive Nested : Nat → Element → Element → Prop
  | self (e : Element) : Nested 0 e e
  | inside {level : Nat} {inner child outer : Element} {header : String} {children : List Element}
      (houter : outer.block? = some (header, children)) (hchild : child ∈ children)
      (h : Nested level inner child) : Nested (level + 1) inner outer

/-- The lines of a container at a depth: the header and the closing brace at this depth, and between
them the lines of its children in their order, each of them deeper. -/
structure BlockAt (depth : Nat) (header : String) (children : List Element) (lines : List String) :
    Prop where
  lines_eq : lines = lineAt depth (header ++ " \x7b") ::
    children.flatMap (Element.lines (depth + 1)) ++ [lineAt depth "\x7d"]
  first : leadingBlanks (lineAt depth (header ++ " \x7b")) = 4 * depth
  last : leadingBlanks (lineAt depth "\x7d") = 4 * depth
  between : ∀ line ∈ children.flatMap (Element.lines (depth + 1)),
    4 * (depth + 1) ≤ leadingBlanks line

variable {e inner outer : Element} {header : String} {children : List Element} {level : Nat}

theorem lines_of_block? (h : e.block? = some (header, children)) (depth : Nat) :
    e.lines depth = blockLines depth header (elementLines (depth + 1) children) := by
  cases e with
  | namespaceBlock => cases h; rw [Element.lines]
  | classBlock => cases h; rw [Element.lines]
  | interfaceBlock => cases h; rw [Element.lines]
  | _ => cases h

theorem leadingBlanks_header (h : e.block? = some (header, children)) (rest : String) :
    leadingBlanks (header ++ rest) = 0 := by
  cases e with
  | namespaceBlock => cases h; simp [leadingBlanks]
  | classBlock => cases h; simp [leadingBlanks, ClassHead.text]
  | interfaceBlock => cases h; simp [leadingBlanks]
  | _ => cases h

theorem le_leadingBlanks {depth : Nat} {line : String} (h : line ∈ e.lines depth) :
    4 * depth ≤ leadingBlanks line := by
  rw [← Nat.add_zero depth, Element.lines_add] at h
  obtain ⟨text, -, rfl⟩ := List.mem_map.1 h
  rw [leadingBlanks_lineAt]
  exact Nat.le_add_right _ _

theorem blockAt_lines (h : e.block? = some (header, children)) (depth : Nat) :
    BlockAt depth header children (e.lines depth) where
  lines_eq := by rw [lines_of_block? h, blockLines, elementLines_eq_flatMap]
  first := by rw [leadingBlanks_lineAt, leadingBlanks_header h, Nat.add_zero]
  last := by rw [leadingBlanks_lineAt]; rfl
  between line hline := by
    obtain ⟨child, -, hchild⟩ := List.mem_flatMap.1 hline
    exact le_leadingBlanks hchild

theorem lines_infix_of_nested (h : Nested level inner outer) (depth : Nat) :
    inner.lines (depth + level) <:+: outer.lines depth := by
  -- From the outside in: each container on the way costs one level and gives one of depth.
  induction h generalizing depth with
  | self => exact List.infix_rfl
  | @inside level inner child outer header children houter hchild _ ih =>
    have hinner : inner.lines (depth + (level + 1)) <:+: child.lines (depth + 1) := by
      rw [Nat.add_comm level, ← Nat.add_assoc]
      exact ih (depth + 1)
    have hamong : child.lines (depth + 1) <:+: elementLines (depth + 1) children := by
      obtain ⟨before, after, rfl⟩ := List.append_of_mem hchild
      rw [elementLines_append, elementLines, ← List.append_assoc]
      exact List.infix_append _ _ _
    rw [lines_of_block? houter, blockLines]
    exact (hinner.trans hamong).trans (List.infix_append [_] _ _)

/-- What an element writes at a depth is what it writes at the margin, each line moved by four
blanks for each level. Every container in it, however deep, writes a header and a closing brace at
its own depth, and between them the lines of its children in their order, each of them deeper. When
no text in the element has a line break, these are the lines of the text. -/
theorem Element.lines_indented (e : Element) (depth : Nat) :
    e.lines depth = (e.lines 0).map (lineAt depth) ∧
      (∀ level inner header children, Nested level inner e →
        inner.block? = some (header, children) →
        inner.lines (depth + level) <:+: e.lines depth ∧
        BlockAt (depth + level) header children (inner.lines (depth + level))) ∧
      ((∀ text ∈ e.texts, IsUnbroken text) → ∀ d, writtenLines (e.text d) = e.lines d) := by
  refine ⟨e.lines_add depth 0, fun level inner header children hnested hblock => ?_,
    fun htexts d => ?_⟩
  · exact ⟨lines_infix_of_nested hnested depth, blockAt_lines hblock _⟩
  · exact writtenLines_textOfLines fun _ => e.isUnbroken_of_mem_lines htexts

def toolbox : Element :=
  .classBlock { name := "Box", spot := some structSpot, stereotype := some "sealed" }
    [.field "Items" "[]item.Item", .legend ["first", "second"]]

/-- The class in a namespace, behind a theme that is written at two depths. -/
def workshelf : Element := .namespaceBlock "shop" [.theme "reddress-darkblue", toolbox]

theorem lines_indented_workshelf :
    (∀ text ∈ workshelf.texts, IsUnbroken text) ∧ Nested 1 toolbox workshelf ∧
      writtenLines (workshelf.text 2) = (writtenLines (workshelf.text 0)).map (lineAt 2) ∧
      toolbox.lines 3 <:+: writtenLines (workshelf.text 2) ∧
      BlockAt 3 "class \"Box\" << (S,#7FFFD4) sealed >>"
        [.field "Items" "[]item.Item", .legend ["first", "second"]] (toolbox.lines 3) := by
  have htexts : ∀ text ∈ workshelf.texts, IsUnbroken text := by decide
  have hnested : Nested 1 toolbox workshelf :=
    .inside rfl (List.mem_cons_of_mem _ List.mem_cons_self) (.self toolbox)
  obtain ⟨hlines, hblocks, hwritten⟩ := workshelf.lines_indented 2
  obtain ⟨hpart, hblock⟩ := hblocks 1 toolbox _ _ hnested rfl
  rw [hwritten htexts, hwritten htexts]
  exact ⟨htexts, hnested, hlines, hpart, hblock⟩

end Diagram

end GoUml
