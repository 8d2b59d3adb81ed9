import GoUml.Proofs.Files
import Mathlib.Data.List.Forall2
import Mathlib.Data.List.Infix
import Mathlib.Data.List.TakeWhile

/-!
# Going up from a path

The parent of a path is computed from its pieces, and pieces that add nothing are taken away before
and after the last one goes. On components this is simply to drop the last name. The paths above an
absolute one are therefore those of the beginnings of its names, the longest first.
-/

namespace GoUml

open Text

namespace Path

variable {p : Path} {name : RawText}

theorem steps_dropWhile_reverse (pieces : List RawText) :
    steps (pieces.reverse.dropWhile isIdle).reverse = steps pieces := by
  have hidle : ∀ pieces : List RawText,
      steps (pieces.dropWhile isIdle).reverse = steps pieces.reverse := by
    intro pieces
    induction pieces with
    | nil => rfl
    | cons piece rest ih =>
      by_cases hpiece : isIdle piece = true
      · rw [List.dropWhile_cons_of_pos hpiece, ih, List.reverse_cons, steps_append]
        simp [steps, hpiece]
      · rw [List.dropWhile_cons_of_neg hpiece]
  rw [hidle, List.reverse_reverse]

/-- What is taken away are idle pieces at the end, and the first piece with all the others or not at
all. -/
theorem trimIdle_cons (rooted : Bool) (first : RawText) (rest : List RawText) :
    (∃ kept, trimIdle rooted (first :: rest) = first :: kept ∧ kept ⊆ rest ∧
      steps kept = steps rest) ∨
    (trimIdle rooted (first :: rest) = [] ∧ steps rest = [] ∧ isIdle first = true ∧
      (rooted = false → first = [])) := by
  have hsteps := steps_dropWhile_reverse rest
  have hsubset : (rest.reverse.dropWhile isIdle).reverse ⊆ rest := fun piece hpiece =>
    List.mem_reverse.1 ((List.dropWhile_sublist _).subset (List.mem_reverse.1 hpiece))
  cases hkept : rest.reverse.dropWhile isIdle with
  | nil =>
    rw [hkept] at hsteps
    by_cases hfirst : (if rooted then isIdle first else first == []) = true
    · refine .inr ⟨by rw [trimIdle, hkept]; exact if_pos hfirst, hsteps.symm, ?_, ?_⟩
      · cases rooted with
        | true => exact hfirst
        | false => simp [isIdle, beq_iff_eq.1 hfirst]
      · rintro rfl
        exact beq_iff_eq.1 hfirst
    · exact .inl ⟨[], by rw [trimIdle, hkept]; exact if_neg hfirst, by simp, hsteps⟩
  | cons last kept =>
    rw [hkept] at hsteps hsubset
    exact .inl ⟨(last :: kept).reverse, by simp [trimIdle, hkept], hsubset, hsteps⟩

theorem trimIdle_subset (rooted : Bool) (pieces : List RawText) :
    trimIdle rooted pieces ⊆ pieces := by
  cases pieces with
  | nil => exact List.Subset.refl _
  | cons first rest =>
    obtain ⟨kept, hkept, hsubset, -⟩ | ⟨hnone, -⟩ := trimIdle_cons rooted first rest
    · rw [hkept]
      exact List.cons_subset_cons first hsubset
    · simp [hnone]

theorem head?_of_head?_trimIdle {rooted : Bool} {pieces : List RawText} {first : RawText}
    (h : (trimIdle rooted pieces).head? = some first) : pieces.head? = some first := by
  cases pieces with
  | nil => exact h
  | cons first' rest =>
    obtain ⟨kept, hkept, -⟩ | ⟨hnone, -⟩ := trimIdle_cons rooted first' rest
    · rwa [hkept] at h
    · rw [hnone] at h
      cases h

/-- The components of pieces, behind the root or at the front. -/
def named (rooted : Bool) (pieces : List RawText) : List Component :=
  if rooted then .root :: steps pieces else leading pieces

theorem named_cons_congr {rooted : Bool} {first : RawText} {rest kept : List RawText}
    (h : steps kept = steps rest) :
    named rooted (first :: kept) = named rooted (first :: rest) := by
  have hsteps : steps (first :: kept) = steps (first :: rest) := by
    rw [← List.singleton_append, steps_append, h, ← steps_append, List.singleton_append]
  cases rooted with
  | true => exact congrArg (Component.root :: ·) hsteps
  | false =>
    by_cases hfirst : first = [dot]
    · subst hfirst
      exact congrArg (Component.here :: ·) h
    · simpa [named, leading, hfirst] using hsteps

theorem named_trimIdle (rooted : Bool) (pieces : List RawText) :
    named rooted (trimIdle rooted pieces) = named rooted pieces := by
  cases pieces with
  | nil => rfl
  | cons first rest =>
    obtain ⟨kept, hkept, -, hsteps⟩ | ⟨hnone, hsteps, hidle, hfirst⟩ :=
      trimIdle_cons rooted first rest
    · rw [hkept, named_cons_congr hsteps]
    · have hempty : steps (first :: rest) = [] := by
        rw [← List.singleton_append, steps_append, hsteps]
        simp [steps, hidle]
      rw [hnone]
      cases rooted with
      | true => exact congrArg (Component.root :: ·) hempty.symm
      | false =>
        rw [hfirst rfl] at hempty ⊢
        exact hempty.symm

/-! ### One step up -/

/-- Pieces with slashes between them, behind a slash if rooted, make up a path again. -/
theorem ofPieces {rooted : Bool} {pieces : List RawText} (hpieces : ∀ piece ∈ pieces, slash ∉ piece)
    (hfirst : rooted = false → pieces.head? ≠ some []) {q : Path}
    (hq : q.raw = if rooted then slash :: [slash].intercalate pieces
      else [slash].intercalate pieces) :
    q.isRooted = rooted ∧ q.components = named rooted pieces := by
  have hsplit : splitList slash ([slash].intercalate pieces) =
      if pieces = [] then [[]] else pieces := by
    split
    · next hnil => rw [hnil]; rfl
    · next hne => exact splitList_intercalate hne hpieces
  have hnamed : named rooted (if pieces = [] then [[]] else pieces) = named rooted pieces := by
    split
    · next hnil => cases rooted <;> rw [hnil] <;> rfl
    · rfl
  cases rooted with
  | true =>
    have hraw : q.raw = slash :: [slash].intercalate pieces := hq
    have hrooted : q.isRooted = true := isRooted_iff.2 ⟨_, hraw⟩
    refine ⟨hrooted, ?_⟩
    rw [components_eq, pieces_eq, hrooted, hraw, splitList, if_pos rfl, hsplit, ← hnamed]
    rfl
  | false =>
    have hraw : q.raw = [slash].intercalate pieces := hq
    have hrooted : q.isRooted = false := by
      by_contra h
      rw [Bool.not_eq_false, isRooted_iff, hraw] at h
      obtain ⟨rest, hrest⟩ := h
      rw [hrest, splitList, if_pos rfl] at hsplit
      split at hsplit
      · exact splitList_ne_nil _ _ (List.cons.inj hsplit).2
      · exact hfirst rfl (by rw [← hsplit]; rfl)
    refine ⟨hrooted, ?_⟩
    rw [components_eq, pieces_eq, hrooted, hraw, hsplit, ← hnamed]
    rfl

theorem named_concat {last : RawText} (hlast : isIdle last = false) (rooted : Bool)
    (front : List RawText) :
    named rooted (front ++ [last]) = named rooted front ++ [componentOf last] := by
  have hsteps : steps [last] = [componentOf last] := by simp [steps, hlast]
  cases rooted with
  | true => simp [named, hsteps]
  | false =>
    cases front with
    | nil =>
      have hdot : last ≠ [dot] := by
        rintro rfl
        cases hlast
      rw [List.nil_append, ← hsteps]
      simp [named, leading, hdot, steps]
    | cons first rest =>
      rw [← hsteps]
      exact leading_append (List.cons_ne_nil first rest) [last]

theorem slash_not_mem_of_mem_pieces {piece : RawText} (h : piece ∈ p.pieces) :
    slash ∉ piece := by
  rw [pieces_eq, behindRoot] at h
  split at h
  · exact not_mem_of_mem_splitList (List.mem_of_mem_tail h)
  · exact not_mem_of_mem_splitList h

/-- Only a path in front of which stands a slash has an empty piece in front of others. -/
theorem pieces_ne_empty_cons (hrooted : p.isRooted = false) (second : RawText)
    (rest : List RawText) : p.pieces ≠ [] :: second :: rest := by
  intro hpieces
  rw [pieces_eq, hrooted] at hpieces
  replace hpieces : splitList slash p.raw = [] :: second :: rest := hpieces
  have hstart : p.isRooted = true := by
    rw [isRooted_iff]
    cases hraw : p.raw with
    | nil => simp [hraw, splitList] at hpieces
    | cons b bs =>
      rw [hraw, splitList] at hpieces
      split at hpieces
      · next hb => exact ⟨bs, by rw [hb]⟩
      · split at hpieces <;> simp at hpieces
  rw [hrooted] at hstart
  cases hstart

/-- What is left ends with a piece that counts, unless it is a dot in front. -/
theorem isIdle_of_trimIdle_eq_concat {rooted : Bool} {pieces front : List RawText} {last : RawText}
    (h : trimIdle rooted pieces = front ++ [last]) :
    isIdle last = false ∨ (rooted = false ∧ front = [] ∧ last = [dot]) := by
  cases pieces with
  | nil => simp [trimIdle] at h
  | cons first rest =>
    cases hkept : rest.reverse.dropWhile isIdle with
    | nil =>
      simp only [trimIdle, hkept] at h
      by_cases hfirst : (if rooted then isIdle first else first == []) = true
      · rw [if_pos hfirst] at h
        simp at h
      · have hsingle : [first] = front ++ [last] := (if_neg hfirst).symm.trans h
        obtain ⟨rfl, rfl⟩ : front = [] ∧ first = last := by
          cases front with
          | nil => exact ⟨rfl, List.head_eq_of_cons_eq hsingle⟩
          | cons _ others => simp at hsingle
        cases rooted with
        | true => exact .inl (by simpa using hfirst)
        | false =>
          by_cases hdot : first = [dot]
          · exact .inr ⟨rfl, rfl, hdot⟩
          · exact .inl (by simpa [isIdle, hdot] using hfirst)
    | cons piece kept =>
      have hpiece := List.head?_dropWhile_not isIdle rest.reverse
      rw [hkept] at hpiece
      have hconcat : (first :: kept.reverse) ++ [piece] = front ++ [last] := by
        simpa [trimIdle, hkept] using h
      have hlast : piece = last := by simpa using (List.append_inj' hconcat rfl).2
      exact .inl (hlast ▸ hpiece)

/-- What is left ends with the piece that the last component comes from, if that is a name. -/
theorem exists_trimIdle_eq_concat {rooted : Bool} {pieces : List RawText}
    (h : (named rooted pieces).getLast? = some (.name name)) :
    ∃ front last, trimIdle rooted pieces = front ++ [last] ∧ isIdle last = false ∧
      componentOf last = .name name := by
  rw [← named_trimIdle] at h
  rcases List.eq_nil_or_concat (trimIdle rooted pieces) with hnil | ⟨front, last, hconcat⟩
  · rw [hnil] at h
    cases rooted <;> cases h
  · rw [List.concat_eq_append] at hconcat
    have hlast : isIdle last = false := by
      rcases isIdle_of_trimIdle_eq_concat hconcat with hlast | ⟨rfl, rfl, rfl⟩
      · exact hlast
      · rw [hconcat] at h
        cases h
    rw [hconcat, named_concat hlast, List.getLast?_concat] at h
    exact ⟨front, last, hconcat, hlast, Option.some.inj h⟩

/-- A path with a file name ends with that name, behind the components of its directory. -/
theorem exists_parent (hname : p.fileName? = some name) :
    ∃ outer, p.parent? = some outer ∧ outer.isRooted = p.isRooted ∧
      p.components = outer.components ++ [.name name] := by
  have hcomponents : p.components = named p.isRooted p.pieces := components_eq p
  have hlastname : (named p.isRooted p.pieces).getLast? = some (.name name) := by
    rw [fileName?, hcomponents] at hname
    split at hname
    · next heq => rw [heq, Option.some.inj hname]
    · cases hname
  obtain ⟨front, last, htrim, hlast, hcomponent⟩ := exists_trimIdle_eq_concat hlastname
  obtain ⟨outer, hparent, hraw⟩ : ∃ outer, p.parent? = some outer ∧
      outer.raw = if p.isRooted then slash :: [slash].intercalate (trimIdle p.isRooted front)
        else [slash].intercalate (trimIdle p.isRooted front) := by
    refine ⟨_, ?_, rfl⟩
    rw [parent?, htrim]
    cases hconcat : front ++ [last] with
    | nil => exact absurd hconcat (by simp)
    | cons first rest =>
      dsimp only
      rw [← hconcat, List.dropLast_concat]
      rfl
  have hfront : front ++ [last] ⊆ p.pieces := htrim ▸ trimIdle_subset _ _
  have hslash : ∀ piece ∈ trimIdle p.isRooted front, slash ∉ piece := fun piece hpiece =>
    slash_not_mem_of_mem_pieces (hfront (List.mem_append_left _ (trimIdle_subset _ front hpiece)))
  have hhead : p.isRooted = false → (trimIdle p.isRooted front).head? ≠ some [] := by
    intro hrooted hempty
    obtain ⟨rest, rfl⟩ := List.head?_eq_some_iff.1 (head?_of_head?_trimIdle hempty)
    have hpieces : p.pieces.head? = some [] :=
      head?_of_head?_trimIdle ((congrArg List.head? htrim).trans rfl)
    obtain ⟨others, hpieces⟩ := List.head?_eq_some_iff.1 hpieces
    cases others with
    | nil =>
      rw [hpieces, hrooted] at htrim
      cases htrim
    | cons second others => exact pieces_ne_empty_cons hrooted second others hpieces
  obtain ⟨hrooted, houter⟩ := ofPieces hslash hhead hraw
  refine ⟨outer, hparent, hrooted, ?_⟩
  rw [houter, named_trimIdle, hcomponents, ← named_trimIdle p.isRooted p.pieces, htrim,
    named_concat hlast, hcomponent]

/-! ### Absolute paths -/

def IsAbsolute (p : Path) (names : List RawText) : Prop := p.components = .root :: names.map .name

instance (p : Path) (names : List RawText) : Decidable (p.IsAbsolute names) :=
  inferInstanceAs (Decidable (p.components = .root :: names.map .name))

namespace IsAbsolute

variable {names : List RawText}

theorem isRooted (h : p.IsAbsolute names) : p.isRooted = true := by
  rw [IsAbsolute, components_eq] at h
  by_contra hrooted
  rw [if_neg hrooted] at h
  have hroot : Component.root ∈ leading p.pieces := h ▸ List.mem_cons_self
  have hsteps (pieces : List RawText) : Component.root ∉ steps pieces := by
    intro hmem
    obtain ⟨piece, -, hpiece⟩ := List.mem_map.1 hmem
    rw [componentOf] at hpiece
    split at hpiece <;> cases hpiece
  cases hpieces : p.pieces with
  | nil =>
    rw [hpieces] at hroot
    cases hroot
  | cons first rest =>
    rw [hpieces, leading] at hroot
    split at hroot
    · rcases List.mem_cons.1 hroot with hroot | hroot
      · cases hroot
      · exact hsteps _ hroot
    · exact hsteps _ hroot

theorem steps_pieces (h : p.IsAbsolute names) : steps p.pieces = names.map .name := by
  have hcomponents := components_eq p
  rw [if_pos h.isRooted] at hcomponents
  exact (List.cons.inj (hcomponents.symm.trans h)).2

theorem isFileName (h : p.IsAbsolute names) : ∀ name ∈ names, IsFileName name := by
  intro name hname
  have hmem : Component.name name ∈ steps p.pieces := by
    rw [h.steps_pieces]
    exact List.mem_map_of_mem hname
  obtain ⟨piece, hpiece, hcomponent⟩ := List.mem_map.1 hmem
  obtain ⟨hpiece, hidle⟩ := List.mem_filter.1 hpiece
  rw [componentOf] at hcomponent
  split at hcomponent
  · cases hcomponent
  · next hup =>
    cases hcomponent
    simp only [isIdle, Bool.not_eq_true', Bool.or_eq_false_iff, beq_eq_false_iff_ne] at hidle
    exact ⟨hidle.1, hidle.2, by simpa using hup, slash_not_mem_of_mem_pieces hpiece⟩

theorem parent?_root (h : p.IsAbsolute []) : p.parent? = none := by
  have hidle : ∀ piece ∈ p.pieces, isIdle piece = true := by
    have hsteps := List.map_eq_nil_iff.1 h.steps_pieces
    simpa using List.filter_eq_nil_iff.1 hsteps
  have htrim : trimIdle true p.pieces = [] := by
    cases hpieces : p.pieces with
    | nil => rfl
    | cons first rest =>
      rw [hpieces, List.forall_mem_cons] at hidle
      have hrest : rest.reverse.dropWhile isIdle = [] :=
        List.dropWhile_eq_nil_iff.2 fun piece hpiece => hidle.2 piece (List.mem_reverse.1 hpiece)
      simp [trimIdle, hrest, hidle.1]
  rw [parent?, h.isRooted, htrim]

theorem parent?_concat {name : RawText} (h : p.IsAbsolute (names ++ [name])) :
    ∃ outer, p.parent? = some outer ∧ outer.IsAbsolute names := by
  have hcomponents : p.components = (.root :: names.map .name) ++ [.name name] := by
    rw [show p.components = _ from h, List.map_append]
    rfl
  have hname : p.fileName? = some name := by
    rw [fileName?, hcomponents, List.getLast?_concat]
  obtain ⟨outer, hparent, -, houter⟩ := exists_parent hname
  exact ⟨outer, hparent, List.append_cancel_right (houter.symm.trans hcomponents)⟩

/-- What is at or above an absolute path leads along the beginnings of its names, the longest
first. -/
theorem ancestors (h : p.IsAbsolute names) :
    List.Forall₂ IsAbsolute p.ancestors names.inits.reverse := by
  have hlimit : names.length ≤ p.components.length := by
    rw [show p.components = _ from h, List.length_cons, List.length_map]
    exact Nat.le_succ _
  rw [Path.ancestors]
  generalize p.components.length = limit at hlimit
  induction names using List.reverseRecOn generalizing p limit with
  | nil =>
    have hancestors : ancestorsUpTo limit p = [p] := by
      cases limit with
      | zero => rfl
      | succ limit => rw [ancestorsUpTo, h.parent?_root]
    rw [hancestors]
    exact .cons h .nil
  | append_singleton names name ih =>
    cases limit with
    | zero => simp at hlimit
    | succ limit =>
      obtain ⟨outer, hparent, houter⟩ := h.parent?_concat
      have hinits : (names ++ [name]).inits.reverse = (names ++ [name]) :: names.inits.reverse := by
        simp [List.inits_append]
      rw [ancestorsUpTo, hparent, hinits]
      exact .cons h (ih houter limit (by simpa using hlimit))

end IsAbsolute

end Path

end GoUml
