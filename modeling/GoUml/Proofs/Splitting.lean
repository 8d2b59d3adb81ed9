import GoUml.Text.Basic
import Mathlib.Data.List.Basic

/-!
# Cutting and joining texts

A text is cut at every separator, so a text with a separator in the middle is cut like its two
halves one after the other, and the pieces themselves hold no separator.
-/

namespace GoUml.Text

section

variable {α : Type} [DecidableEq α]

theorem splitList_ne_nil (separator : α) (cs : List α) : splitList separator cs ≠ [] := by
  cases cs with
  | nil => simp [splitList]
  | cons c rest =>
    rw [splitList]
    split
    · simp
    · split <;> simp

theorem splitList_append (separator : α) (cs rest : List α) :
    splitList separator (cs ++ separator :: rest) =
      splitList separator cs ++ splitList separator rest := by
  induction cs with
  | nil => simp [splitList]
  | cons c cs ih =>
    rw [List.cons_append, splitList, splitList, ih]
    by_cases hc : c = separator
    · simp [hc]
    · cases hpieces : splitList separator cs with
      | nil => exact absurd hpieces (splitList_ne_nil separator cs)
      | cons piece more => simp [hc]

theorem splitList_of_not_mem {separator : α} {cs : List α} (h : separator ∉ cs) :
    splitList separator cs = [cs] := by
  induction cs with
  | nil => rfl
  | cons c rest ih =>
    rw [List.mem_cons, not_or] at h
    rw [splitList, if_neg (Ne.symm h.1), ih h.2]

theorem not_mem_of_mem_splitList {separator : α} {cs piece : List α}
    (h : piece ∈ splitList separator cs) : separator ∉ piece := by
  induction cs generalizing piece with
  | nil => simp_all [splitList]
  | cons c rest ih =>
    rw [splitList] at h
    split at h
    · rcases List.mem_cons.1 h with rfl | h
      · exact List.not_mem_nil
      · exact ih h
    · next hc =>
      cases hpieces : splitList separator rest with
      | nil => exact absurd hpieces (splitList_ne_nil separator rest)
      | cons first more =>
        rw [hpieces] at h ih
        rcases List.mem_cons.1 h with rfl | h
        · exact List.not_mem_cons_of_ne_of_not_mem (Ne.symm hc) (ih List.mem_cons_self)
        · exact ih (List.mem_cons_of_mem _ h)

theorem flatten_splitList (separator : α) (cs : List α) :
    (splitList separator cs).flatten = cs.filter (· ≠ separator) := by
  induction cs with
  | nil => rfl
  | cons c rest ih =>
    rw [splitList]
    split
    · next hc => simp [hc, ih]
    · next hc =>
      cases hpieces : splitList separator rest with
      | nil => exact absurd hpieces (splitList_ne_nil separator rest)
      | cons piece more =>
        rw [hpieces] at ih
        simpa [hc] using ih

theorem splitList_intercalate {separator : α} {pieces : List (List α)} (hne : pieces ≠ [])
    (h : ∀ piece ∈ pieces, separator ∉ piece) :
    splitList separator ([separator].intercalate pieces) = pieces := by
  induction pieces with
  | nil => exact absurd rfl hne
  | cons piece rest ih =>
    obtain ⟨hpiece, hrest⟩ := List.forall_mem_cons.1 h
    by_cases hnil : rest = []
    · subst hnil
      simpa using splitList_of_not_mem hpiece
    · rw [List.intercalate_cons_of_ne_nil hnil, List.append_assoc, List.singleton_append,
        splitList_append, splitList_of_not_mem hpiece, ih hnil hrest, List.singleton_append]

end

theorem split_of_not_mem {separator : Char} {s : String} (h : separator ∉ s.toList) :
    split separator s = [s] := by
  rw [split, splitList_of_not_mem h, List.map_singleton, String.ofList_toList]

theorem split_append (separator : Char) (s t : String) :
    split separator (s ++ String.ofList [separator] ++ t) =
      split separator s ++ split separator t := by
  rw [split, String.toList_append, String.toList_append, String.toList_ofList, List.append_assoc,
    List.singleton_append, splitList_append, List.map_append, split, split]

theorem joinWith_cons (separator piece : String) {rest : List String} (hne : rest ≠ []) :
    joinWith separator (piece :: rest) = piece ++ separator ++ joinWith separator rest := by
  cases rest with
  | nil => exact absurd rfl hne
  | cons => rfl

theorem not_mem_joinWith {c : Char} {separator : String} {pieces : List String}
    (hseparator : c ∉ separator.toList) (h : ∀ piece ∈ pieces, c ∉ piece.toList) :
    c ∉ (joinWith separator pieces).toList := by
  fun_induction joinWith separator pieces with
  | case1 => simp
  | case2 piece => exact h piece List.mem_cons_self
  | case3 piece rest _ ih =>
    obtain ⟨hpiece, hrest⟩ := List.forall_mem_cons.1 h
    simp only [String.toList_append, List.mem_append, not_or]
    exact ⟨⟨hpiece, hseparator⟩, ih hrest⟩

theorem joinWith_ne_empty {separator : String} {pieces : List String} (hne : pieces ≠ [])
    (h : ∀ piece ∈ pieces, piece ≠ "") : joinWith separator pieces ≠ "" := by
  cases pieces with
  | nil => exact absurd rfl hne
  | cons piece rest =>
    have hpiece : piece ≠ "" := h piece List.mem_cons_self
    cases rest <;> simp [joinWith, hpiece]

theorem split_joinWith {separator : Char} {pieces : List String} (hne : pieces ≠ [])
    (h : ∀ piece ∈ pieces, separator ∉ piece.toList) :
    split separator (joinWith (String.ofList [separator]) pieces) = pieces := by
  induction pieces with
  | nil => exact absurd rfl hne
  | cons piece rest ih =>
    have hpiece : separator ∉ piece.toList := h piece List.mem_cons_self
    by_cases hrest : rest = []
    · subst hrest
      exact split_of_not_mem hpiece
    · rw [joinWith_cons _ _ hrest, split_append, split_of_not_mem hpiece,
        ih hrest fun p hp => h p (List.mem_cons_of_mem _ hp), List.singleton_append]

theorem joinWith_inj {separator : Char} {pieces others : List String} (hne : pieces ≠ [])
    (hne' : others ≠ []) (hpieces : ∀ piece ∈ pieces, separator ∉ piece.toList)
    (hothers : ∀ piece ∈ others, separator ∉ piece.toList)
    (h : joinWith (String.ofList [separator]) pieces =
      joinWith (String.ofList [separator]) others) : pieces = others := by
  rw [← split_joinWith hne hpieces, h, split_joinWith hne' hothers]

theorem stripStart?_eq_some_iff {start cs rest : List Char} :
    stripStart? start cs = some rest ↔ cs = start ++ rest := by
  induction start generalizing cs with
  | nil => simp [stripStart?]
  | cons a start ih =>
    cases cs with
    | nil => simp [stripStart?]
    | cons c cs =>
      rw [stripStart?]
      split
      · next hac => simp [hac, ih]
      · next hac => simp [Ne.symm hac]

theorem startsWith_iff {s start : String} :
    startsWith s start = true ↔ ∃ rest, s.toList = start.toList ++ rest := by
  simp only [startsWith, Option.isSome_iff_exists, stripStart?_eq_some_iff]

end GoUml.Text
