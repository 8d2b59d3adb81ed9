import GoUml.Proofs.TypeIdentity
import GoUml.Table
import Mathlib.Data.List.Sort

/-!
# Sorting by a key

What the diagrams rely on when they list things by name. Sorting is stable, so leaving items out
before sorting leaves the rest where they were; and items whose keys differ come out in one order,
however they were written down. The second half is about keys that are rows of texts.
-/

namespace GoUml.Text

variable {α : Type}

theorem sortOn_perm (key : α → String) (items : List α) : (sortOn key items).Perm items :=
  List.mergeSort_perm items _

theorem pairwise_sortOn (key : α → String) (items : List α) :
    (sortOn key items).Pairwise fun a b => notAfter (key a) (key b) = true :=
  List.pairwise_mergeSort (fun a b c => notAfter_trans (key a) (key b) (key c))
    (fun a b => notAfter_total (key a) (key b)) items

/-- Sorting one more item puts it behind everything smaller and before everything else, and moves
nothing. -/
theorem sortOn_cons (key : α → String) (a : α) (items : List α) :
    ∃ before after, sortOn key (a :: items) = before ++ a :: after ∧
      sortOn key items = before ++ after ∧
      (∀ b ∈ before, notAfter (key a) (key b) = false) ∧
      ∀ b ∈ after, notAfter (key a) (key b) = true := by
  obtain ⟨before, after, hcons, hitems, hbefore⟩ := List.mergeSort_cons
    (fun a b c => notAfter_trans (key a) (key b) (key c))
    (fun a b => notAfter_total (key a) (key b)) a items
  refine ⟨before, after, hcons, hitems, ?_, ?_⟩
  · intro b hb
    simpa using hbefore b hb
  · intro b hb
    have hsorted := pairwise_sortOn key (a :: items)
    rw [sortOn, hcons] at hsorted
    have htail := (List.pairwise_append.1 hsorted).2.1
    exact (List.pairwise_cons.1 htail).1 b hb

theorem filter_append_right {p : α → Bool} {xs ys : List α} (hxs : ∀ x ∈ xs, p x = false)
    (hys : ∀ y ∈ ys, p y = true) : (xs ++ ys).filter p = ys := by
  rw [List.filter_append, List.filter_eq_nil_iff.2 (by simpa using hxs), List.filter_eq_self.2 hys,
    List.nil_append]

theorem filter_append_left {p : α → Bool} {xs ys : List α} (hxs : ∀ x ∈ xs, p x = false)
    (hys : ∀ y ∈ ys, p y = true) : (xs ++ ys).filter (!p ·) = xs := by
  rw [List.filter_append, List.filter_eq_self.2 (by simpa using hxs),
    List.filter_eq_nil_iff.2 (by simpa using hys), List.append_nil]

/-- Items with one key stay in their order. -/
theorem filter_sortOn (key : α → String) (k : String) (items : List α) :
    (sortOn key items).filter (fun a => key a = k) = items.filter fun a => key a = k := by
  induction items with
  | nil => rw [sortOn, List.mergeSort_nil]
  | cons a items ih =>
    obtain ⟨before, after, hcons, hitems, hbefore, -⟩ := sortOn_cons key a items
    rw [hitems, List.filter_append] at ih
    rw [hcons, List.filter_append, List.filter_cons, List.filter_cons, ← ih]
    by_cases hk : key a = k
    · -- What stands before `a` has a smaller key, so the filter keeps none of it.
      have hnone : before.filter (fun b => key b = k) = [] := by
        rw [List.filter_eq_nil_iff]
        intro b hb hbk
        have hba : key b = key a := (of_decide_eq_true hbk).trans hk.symm
        have hsmaller := hbefore b hb
        rw [hba] at hsmaller
        simp [notAfter] at hsmaller
      simp [hnone, hk]
    · simp [hk]

theorem sortOn_sublist (key : α → String) {few many : List α} (h : few.Sublist many) :
    (sortOn key few).Sublist (sortOn key many) := by
  induction h with
  | slnil => exact .refl _
  | cons a _ ih =>
    obtain ⟨before, after, hcons, hitems, -, -⟩ := sortOn_cons key a _
    rw [hcons]
    rw [hitems] at ih
    exact ih.trans ((List.sublist_cons_self a after).append_left before)
  | cons_cons a _ ih =>
    -- On both sides, comparing with `a` tells what stands before it from what stands behind it.
    obtain ⟨before, after, hcons, hitems, hbefore, hafter⟩ := sortOn_cons key a _
    obtain ⟨before', after', hcons', hitems', hbefore', hafter'⟩ := sortOn_cons key a _
    rw [hcons, hcons']
    rw [hitems, hitems'] at ih
    have hsmaller := ih.filter fun b => !notAfter (key a) (key b)
    have hlarger := ih.filter fun b => notAfter (key a) (key b)
    rw [filter_append_left hbefore hafter, filter_append_left hbefore' hafter'] at hsmaller
    rw [filter_append_right hbefore hafter, filter_append_right hbefore' hafter'] at hlarger
    exact hsmaller.append (hlarger.cons_cons a)

theorem sortOn_eq_of_perm {key : α → String} {items others : List α} (h : items.Perm others)
    (hkeys : (items.map key).Nodup) : sortOn key items = sortOn key others := by
  have hperm : (sortOn key items).Perm (sortOn key others) :=
    (sortOn_perm key items).trans (h.trans (sortOn_perm key others).symm)
  refine hperm.eq_of_pairwise ?_ (pairwise_sortOn key items) (pairwise_sortOn key others)
  intro a b ha hb hab hba
  have ha' : a ∈ items := (sortOn_perm key items).mem_iff.1 ha
  have hb' : b ∈ items := h.mem_iff.2 ((sortOn_perm key others).mem_iff.1 hb)
  exact List.inj_on_of_nodup_map hkeys ha' hb' (notAfter_antisymm hab hba)

/-! ### Rows -/

theorem rowNotAfter_total (a b : List String) : (rowNotAfter a b || rowNotAfter b a) = true := by
  induction a generalizing b with
  | nil => rfl
  | cons x xs ih =>
    cases b with
    | nil => rfl
    | cons y ys =>
      rw [rowNotAfter, rowNotAfter]
      by_cases hxy : x = y
      · rw [if_pos hxy, if_pos hxy.symm]
        exact ih ys
      · rw [if_neg hxy, if_neg (Ne.symm hxy), Bool.or_eq_true, decide_eq_true_eq,
          decide_eq_true_eq]
        by_cases hlt : x < y
        · exact .inl hlt
        · exact .inr (Table.lt_of_not_lt_of_ne hlt hxy)

theorem rowNotAfter_trans (a b c : List String) (hab : rowNotAfter a b = true)
    (hbc : rowNotAfter b c = true) : rowNotAfter a c = true := by
  induction a generalizing b c with
  | nil => rfl
  | cons x xs ih =>
    cases b with
    | nil => simp [rowNotAfter] at hab
    | cons y ys =>
      cases c with
      | nil => simp [rowNotAfter] at hbc
      | cons z zs =>
        rw [rowNotAfter] at hab hbc ⊢
        by_cases hxy : x = y
        · subst hxy
          rw [if_pos rfl] at hab
          split at hbc
          · next hxz => rw [if_pos hxz]; exact ih ys zs hab hbc
          · next hxz => rw [if_neg hxz]; exact hbc
        · rw [if_neg hxy, decide_eq_true_eq] at hab
          split at hbc
          · next hyz => subst hyz; rw [if_neg hxy, decide_eq_true_eq]; exact hab
          · next hyz =>
            have hlt : x < z := String.lt_trans hab (of_decide_eq_true hbc)
            have hne : x ≠ z := fun heq => String.lt_irrefl z (heq ▸ hlt)
            rw [if_neg hne, decide_eq_true_eq]
            exact hlt

theorem rowNotAfter_antisymm {a b : List String} (hab : rowNotAfter a b = true)
    (hba : rowNotAfter b a = true) : a = b := by
  induction a generalizing b with
  | nil =>
    cases b with
    | nil => rfl
    | cons y ys => simp [rowNotAfter] at hba
  | cons x xs ih =>
    cases b with
    | nil => simp [rowNotAfter] at hab
    | cons y ys =>
      rw [rowNotAfter] at hab hba
      by_cases hxy : x = y
      · rw [if_pos hxy] at hab
        rw [if_pos hxy.symm] at hba
        rw [hxy, ih hab hba]
      · rw [if_neg hxy, decide_eq_true_eq] at hab
        rw [if_neg (Ne.symm hxy), decide_eq_true_eq] at hba
        exact absurd hba (String.lt_asymm hab)

theorem sortOnRow_perm (row : α → List String) (items : List α) :
    (sortOnRow row items).Perm items :=
  List.mergeSort_perm items _

theorem pairwise_sortOnRow (row : α → List String) (items : List α) :
    (sortOnRow row items).Pairwise fun a b => rowNotAfter (row a) (row b) = true :=
  List.pairwise_mergeSort (fun a b c => rowNotAfter_trans (row a) (row b) (row c))
    (fun a b => rowNotAfter_total (row a) (row b)) items

theorem sortOnRow_eq_of_perm {row : α → List String} (hrow : Function.Injective row)
    {items others : List α} (h : items.Perm others) :
    sortOnRow row items = sortOnRow row others := by
  have hperm : (sortOnRow row items).Perm (sortOnRow row others) :=
    (sortOnRow_perm row items).trans (h.trans (sortOnRow_perm row others).symm)
  refine hperm.eq_of_pairwise ?_ (pairwise_sortOnRow row items) (pairwise_sortOnRow row others)
  intro a b _ _ hab hba
  exact hrow (rowNotAfter_antisymm hab hba)

end GoUml.Text
