import GoUml.Proofs.Pointwise

/-!
# The first of several failures

Of two computations one after the other the first that fails gives the error. A computation that is
done for one item after the other gives all results, or the error of the first item that fails.
-/

namespace GoUml

variable {α β ε : Type} {f : α → Except ε β} {xs : List α}

/-- All items before the one that gives this error succeed. -/
def FailsFirst (f : α → Except ε β) (xs : List α) (e : ε) : Prop :=
  ∃ before x after, xs = before ++ x :: after ∧ (∀ y ∈ before, ∃ b, f y = .ok b) ∧ f x = .error e

theorem mapM_cons_of_ok {x : α} {b : β} (h : f x = .ok b) (xs : List α) :
    (x :: xs).mapM f = (xs.mapM f).map (b :: ·) := by
  rw [List.mapM_cons, h]
  rfl

theorem mapM_cons_of_error {x : α} {e : ε} (h : f x = .error e) (xs : List α) :
    (x :: xs).mapM f = .error e := by
  rw [List.mapM_cons, h]
  rfl

theorem mapM_eq_ok_iff {ys : List β} :
    xs.mapM f = .ok ys ↔ List.Forall₂ (fun x y => f x = .ok y) xs ys := by
  induction xs generalizing ys with
  | nil =>
    rw [List.mapM_nil, List.forall₂_nil_left_iff]
    exact ⟨fun h => (Except.ok.inj h).symm, fun h => h ▸ rfl⟩
  | cons x xs ih =>
    rw [List.forall₂_cons_left_iff]
    cases hx : f x with
    | error e => simp [mapM_cons_of_error hx]
    | ok b =>
      rw [mapM_cons_of_ok hx]
      cases hxs : xs.mapM f with
      | error e =>
        simp only [Except.map, reduceCtorEq, false_iff]
        rintro ⟨y, ys, -, hys, -⟩
        cases hxs.symm.trans (ih.2 hys)
      | ok bs =>
        simp only [Except.map, Except.ok.injEq, ← ih, hxs]
        exact ⟨fun h => ⟨b, bs, rfl, rfl, h.symm⟩, fun ⟨_, _, hb, hbs, h⟩ => by rw [h, hb, hbs]⟩

theorem not_failsFirst_nil {e : ε} : ¬FailsFirst f [] e := by
  rintro ⟨before, x, after, h, -⟩
  simp at h

theorem failsFirst_cons_of_error {x : α} {e e' : ε} (hx : f x = .error e') :
    FailsFirst f (x :: xs) e ↔ e' = e := by
  constructor
  · rintro ⟨before, y, after, h, hbefore, hy⟩
    cases before with
    | nil =>
      cases h
      exact Except.error.inj (hx.symm.trans hy)
    | cons z before =>
      cases h
      obtain ⟨b, hb⟩ := hbefore x List.mem_cons_self
      cases hx.symm.trans hb
  · rintro rfl
    exact ⟨[], x, xs, rfl, by simp, hx⟩

theorem failsFirst_cons_of_ok {x : α} {b : β} {e : ε} (hx : f x = .ok b) :
    FailsFirst f (x :: xs) e ↔ FailsFirst f xs e := by
  constructor
  · rintro ⟨before, y, after, h, hbefore, hy⟩
    cases before with
    | nil => cases h; cases hx.symm.trans hy
    | cons z before =>
      cases h
      exact ⟨before, y, after, rfl, fun z hz => hbefore z (List.mem_cons_of_mem _ hz), hy⟩
  · rintro ⟨before, y, after, rfl, hbefore, hy⟩
    exact ⟨x :: before, y, after, rfl, List.forall_mem_cons.2 ⟨⟨b, hx⟩, hbefore⟩, hy⟩

theorem mapM_eq_error_iff {e : ε} : xs.mapM f = .error e ↔ FailsFirst f xs e := by
  induction xs with
  | nil => exact iff_of_false (by nofun) not_failsFirst_nil
  | cons x xs ih =>
    cases hx : f x with
    | error e' => rw [mapM_cons_of_error hx, failsFirst_cons_of_error hx, Except.error.injEq]
    | ok b =>
      rw [mapM_cons_of_ok hx, failsFirst_cons_of_ok hx, ← ih]
      cases xs.mapM f <;> simp [Except.map]

end GoUml
