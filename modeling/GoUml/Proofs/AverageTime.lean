import GoUml.Metrics
import Mathlib.Algebra.GroupWithZero.Nat
import Mathlib.Tactic.ByContra

/-!
# The average parse time of merged metrics

Counters have 64 bits, so the number of files read survives any merge that does not overflow, and
the parse time is exact. The division is by a word of 32 bits, though. Up to the largest such word
the average is the exact quotient; from there on the files that fill whole words are not counted,
and where they are all there is no average.
-/

namespace GoUml

namespace LoadMetrics

def ofLoads (loads : List LoadMetrics) : LoadMetrics := loads.foldl merge {}

def filesRead (loads : List LoadMetrics) : Nat := (loads.map (·.filesSucceeded.toNat)).sum

def nanosSpent (loads : List LoadMetrics) : Nat := (loads.map (·.parseNanos)).sum

/-- The time of a file on average, rounded down, and zero without files. -/
def exactAverage (nanos files : Nat) : Nat := if files = 0 then 0 else nanos / files

@[simp] theorem filesRead_cons (m : LoadMetrics) (loads : List LoadMetrics) :
    filesRead (m :: loads) = m.filesSucceeded.toNat + filesRead loads :=
  List.sum_cons

@[simp] theorem nanosSpent_cons (m : LoadMetrics) (loads : List LoadMetrics) :
    nanosSpent (m :: loads) = m.parseNanos + nanosSpent loads :=
  List.sum_cons

theorem parseNanos_foldl_merge (loads : List LoadMetrics) (m : LoadMetrics) :
    (loads.foldl merge m).parseNanos = m.parseNanos + nanosSpent loads := by
  induction loads generalizing m with
  | nil => rfl
  | cons n rest ih => rw [List.foldl_cons, ih, nanosSpent_cons, merge, Nat.add_assoc]

theorem filesSucceeded_merge {m n : LoadMetrics}
    (h : m.filesSucceeded.toNat + n.filesSucceeded.toNat < 2 ^ 64) :
    (m.merge n).filesSucceeded.toNat = m.filesSucceeded.toNat + n.filesSucceeded.toNat := by
  rw [merge, UInt64.toNat_add]
  exact Nat.mod_eq_of_lt h

theorem filesSucceeded_foldl_merge (loads : List LoadMetrics) (m : LoadMetrics)
    (h : m.filesSucceeded.toNat + filesRead loads < 2 ^ 64) :
    (loads.foldl merge m).filesSucceeded.toNat = m.filesSucceeded.toNat + filesRead loads := by
  induction loads generalizing m with
  | nil => rfl
  | cons n rest ih =>
    rw [filesRead_cons, ← Nat.add_assoc] at h
    have hmerged := filesSucceeded_merge (Nat.lt_of_le_of_lt (Nat.le_add_right _ _) h)
    rw [List.foldl_cons, ih _ (by rwa [hmerged]), hmerged, filesRead_cons, Nat.add_assoc]

theorem averageNanos?_eq (m : LoadMetrics) :
    m.averageNanos? =
      if m.filesSucceeded.toNat = 0 then some 0
      else if m.filesSucceeded.toNat % 2 ^ 32 = 0 then none
      else some (m.parseNanos / (m.filesSucceeded.toNat % 2 ^ 32)) := by
  have hzero : (m.filesSucceeded == 0) = decide (m.filesSucceeded.toNat = 0) := by
    rw [Bool.eq_iff_iff, beq_iff_eq, decide_eq_true_iff, ← UInt64.toNat_inj]
    rfl
  have hword : (m.filesSucceeded.toUInt32 == 0) =
      decide (m.filesSucceeded.toNat % 2 ^ 32 = 0) := by
    rw [Bool.eq_iff_iff, beq_iff_eq, decide_eq_true_iff, ← UInt32.toNat_inj, UInt64.toNat_toUInt32]
    rfl
  simp only [averageNanos?, hzero, hword, UInt64.toNat_toUInt32, decide_eq_true_eq]

/-- Dividing by less than half of the files makes a difference, unless both quotients are zero. -/
theorem div_eq_div_iff_of_two_mul_le {nanos files part : Nat} (hpart : 0 < part)
    (h : 2 * part ≤ files) : nanos / part = nanos / files ↔ nanos < part := by
  constructor
  · intro heq
    by_contra hle
    have hpos : 0 < nanos / part := Nat.div_pos (Nat.le_of_not_lt hle) hpart
    have hhalf : nanos / files ≤ nanos / part / 2 := by
      rw [Nat.div_div_eq_div_mul, Nat.mul_comm part]
      exact Nat.div_le_div_left h (by omega)
    omega
  · intro hlt
    rw [Nat.div_eq_of_lt hlt, Nat.div_eq_of_lt (by omega)]

theorem averageNanos?_eq_exact_iff (m : LoadMetrics) :
    m.averageNanos? = some (exactAverage m.parseNanos m.filesSucceeded.toNat) ↔
      m.filesSucceeded.toNat < 2 ^ 32 ∨ m.parseNanos < m.filesSucceeded.toNat % 2 ^ 32 := by
  rw [averageNanos?_eq, exactAverage]
  generalize m.filesSucceeded.toNat = files
  by_cases hnone : files = 0
  · simp [hnone]
  rw [if_neg hnone, if_neg hnone]
  by_cases hlow : files % 2 ^ 32 = 0
  · rw [if_pos hlow, hlow]
    exact iff_of_false nofun (by omega)
  rw [if_neg hlow, Option.some.injEq]
  by_cases hsmall : files < 2 ^ 32
  · exact iff_of_true (by rw [Nat.mod_eq_of_lt hsmall]) (.inl hsmall)
  · -- The low bits are less than the first full word, and that is no more than what they leave.
    have hpart : 2 * (files % 2 ^ 32) ≤ files := by omega
    rw [div_eq_div_iff_of_two_mul_le (Nat.pos_of_ne_zero hlow) hpart, or_iff_right hsmall]

/-- The average of merged metrics is that by the low 32 bits of the number of files, and missing
when only these are zero. It is the exact one as long as they are the whole number, and by accident
when so little time was spent that both quotients are zero. -/
theorem averageNanos?_ofLoads {loads : List LoadMetrics} (h : filesRead loads < 2 ^ 64) :
    (ofLoads loads).averageNanos? =
        (if filesRead loads = 0 then some 0
        else if filesRead loads % 2 ^ 32 = 0 then none
        else some (nanosSpent loads / (filesRead loads % 2 ^ 32))) ∧
      ((ofLoads loads).averageNanos? = some (exactAverage (nanosSpent loads) (filesRead loads)) ↔
        filesRead loads < 2 ^ 32 ∨ nanosSpent loads < filesRead loads % 2 ^ 32) := by
  have hfiles : (ofLoads loads).filesSucceeded.toNat = filesRead loads :=
    (filesSucceeded_foldl_merge loads {} (by simpa using h)).trans (Nat.zero_add _)
  have hnanos : (ofLoads loads).parseNanos = nanosSpent loads :=
    (parseNanos_foldl_merge loads {}).trans (Nat.zero_add _)
  rw [← hfiles, ← hnanos]
  exact ⟨averageNanos?_eq _, averageNanos?_eq_exact_iff _⟩

/-- A load of almost all files that 32 bits can count, and a load of two more. -/
def longLoads : List LoadMetrics :=
  [{ filesAttempted := 4294967295, filesSucceeded := 4294967295, parseNanos := 8589934592000000 },
   { filesAttempted := 2, filesSucceeded := 2, parseNanos := 2000000 }]

theorem averageNanos?_ofLoads_longLoads :
    filesRead longLoads < 2 ^ 64 ∧
      (ofLoads longLoads).averageNanos? = some 8589934594000000 := by
  have h : filesRead longLoads < 2 ^ 64 := by decide
  exact ⟨h, (averageNanos?_ofLoads h).1⟩

/-- Two loads of as many files as there are words of 32 bits, a millisecond each. -/
def fullLoads : List LoadMetrics :=
  [{ filesAttempted := 4294967295, filesSucceeded := 4294967295, parseNanos := 4294967295000000 },
   { filesAttempted := 1, filesSucceeded := 1, parseNanos := 1000000 }]

theorem no_average_of_fullLoads :
    filesRead fullLoads = 2 ^ 32 ∧
      exactAverage (nanosSpent fullLoads) (filesRead fullLoads) = 1000000 ∧
      (ofLoads fullLoads).averageNanos? = none := by
  decide

end LoadMetrics

end GoUml
