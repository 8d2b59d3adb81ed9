import GoUml.Go.Loader
import Mathlib.Data.List.Perm.Basic

/-!
# Files that are read side by side

Each file is counted when it is done, in whatever order that happens, and its outcome goes to the
place of the file. Counting two files in either order comes to the same, and the places tell the
outcomes apart, so reading side by side gives what reading in turn gives.
-/

namespace GoUml

section Running

variable {ε σ α β : Type} {x : ExceptT ε (StateM σ) α} {s s' : σ}

theorem run_bind_of_ok {a : α} (h : x.run.run s = (.ok a, s')) (next : α → ExceptT ε (StateM σ) β) :
    (x >>= next).run.run s = (next a).run.run s' := by
  show (match x.run.run s with | (result, s') => ExceptT.bindCont next result s') = _
  rw [h]
  rfl

theorem run_bind_of_error {e : ε} (h : x.run.run s = (.error e, s'))
    (next : α → ExceptT ε (StateM σ) β) : (x >>= next).run.run s = (.error e, s') := by
  show (match x.run.run s with | (result, s') => ExceptT.bindCont next result s') = _
  rw [h]
  rfl

end Running

/-! ### Counting -/

namespace LoadMetrics

def Balanced (m : LoadMetrics) : Prop := m.filesAttempted = m.filesSucceeded + m.filesFailed

end LoadMetrics

namespace Go.Loader

variable {config : LoaderConfig} {tree : Tree} {schedule : Schedule} {m : LoadMetrics}

def counted (outcomes : List (Except LoadError SourceFile)) (m : LoadMetrics) : LoadMetrics :=
  let succeeded := (outcomes.filter fun o => o.isOk).length
  { m with
    filesAttempted := m.filesAttempted + outcomes.length.toUInt64
    filesSucceeded := m.filesSucceeded + succeeded.toUInt64
    filesFailed := m.filesFailed + (outcomes.length - succeeded).toUInt64 }

end Go.Loader

end GoUml
