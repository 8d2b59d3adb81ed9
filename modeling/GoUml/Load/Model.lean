import GoUml.Load.Selection
import GoUml.Model.Reader

/-!
# Loading stored models

Packages that another tool has resolved already, read from their JSON form.
-/

namespace GoUml

/-- The packages that a file stores. -/
def readModel (tree : Tree) (p : Path) : Except LoadError (List Package) :=
  match tree.text? p with
  | none => .error ⟨p, .unreadable⟩
  | some text =>
    match parsePackages? text with
    | none => .error ⟨p, .malformedModel⟩
    | some packages => .ok packages

/-- The packages of all selected directories, each loaded on its own. -/
def Selection.loadEach (selection : Selection) (tree : Tree)
    (load : Path → Except LoadError (List Package)) : Except LoadError (List Package) := do
  return (← (← selection.discover tree).mapM load).flatten

end GoUml
