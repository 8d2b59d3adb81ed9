import GoUml.Files.Tree
import GoUml.Go.ImportPath
import GoUml.Load.Error

/-!
# Modules

The module that a directory belongs to, and from it the import path of the package in the directory.
The nearest module file at or above the directory decides, also when it declares no module.
-/

namespace GoUml.Go

/-- A module: the directory of its module file and the path it declares. -/
structure Module where
  root : Path
  path : String
  deriving DecidableEq

namespace Module

def fileName : RawText := "go.mod"

/-- The module file of a directory. -/
def fileIn (dir : Path) : Path := dir.join fileName

/-- The module that the file of a directory declares. -/
def declaredIn (tree : Tree) (root : Path) : Except LoadError (Option Module) :=
  match tree.text? (fileIn root) with
  | some text => .ok ((moduleOf? text).map (⟨root, ·⟩))
  | none => .error ⟨fileIn root, .unreadable⟩

/-- The module that a directory belongs to. -/
def find (tree : Tree) (dir : Path) : Except LoadError (Option Module) :=
  match dir.ancestors.find? fun root => tree.isFile (fileIn root) with
  | some root => declaredIn tree root
  | none => .ok none

/-- The import path of the package in a directory of the module. -/
def importPath (m : Module) (dir : Path) : String :=
  let below := Path.slashed ((dir.below? m.root).getD dir.components)
  if below == "" then m.path else m.path ++ "/" ++ below

end Module

/-- The import path of the package in a directory: below a module the path of the module with the
directories that lead down from it, else the directory itself. -/
def importPath (tree : Tree) (dir : Path) : Except LoadError String := do
  match ← Module.find tree dir with
  | some m => return m.importPath dir
  | none =>
    let path := Path.slashed dir.components
    return if path == "" then "." else path

end GoUml.Go
