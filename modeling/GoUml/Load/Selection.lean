import GoUml.Files.Tree
import GoUml.Json.Record
import GoUml.Load.Error

/-!
# Selected directories

A selection names the directories to load. A recursive one takes in everything below them, parents
first and siblings by name, apart from ignored directories and, below the named ones, directories
that by their name hold no sources of their own. An excluded directory excludes all that is below
it, and one that cannot be listed ends the search. Directories are ignored by their paths as they
are written, and set aside by names that are texts.
-/

namespace GoUml

open Json

structure Selection where
  directories : List Path := []
  ignored : List Path := []
  recursive : Bool := false
  deriving DecidableEq, Inhabited

namespace Selection

def ignores (selection : Selection) (p : Path) : Bool := selection.ignored.any (·.same p)

/-- Hidden directories, those set aside with an underscore, and those of dependencies and test
data; a name that is no text sets nothing aside. -/
def isSetAside : Option String → Bool
  | some name =>
    Text.startsWith name "." || Text.startsWith name "_" || name == "vendor" || name == "testdata"
  | none => false

/-- The error of a directory below `root` that cannot be listed. Entries that break off are reported
at the root. -/
def unlisted (root p : Path) : ListingFault → LoadError
  | .unopened => ⟨p, .unreadable⟩
  | .brokenOff => ⟨root, .unreadable⟩

mutual

/-- The directories at and below a node that are not excluded, and an error behind each one that
cannot be listed. -/
def walk (selection : Selection) (tree : Tree) (root p : Path) : Node → List (Except LoadError Path)
  | .file _ => []
  | .directory entries =>
    if selection.ignores p then []
    else .ok p :: match tree.listingFault? p with
      | some fault => [.error (unlisted root p fault)]
      | none => walkEntries selection tree root p entries

def walkEntries (selection : Selection) (tree : Tree) (root outer : Path) :
    List (RawText × Node) → List (Except LoadError Path)
  | [] => []
  | (name, node) :: rest =>
    (if isSetAside name.text? then [] else walk selection tree root (outer.join name) node) ++
      walkEntries selection tree root outer rest

end

/-- The directories that a named directory stands for. -/
def expand (selection : Selection) (tree : Tree) (p : Path) : Except LoadError (List Path) :=
  match tree.find? p with
  | some node =>
    if node.isDirectory then
      if selection.recursive then (selection.walk tree p p node).mapM id else .ok [p]
    else .error ⟨p, .directoryNotFound⟩
  | none => .error ⟨p, .directoryNotFound⟩

/-- All selected directories, or the first error: a named directory that is none, or one that cannot
be listed. -/
def discover (selection : Selection) (tree : Tree) : Except LoadError (List Path) := do
  return (← selection.directories.mapM (selection.expand tree)).flatten

def fieldNames : List String := ["directories", "ignored_directories", "recursive"]

def path? (j : Json) : Option Path := j.string?.map fun text => ⟨text⟩

def ofJson? (j : Json) : Option Selection := do
  match ← slots? fieldNames j with
  | [directories, ignored, recursive] =>
    return {
      directories := ← defaulted? (listOf? path?) [] directories
      ignored := ← defaulted? (listOf? path?) [] ignored
      recursive := ← defaulted? bool? false recursive }
  | _ => none

def toJson (selection : Selection) : Json :=
  .object <| fieldNames.zip
    [strings (selection.directories.map (·.text)), strings (selection.ignored.map (·.text)),
     .bool selection.recursive]

end Selection

end GoUml
