import GoUml.Go.Grammar.File
import GoUml.Go.Module
import GoUml.Go.Resolution
import GoUml.Load.Selection
import GoUml.Metrics

/-!
# Loading Go packages

Reads the Go sources of the selected directories and resolves them together. A load gives all
packages or an error, never a part of them; what was read is counted either way.
-/

namespace GoUml.Go

open Json

/-- How sources are read: up to which size, and whether those of a directory are read side by
side. -/
structure LoaderConfig where
  maxFileSize : UInt64 := 10485760
  parallel : Bool := true
  deriving DecidableEq, Inhabited

namespace LoaderConfig

def ofJson? (j : Json) : Option LoaderConfig := do
  match ← slots? ["max_file_size", "parallel"] j with
  | [size, parallel] =>
    return {
      maxFileSize := ← defaulted? word? 10485760 size
      parallel := ← defaulted? bool? true parallel }
  | _ => none

end LoaderConfig

/-- A computation that may fail and counts what it reads. -/
abbrev Loading := ExceptT LoadError (StateM LoadMetrics)

namespace Loader

/-! ### Source files -/

/-- Whether a file holds Go source that is no test. The name of a test is a text. -/
def canLoad (p : Path) : Bool :=
  p.extension? == some "go" &&
    !((p.fileName?.bind RawText.text?).any (Text.endsWith · "_test.go"))

/-- The source files among the entries of a directory. -/
def sourcesAmong (dir : Path) (entries : List (RawText × Node)) : List Path :=
  ((entries.filter fun e => !e.2.isDirectory).map fun e => dir.join e.1).filter canLoad

/-- The source files of a directory, by name. -/
def sourcesIn (tree : Tree) (dir : Path) : Except LoadError (List Path) :=
  match tree.listingFault? dir with
  | some _ => .error ⟨dir, .unreadable⟩
  | none => .ok (sourcesAmong dir (((tree.find? dir).map Node.entries).getD []))

def sourceErrorKind : SourceError → LoadErrorKind
  | .syntaxError => .syntaxError
  | .missingPackage => .refused .missingPackage

/-- Reads one source file. Its size is looked at before its text. -/
def readSource (config : LoaderConfig) (tree : Tree) (p : Path) : Except LoadError SourceFile :=
  match tree.contents? p with
  | none => .error ⟨p, .unreadable⟩
  | some contents =>
    if contents.size > config.maxFileSize.toNat then
      .error ⟨p, .refused (.tooLarge contents.size config.maxFileSize.toNat)⟩
    else match contents.text? with
      | none => .error ⟨p, .unreadable⟩
      | some text => (SourceFile.parse text).mapError fun e => ⟨p, sourceErrorKind e⟩

/-! ### Reading files -/

/-- Counts one file by whether it was read. -/
def countFile (m : LoadMetrics) : Except LoadError SourceFile → LoadMetrics
  | .ok _ => { m with
      filesAttempted := m.filesAttempted + 1, filesSucceeded := m.filesSucceeded + 1 }
  | .error _ => { m with
      filesAttempted := m.filesAttempted + 1, filesFailed := m.filesFailed + 1 }

/-- Reads one source file and counts it. -/
def parseFile (config : LoaderConfig) (tree : Tree) (p : Path) :
    StateM LoadMetrics (Except LoadError SourceFile) := do
  let outcome := readSource config tree p
  modify (countFile · outcome)
  return outcome

/-- The order in which files that are read side by side are done. Each file comes with its place
among them. -/
structure Schedule where
  done : List (Path × Nat) → List (Path × Nat)
  perm : ∀ files, (done files).Perm files

/-- Each file is done before the next one begins. -/
def Schedule.inTurn : Schedule := ⟨id, .refl⟩

instance : Inhabited Schedule := ⟨.inTurn⟩

/-- Reads files side by side. Each is counted when it is done, and its outcome goes to its place. -/
def readSideBySide (config : LoaderConfig) (tree : Tree) (schedule : Schedule) (files : List Path) :
    StateM LoadMetrics (List (Except LoadError SourceFile)) := do
  let outcomes ← (schedule.done files.zipIdx).mapM fun file =>
    return (← parseFile config tree file.1, file.2)
  return files.zipIdx.filterMap fun file => (outcomes.find? fun o => o.2 == file.2).map (·.1)

def readFiles (config : LoaderConfig) (tree : Tree) (schedule : Schedule) (files : List Path) :
    StateM LoadMetrics (List (Except LoadError SourceFile)) :=
  if config.parallel then readSideBySide config tree schedule files
  else files.mapM (parseFile config tree)

/-! ### Directories -/

/-- The files, or the error of the first one that was not read. -/
def allRead : List (Except LoadError SourceFile) → Except LoadError (List SourceFile)
  | [] => .ok []
  | .error e :: _ => .error e
  | .ok file :: rest => (allRead rest).map (file :: ·)

/-- The files of a directory as one package, unless they declare different ones. -/
def samePackage (dir : Path) (first : SourceFile) (files : List SourceFile) :
    Except LoadError String :=
  match files.find? fun file => file.package != first.package with
  | some other => .error ⟨dir, .mixedPackages first.package other.package⟩
  | none => .ok first.package

/-- Reads the package of a directory, if it has sources. All its files are read and counted before
an error of one of them ends the load. -/
def readDirectory (config : LoaderConfig) (tree : Tree) (dir : Path)
    (schedule : Schedule := .inTurn) : Loading (Option SourcePackage) := do
  unless tree.isDirectory dir do throw ⟨dir, .directoryNotFound⟩
  modify fun m => { m with directoriesScanned := m.directoriesScanned + 1 }
  let files ← sourcesIn tree dir
  let outcomes ← readFiles config tree schedule files
  match ← allRead outcomes with
  | [] => return none
  | first :: rest =>
    let name ← samePackage dir first rest
    let path ← importPath tree dir
    return some ⟨name, path, first :: rest⟩

def typeCount (packages : List Package) : Nat :=
  (packages.flatMap fun p : Package => p.declarations).length

/-- Resolves packages that were read together and counts them. -/
def finish (load : Load) : Loading (List Package) := do
  let packages := load.packages
  modify fun m => { m with
    packagesLoaded := m.packagesLoaded + packages.length.toUInt64
    typesExtracted := m.typesExtracted + (typeCount packages).toUInt64 }
  return packages

/-- Loads the package of one directory, if it has sources. -/
def loadDirectory (config : LoaderConfig) (tree : Tree) (dir : Path)
    (schedule : Schedule := .inTurn) : Loading (List Package) := do
  finish (← readDirectory config tree dir schedule).toList

/-- Loads the packages of all selected directories. -/
def load (config : LoaderConfig) (tree : Tree) (selection : Selection)
    (schedule : Schedule := .inTurn) : Loading (List Package) := do
  let directories ← selection.discover tree
  let found ← directories.mapM fun dir => readDirectory config tree dir schedule
  finish (found.filterMap id)

end Loader

end GoUml.Go
