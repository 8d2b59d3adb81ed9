import GoUml.Command.Run
import GoUml.Proofs.Loading
import GoUml.Proofs.Saving
import Mathlib.Data.List.Permutation

/-!
# What a run reports and what it changes

Each part of a run can be at fault in its own way, and these faults are said here one by one,
whether or not another part is at fault as well. A run reports the first of them in the order of its
parts. A run without a fault draws its document and changes nothing but the file it writes, and a
failing run changes nothing at all, unless its file breaks off while it is written: then the file
holds the beginning of the document.
-/

namespace GoUml

def failure? {ε α : Type} : Except ε α → Option ε
  | .error e => some e
  | .ok _ => none

namespace Arguments

variable {args : Arguments} {tree : Tree} {device : Device}

inductive Stage where
  | configFile
  | options
  | model
  | noDirectory
  | directories
  | ignored
  | load
  | output

def Stage.order : List Stage :=
  [.configFile, .options, .model, .noDirectory, .directories, .ignored, .load, .output]

/-- The configuration that applies. -/
def HasConfig (args : Arguments) (tree : Tree) (file : FileConfig) : Prop :=
  FileConfig.find tree (args.setting? .config) = .ok file

/-- The entries that say what is ignored: those of the command line, else those of the file. -/
def ignoreEntries (args : Arguments) (load : LoadConfig) : List String :=
  if (args.list .ignore).isEmpty then load.ignore else args.list .ignore

/-- The document of a run shows its packages with its options in the diagram that is asked for. -/
inductive Draws (args : Arguments) (tree : Tree) : String → Prop
  | classDiagram {file : FileConfig} {options : RenderingOptions} {packages : List Package}
      (hdiagram : args.diagram = .classDiagram) (hfile : args.HasConfig tree file)
      (hoptions : args.options file = .ok options)
      (hpackages : args.packages tree file.load = .ok packages) :
      Draws args tree (Diagram.classDiagram options packages)
  | packageDiagram {file : FileConfig} {options : RenderingOptions} {packages : List Package}
      (hdiagram : args.diagram = .packageDiagram) (hfile : args.HasConfig tree file)
      (hoptions : args.options file = .ok options)
      (hpackages : args.packages tree file.load = .ok packages) :
      Draws args tree (Diagram.packageDiagram options packages)

/-- The fault of a part as the run computes it. -/
def report (args : Arguments) (tree : Tree) (device : Device) : Stage → Option CommandError
  | .configFile =>
    (failure? (FileConfig.find tree (args.setting? .config))).map .configFile
  | .options =>
    (FileConfig.find tree (args.setting? .config)).toOption.bind fun file =>
      (failure? (args.options file)).map .option
  | .model =>
    (args.setting? .fromJson).bind fun p => (failure? (readModel tree ⟨p⟩)).map .load
  | .noDirectory =>
    if args.setting? .fromJson = none ∧ args.directories = [] then some (.usage .noDirectory)
    else none
  | .directories =>
    if args.setting? .fromJson = none then
      (failure? (args.directories.mapM (existingDirectory tree))).map .usage
    else none
  | .ignored =>
    if args.setting? .fromJson = none then
      (FileConfig.find tree (args.setting? .config)).toOption.bind fun file =>
        (failure? ((named (args.ignoreEntries file.load)).mapM (existingDirectory tree))).map .usage
    else none
  | .load =>
    if args.setting? .fromJson = none then
      (FileConfig.find tree (args.setting? .config)).toOption.bind fun file =>
        (args.selection tree file.load).toOption.bind fun selection =>
          (failure? (loadSelected tree selection)).map .load
    else none
  | .output =>
    if (args.setting? .output).any fun p : String =>
      !device.opens || (tree.save? ⟨p⟩ (.text "")).isNone
    then some .unwritable
    else (args.document tree).toOption.bind fun text =>
      if device.takes text then none else some .unwritable

/-- A tree differs from another at most at the place a path leads to, where a file holds this. -/
structure Writes (p : Path) (contents : Contents) (tree tree' : Tree) : Prop where
  contents? : tree'.contents? p = some contents
  home : tree'.home = tree.home
  faults : tree'.faults = tree.faults
  seen : ∃ place, tree'.namesTo? p = some place ∧ ∀ names, Node.seen names tree'.top =
    if names = place then some (some contents) else Node.seen names tree.top

end Arguments

end GoUml
