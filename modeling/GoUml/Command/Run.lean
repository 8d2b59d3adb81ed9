import GoUml.Command.Arguments
import GoUml.Command.Config
import GoUml.Diagram.Class
import GoUml.Diagram.Package
import GoUml.Go.Loader
import GoUml.Load.Model

/-!
# Running a command

A run reads the configuration, settles the options, loads the packages, draws the diagram and writes
it, in this order, and the first step that fails is the error. Nothing is written before the last
step; a device that breaks off while it is written to leaves the beginning of the document behind.
-/

namespace GoUml

/-- Directories that were asked for in vain. -/
inductive UsageError where
  | noDirectory
  | notFound (directory : String)
  | notADirectory (directory : String)
  deriving DecidableEq

def UsageError.message : UsageError → String
  | .noDirectory => "DIR missing"
  | .notFound directory => "could not find directory " ++ directory
  | .notADirectory directory => directory ++ " is not a directory"

inductive CommandError where
  | usage (error : UsageError)
  | configFile (error : ConfigFileError)
  | option (error : OptionError)
  | load (error : LoadError)
  | unwritable
  deriving DecidableEq

namespace CommandError

def isUsage : CommandError → Bool
  | .usage _ => true
  | _ => false

/-- What the error says, where the text is the library's own. -/
def message? : CommandError → Option String
  | .usage e => some e.message
  | .configFile e => e.message?
  | .option e => some ("Configuration error: " ++ e.message)
  | .load e => e.diagramMessage?
  | .unwritable => none

end CommandError

namespace Arguments

/-- The options that both diagrams have: those of the file, then title and theme. -/
def sharedOptions (args : Arguments) (file : FileConfig) : Except OptionError RenderingOptions :=
  match file.apply {} with
  | (_, some e) => .error e
  | (options, none) => .ok { options with
      title := (args.setting? .title).getD options.title
      theme := (args.setting? .theme).getD options.theme }

/-- Hiding connections hides those that no flag shows. -/
def withConnectionFlags (args : Arguments) (options : RenderingOptions) : RenderingOptions :=
  let shown (flag : Flag) (before : Bool) : Bool :=
    args.has flag || (before && !args.has .hideConnections)
  { options with
    compositions := shown .showCompositions options.compositions
    implementations := shown .showImplementations options.implementations
    aggregations := shown .showAggregations options.aggregations
    aliases := shown .showAliases options.aliases }

/-- The options of a class diagram without the legend about them. -/
def withClassFlags (args : Arguments) (options : RenderingOptions) : RenderingOptions :=
  args.withConnectionFlags { options with
    notes := if (args.list .notes).isEmpty then options.notes else noteLines (args.list .notes)
    fields := options.fields && !args.has .hideFields
    methods := options.methods && !args.has .hideMethods
    privateMembers := options.privateMembers && !args.has .hidePrivateMembers
    connectionLabels := options.connectionLabels || args.has .showConnectionLabels
    aggregatePrivateMembers :=
      options.aggregatePrivateMembers || args.has .aggregatePrivateMembers }

/-- Puts the legend about the options in front of the notes if that is asked for. -/
def withLegend (args : Arguments) (options : RenderingOptions) : RenderingOptions :=
  if args.has .showOptionsAsNotes then { options with notes := options.legend ++ options.notes }
  else options

/-- The options of the diagram. -/
def options (args : Arguments) (file : FileConfig) : Except OptionError RenderingOptions := do
  let shared ← args.sharedOptions file
  match args.diagram with
  | .packageDiagram => return shared
  | .classDiagram => return args.withLegend (args.withClassFlags shared)

/-- The absolute path of a directory that exists. -/
def existingDirectory (tree : Tree) (directory : String) : Except UsageError Path :=
  match tree.canonical? ⟨directory⟩ with
  | none => .error (.notFound directory)
  | some p =>
    if tree.isDirectory ⟨directory⟩ then .ok p else .error (.notADirectory directory)

/-- The directories that are not blank, without the blanks around them. -/
def named (directories : List String) : List String :=
  (directories.map Text.trim).filter fun directory => directory != ""

/-- The selected directories. Ignored ones of the command line replace those of the file. -/
def selection (args : Arguments) (tree : Tree) (load : LoadConfig) :
    Except UsageError Selection := do
  if args.directories.isEmpty then throw .noDirectory
  let directories ← args.directories.mapM (existingDirectory tree)
  let ignore := args.list .ignore
  let ignored ← (named (if ignore.isEmpty then load.ignore else ignore)).mapM
    (existingDirectory tree)
  return ⟨directories, ignored, args.has .recursive || load.recursive⟩

/-! ### Packages and documents -/

/-- Loads the selected packages with the standard settings. -/
def loadSelected (tree : Tree) (selection : Selection) : Except LoadError (List Package) :=
  ((Go.Loader.load {} tree selection).run.run {}).1

/-- The packages of a stored model if one is named, else those of the directories. -/
def packages (args : Arguments) (tree : Tree) (load : LoadConfig) :
    Except CommandError (List Package) :=
  match args.setting? .fromJson with
  | some p => (readModel tree ⟨p⟩).mapError .load
  | none => do
    let selection ← (args.selection tree load).mapError .usage
    (loadSelected tree selection).mapError .load

def draw (diagram : DiagramKind) (options : RenderingOptions) (packages : List Package) : String :=
  match diagram with
  | .classDiagram => Diagram.classDiagram options packages
  | .packageDiagram => Diagram.packageDiagram options packages

/-- The document that the arguments ask for. -/
def document (args : Arguments) (tree : Tree) : Except CommandError String := do
  let file ← (FileConfig.find tree (args.setting? .config)).mapError .configFile
  let options ← (args.options file).mapError .option
  let packages ← args.packages tree file.load
  return draw args.diagram options packages

/-! ### Output -/

/-- Where a document goes. -/
inductive Destination where
  | standardOutput
  | file (path : Path)
  deriving DecidableEq

/-- What a document is written to: whether it lets a file be opened for writing, and how many bytes
it takes before it breaks off, if it does. -/
structure Device where
  opens : Bool := true
  capacity : Option Nat := none
  deriving DecidableEq, Inhabited

namespace Device

/-- Whether a text is written as a whole. -/
def takes (device : Device) (text : String) : Bool :=
  match device.capacity with
  | none => true
  | some n => text.utf8ByteSize ≤ n

/-- What a file holds after a text was written to it, or the beginning of one. -/
def written (device : Device) (text : String) : Contents :=
  match device.capacity with
  | none => .text text
  | some n =>
    if text.utf8ByteSize ≤ n then .text text else .ofBytes (text.toUTF8.extract 0 n)

end Device

def destination (args : Arguments) : Destination :=
  match args.setting? .output with
  | some p => .file ⟨p⟩
  | none => .standardOutput

/-- A document that was written: its text, where it went, and the files after that. -/
structure Outcome where
  text : String
  destination : Destination
  tree : Tree

/-- A computation that may fail and changes files. -/
abbrev Running := ExceptT CommandError (StateM Tree)

/-- Writes a document to its destination. A file that is opened is cut off to nothing before
anything is written to it. -/
def deliver (device : Device) (text : String) : Destination → Running Unit
  | .standardOutput => unless device.takes text do throw .unwritable
  | .file p => do
    unless device.opens do throw .unwritable
    match (← get).save? p (device.written text) with
    | some tree => set tree
    | none => throw .unwritable
    unless device.takes text do throw .unwritable

/-- Runs a command on the files it finds and leaves them as they are after it. -/
def perform (args : Arguments) (device : Device := {}) : Running Outcome := do
  let text ← args.document (← get)
  deliver device text args.destination
  return ⟨text, args.destination, ← get⟩

def run (args : Arguments) (tree : Tree) (device : Device := {}) : Except CommandError Outcome :=
  ((args.perform device).run.run tree).1

end Arguments

end GoUml
