import GoUml.Text.Basic

/-!
# Command line arguments

The command line names a diagram, and behind it the directories and settings; the settings that say
where the configuration is and what is logged may also stand in front. Arguments are read from left
to right. The value of a setting is checked when the next argument has been looked at, so an
argument that is not known is reported before a value that is missing.
-/

namespace GoUml

open Text

/-- The diagrams that can be asked for. -/
inductive DiagramKind where
  | classDiagram
  | packageDiagram
  deriving DecidableEq

/-- Settings that are given at most once, with a value. -/
inductive Setting where
  | config | logLevel | fromJson | title | output | theme
  deriving DecidableEq

/-- Settings whose values are lists; they may be given several times. -/
inductive ListSetting where
  | ignore | notes
  deriving DecidableEq

/-- Settings without a value. -/
inductive Flag where
  | recursive
  | aggregatePrivateMembers
  | showAggregations | showCompositions | showImplementations | showAliases | showConnectionLabels
  | hideFields | hideMethods | hideConnections | hidePrivateMembers
  | showOptionsAsNotes
  deriving DecidableEq

/-- What a command line asks for. -/
structure Arguments where
  diagram : DiagramKind
  directories : List String
  settings : List (Setting × String)
  lists : List (ListSetting × List String)
  flags : List Flag
  deriving DecidableEq

namespace Arguments

def setting? (args : Arguments) (s : Setting) : Option String :=
  (args.settings.find? fun e => e.1 == s).map (·.2)

def list (args : Arguments) (s : ListSetting) : List String :=
  (args.lists.filter fun e => e.1 == s).flatMap (·.2)

def has (args : Arguments) (f : Flag) : Bool := args.flags.contains f

def logLevel (args : Arguments) : String := (args.setting? .logLevel).getD "warn"

end Arguments

/-- Why arguments give no command to run. -/
inductive ArgumentError where
  | displayHelp
  | displayVersion
  | displayHelpOnMissingSubcommand
  | missingSubcommand
  | invalidSubcommand
  | unknownArgument
  | invalidValue
  | argumentConflict
  | tooManyValues
  deriving DecidableEq

namespace Arguments

/-- What a name on the command line stands for. -/
inductive Name where
  | help
  | version
  | flag (flag : Flag)
  | setting (setting : Setting)
  | list (setting : ListSetting)
  deriving DecidableEq

/-- Where an argument stands: in front of the diagram or behind it. -/
abbrev Position := Option DiagramKind

/-- The names that can stand everywhere. -/
def sharedNames : List (String × Name) :=
  [("help", .help), ("config", .setting .config), ("log-level", .setting .logLevel)]

/-- The names that can stand behind any diagram. -/
def sourceNames : List (String × Name) :=
  [("ignore", .list .ignore), ("recursive", .flag .recursive), ("from-json", .setting .fromJson),
   ("title", .setting .title), ("output", .setting .output), ("theme", .setting .theme)]

/-- The names that can stand behind a class diagram. -/
def classNames : List (String × Name) :=
  [("notes", .list .notes),
   ("aggregate-private-members", .flag .aggregatePrivateMembers),
   ("show-aggregations", .flag .showAggregations),
   ("show-compositions", .flag .showCompositions),
   ("show-implementations", .flag .showImplementations),
   ("show-aliases", .flag .showAliases),
   ("show-connection-labels", .flag .showConnectionLabels),
   ("hide-fields", .flag .hideFields),
   ("hide-methods", .flag .hideMethods),
   ("hide-connections", .flag .hideConnections),
   ("hide-private-members", .flag .hidePrivateMembers),
   ("show-options-as-notes", .flag .showOptionsAsNotes)]

def longNames : Position → List (String × Name)
  | none => sharedNames ++ [("version", .version)]
  | some .packageDiagram => sharedNames ++ sourceNames
  | some .classDiagram => sharedNames ++ sourceNames ++ classNames

def shortNames : Position → List (Char × Name)
  | none => [('h', .help), ('c', .setting .config), ('V', .version)]
  | some _ => [('h', .help), ('c', .setting .config), ('o', .setting .output)]

def diagramNamed? (word : String) : Option DiagramKind :=
  if word == "class" then some .classDiagram
  else if word == "package" then some .packageDiagram
  else none

/-! ### Values -/

/-- What has been read at one position. A setting that takes a value waits until the next argument
has been looked at. -/
structure Progress where
  directories : List String := []
  settings : List (Setting × String) := []
  lists : List (ListSetting × List String) := []
  flags : List Flag := []
  waiting : Option (Name × Option String) := none

namespace Progress

/-- Stores the value of a setting. Only a list can be given again. -/
def store (p : Progress) (name : Name) (value : String) : Except ArgumentError Progress :=
  match name with
  | .setting s =>
    if p.settings.any (fun e => e.1 == s) then .error .argumentConflict
    else .ok { p with settings := p.settings ++ [(s, value)] }
  | .list s => .ok { p with lists := p.lists ++ [(s, split ',' value)] }
  | _ => .ok p

/-- Stores the setting that waits; one without a value is refused. -/
def settle (p : Progress) : Except ArgumentError Progress :=
  match p.waiting with
  | none => .ok p
  | some (_, none) => .error .invalidValue
  | some (name, some value) => ({ p with waiting := none } : Progress).store name value

/-- Whether a setting waits for the next argument. -/
def awaitsValue (p : Progress) : Bool :=
  match p.waiting with
  | some (_, none) => true
  | _ => false

def raise (p : Progress) (f : Flag) : Except ArgumentError Progress :=
  if p.flags.contains f then .error .argumentConflict
  else .ok { p with flags := p.flags ++ [f] }

/-- Takes a name that has no value with it. -/
def takeName (p : Progress) (name : Name) : Except ArgumentError Progress := do
  let p ← p.settle
  match name with
  | .help => .error .displayHelp
  | .version => .error .displayVersion
  | .flag f => p.raise f
  | .setting _ | .list _ => .ok { p with waiting := some (name, none) }

/-- Takes a name with a value behind an equals sign. -/
def takeValue (p : Progress) (name : Name) (value : String) : Except ArgumentError Progress :=
  match name with
  | .setting _ | .list _ => do (← p.settle).store name value
  | _ => .error .tooManyValues

/-- Reads an argument behind its two dashes. -/
def takeLong (p : Progress) (position : Position) (text : List Char) :
    Except ArgumentError Progress :=
  let name := String.ofList (text.takeWhile (· ≠ '='))
  match (longNames position).find? fun e => e.1 == name with
  | none => .error .unknownArgument
  | some (_, name) =>
    match text.dropWhile (· ≠ '=') with
    | [] => p.takeName name
    | _ :: value => p.takeValue name (String.ofList value)

/-- Reads an argument behind its one dash: letters, of which one that takes a value takes the rest,
perhaps behind an equals sign. -/
def takeShort (p : Progress) (position : Position) : List Char → Except ArgumentError Progress
  | [] => .ok p
  | letter :: rest =>
    match (shortNames position).find? fun e => e.1 == letter with
    | none => .error .unknownArgument
    | some (_, name) =>
      match name, rest with
      | .setting _, '=' :: value => p.takeValue name (String.ofList value)
      | .setting _, c :: value => p.takeValue name (String.ofList (c :: value))
      | name, rest => do takeShort (← p.takeName name) position rest

/-- Reads an argument with a dash in front; nothing for any other argument. A lone dash is none of
these. -/
def takeDashed? (p : Progress) (position : Position) (arg : String) :
    Option (Except ArgumentError Progress) :=
  match arg.toList with
  | '-' :: '-' :: text => some (p.takeLong position text)
  | ['-'] => none
  | '-' :: text => some (p.takeShort position text)
  | _ => none

def takeDirectory (p : Progress) (directory : String) : Except ArgumentError Progress := do
  let p ← p.settle
  return { p with directories := p.directories ++ [directory] }

/-- Gives the argument to the setting that waits for it. -/
def giveValue (p : Progress) (arg : String) : Progress :=
  { p with waiting := p.waiting.map fun w => (w.1, some arg) }

/-- Reads what stands behind a diagram. Behind two dashes all arguments are directories. -/
def behind (diagram : DiagramKind) : List String → Progress → Except ArgumentError Progress
  | [], p => p.settle
  | arg :: rest, p =>
    if arg == "--" then do (← rest.foldlM takeDirectory p).settle
    else match p.takeDashed? (some diagram) arg with
      | some taken => do behind diagram rest (← taken)
      | none =>
        if p.awaitsValue then behind diagram rest (p.giveValue arg)
        else do behind diagram rest (← p.takeDirectory arg)

end Progress

/-! ### The whole command line -/

/-- Asking for help about subcommands that exist shows it. -/
def helpAbout : List String → ArgumentError
  | [] => .displayHelp
  | [word] =>
    if (diagramNamed? word).isSome || word == "help" then .displayHelp else .invalidSubcommand
  | ["help", word] =>
    if (diagramNamed? word).isSome || word == "help" then .displayHelp else .invalidSubcommand
  | _ => .invalidSubcommand

/-- Arguments of a diagram; what stands behind it counts before what stands in front. -/
def ofProgress (diagram : DiagramKind) (front behind : Progress) : Arguments :=
  ⟨diagram, behind.directories, behind.settings ++ front.settings, behind.lists, behind.flags⟩

/-- Reads the arguments from the front. What two dashes set apart is no subcommand. -/
def readFront : List String → Progress → Except ArgumentError Arguments
  | [], p => do
    let _ ← p.settle
    .error .missingSubcommand
  | arg :: rest, p =>
    if !p.awaitsValue && (diagramNamed? arg).isSome then
      match diagramNamed? arg with
      | some diagram => do
        let behind ← Progress.behind diagram rest {}
        return ofProgress diagram (← p.settle) behind
      | none => .error .invalidSubcommand
    else if !p.awaitsValue && arg == "help" then .error (helpAbout rest)
    else if arg == "--" then
      match rest with
      | [] => do
        let _ ← p.settle
        .error .missingSubcommand
      | word :: _ =>
        if (diagramNamed? word).isSome || word == "help" then .error .unknownArgument
        else .error .invalidSubcommand
    else match p.takeDashed? none arg with
      | some taken => do readFront rest (← taken)
      | none =>
        if p.awaitsValue then readFront rest (p.giveValue arg) else .error .invalidSubcommand

/-- Reads a command line without the name of the program. -/
def parse : List String → Except ArgumentError Arguments
  | [] => .error .displayHelpOnMissingSubcommand
  | args => readFront args {}

end Arguments

end GoUml
