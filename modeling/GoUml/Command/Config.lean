import GoUml.Files.Tree
import GoUml.Options
import GoUml.Table
import GoUml.Toml.Parser

/-!
# Configuration files

A configuration file has a table of rendering options, whose keys and values are checked when they
are applied, and a table that says how directories are selected. It has nothing else.
-/

namespace GoUml

/-- How a configuration file selects directories. -/
structure LoadConfig where
  recursive : Bool := false
  ignore : List String := []
  deriving DecidableEq, Inhabited

structure FileConfig where
  rendering : Table Toml := Table.empty
  load : LoadConfig := {}

/-- Why a configuration file cannot be used. -/
inductive ConfigFileError where
  | malformed
  | missing (path : Path)
  | unreadable (path : Path)
  deriving DecidableEq

/-- What the error says, where the text is the library's own. -/
def ConfigFileError.message? : ConfigFileError → Option String
  | .missing p => some ("Missing configuration file: " ++ p.text)
  | .malformed | .unreadable _ => none

namespace LoadConfig

def addEntry (config : LoadConfig) : String × Toml → Option LoadConfig
  | ("recursive", value) => value.boolean?.map ({ config with recursive := · })
  | ("ignore", value) => value.strings?.map ({ config with ignore := · })
  | _ => none

/-- A table with the two settings, or a list of them in their order. -/
def ofToml? : Toml → Option LoadConfig
  | .table entries => entries.foldlM addEntry {}
  | .array items => (["recursive", "ignore"].zip items).foldlM addEntry {}
  | _ => none

end LoadConfig

namespace FileConfig

def addEntry (config : FileConfig) : String × Toml → Option FileConfig
  | ("rendering", value) => value.table?.map fun entries =>
    { config with rendering := Table.ofList entries }
  | ("load", value) => (LoadConfig.ofToml? value).map ({ config with load := · })
  | _ => none

def parse? (text : String) : Option FileConfig := do
  (← Toml.parse? text).foldlM addEntry {}

def ofFile (tree : Tree) (p : Path) : Except ConfigFileError FileConfig :=
  if tree.contains p then
    match tree.text? p with
    | none => .error (.unreadable p)
    | some text =>
      match parse? text with
      | none => .error .malformed
      | some config => .ok config
  else .error (.missing p)

/-- The configuration file that is used when none is named. -/
def standardPath : Path := ⟨"godiagram.toml"⟩

/-- The named file, else the one in the working directory, else nothing. -/
def find (tree : Tree) : Option String → Except ConfigFileError FileConfig
  | some named => ofFile tree ⟨named⟩
  | none => if tree.contains standardPath then ofFile tree standardPath else .ok {}

/-- The value of an option: a boolean, a string or a list of strings. -/
def optionValue (key : String) (value : Toml) : Except OptionError OptionValue :=
  match value with
  | .boolean b => .ok (.bool b)
  | .string s => .ok (.text s)
  | value =>
    match value.strings? with
    | some texts => .ok (.list texts)
    | none => .error (.invalidValue key .booleanTextOrTexts)

def applyEntry (options : RenderingOptions) (key : String) (value : Toml) :
    Except OptionError RenderingOptions := do
  options.set key (← optionValue key value)

/-- The options after the entries in front of the first one that is refused, and why it is. -/
def applyEntries : List (String × Toml) → RenderingOptions → RenderingOptions × Option OptionError
  | [], options => (options, none)
  | (key, value) :: rest, options =>
    match applyEntry options key value with
    | .error e => (options, some e)
    | .ok options => applyEntries rest options

/-- Applies the rendering options of the file in ascending order of key. -/
def apply (config : FileConfig) (options : RenderingOptions) :
    RenderingOptions × Option OptionError :=
  applyEntries config.rendering.entries options

end FileConfig

end GoUml
