import GoUml.Json.Parser
import GoUml.Json.Record
import GoUml.Text.Basic

/-!
# Rendering options

What a diagram shows, and the text around it. An option is set by its key, with a value of the kind
that the key takes; a value of another kind or an unknown key is refused and changes nothing.
-/

namespace GoUml

open Json

structure RenderingOptions where
  title : String := ""
  notes : List String := []
  theme : String := ""
  fields : Bool := true
  methods : Bool := true
  compositions : Bool := true
  implementations : Bool := true
  aggregations : Bool := true
  aliases : Bool := true
  connectionLabels : Bool := false
  aggregatePrivateMembers : Bool := false
  privateMembers : Bool := true
  deriving DecidableEq, Inhabited

/-- The options that are on or off. -/
inductive Toggle where
  | fields | methods | compositions | implementations | aggregations | aliases
  | connectionLabels | aggregatePrivateMembers | privateMembers
  deriving DecidableEq

namespace Toggle

def get (o : RenderingOptions) : Toggle → Bool
  | fields => o.fields
  | methods => o.methods
  | compositions => o.compositions
  | implementations => o.implementations
  | aggregations => o.aggregations
  | aliases => o.aliases
  | connectionLabels => o.connectionLabels
  | aggregatePrivateMembers => o.aggregatePrivateMembers
  | privateMembers => o.privateMembers

def put (o : RenderingOptions) (value : Bool) : Toggle → RenderingOptions
  | fields => { o with fields := value }
  | methods => { o with methods := value }
  | compositions => { o with compositions := value }
  | implementations => { o with implementations := value }
  | aggregations => { o with aggregations := value }
  | aliases => { o with aliases := value }
  | connectionLabels => { o with connectionLabels := value }
  | aggregatePrivateMembers => { o with aggregatePrivateMembers := value }
  | privateMembers => { o with privateMembers := value }

end Toggle

inductive OptionKey where
  | title
  | notes
  | theme
  | toggle (t : Toggle)
  deriving DecidableEq

namespace OptionKey

/-- The keys in their order of declaration. -/
def all : List OptionKey :=
  [title, notes, theme, toggle .fields, toggle .methods, toggle .compositions,
   toggle .implementations, toggle .aggregations, toggle .aliases, toggle .connectionLabels,
   toggle .aggregatePrivateMembers, toggle .privateMembers]

def word : OptionKey → String
  | title => "title"
  | notes => "notes"
  | theme => "theme"
  | toggle .fields => "fields"
  | toggle .methods => "methods"
  | toggle .compositions => "compositions"
  | toggle .implementations => "implementations"
  | toggle .aggregations => "aggregations"
  | toggle .aliases => "aliases"
  | toggle .connectionLabels => "connection_labels"
  | toggle .aggregatePrivateMembers => "aggregate_private_members"
  | toggle .privateMembers => "private_members"

def ofWord? (word : String) : Option OptionKey := all.find? (·.word == word)

end OptionKey

/-! ### Setting an option -/

inductive OptionValue where
  | bool (value : Bool)
  | text (value : String)
  | list (values : List String)
  deriving DecidableEq

/-- The kinds of value that are asked for. -/
inductive ValueKind where
  | boolean
  | text
  | textOrList
  | booleanTextOrTexts
  deriving DecidableEq

def ValueKind.words : ValueKind → String
  | .boolean => "boolean"
  | .text => "text"
  | .textOrList => "text or list"
  | .booleanTextOrTexts => "boolean, string or list of strings"

inductive OptionError where
  | unknownOption (key : String)
  | invalidValue (key : String) (expected : ValueKind)
  deriving DecidableEq

def OptionError.message : OptionError → String
  | .unknownOption key => "Unknown rendering option: " ++ key
  | .invalidValue key expected =>
    "Invalid value for rendering option '" ++ key ++ "': expected " ++ expected.words

namespace RenderingOptions

/-- The options with one value assigned. Notes given as one text are cut into lines. -/
def assign (o : RenderingOptions) (key : OptionKey) (value : OptionValue) :
    Except OptionError RenderingOptions :=
  match key, value with
  | .title, .text text => .ok { o with title := text }
  | .title, _ => .error (.invalidValue key.word .text)
  | .theme, .text text => .ok { o with theme := text }
  | .theme, _ => .error (.invalidValue key.word .text)
  | .notes, .list lines => .ok { o with notes := lines }
  | .notes, .text text => .ok { o with notes := Text.lines text }
  | .notes, .bool _ => .error (.invalidValue key.word .textOrList)
  | .toggle t, .bool value => .ok (t.put o value)
  | .toggle _, _ => .error (.invalidValue key.word .boolean)

/-- The options with the value of `key` assigned. -/
def set (o : RenderingOptions) (key : String) (value : OptionValue) :
    Except OptionError RenderingOptions :=
  match OptionKey.ofWord? key with
  | some k => o.assign k value
  | none => .error (.unknownOption key)

/-- Turns every kind of edge on or off. -/
def withConnections (o : RenderingOptions) (shown : Bool) : RenderingOptions :=
  { o with compositions := shown, implementations := shown, aggregations := shown,
           aliases := shown }

/-- Whether any kind of edge is shown. -/
def anyConnections (o : RenderingOptions) : Bool :=
  o.compositions || o.implementations || o.aggregations || o.aliases

/-- Assigns one slot of a record; an absent one leaves the option as it is. -/
def assignJson? (o : RenderingOptions) (key : OptionKey) : Option Json → Option RenderingOptions
  | none => some o
  | some (.string text) =>
    match key with
    | .title => some { o with title := text }
    | .theme => some { o with theme := text }
    | _ => none
  | some (.bool value) =>
    match key with
    | .toggle t => some (t.put o value)
    | _ => none
  | some (.array items) =>
    match key with
    | .notes => (items.mapM string?).map fun notes => { o with notes := notes }
    | _ => none
  | some _ => none

/-- The options that a record writes; those left out have their default. A member that is no option
is refused. -/
def ofJson? (j : Json) : Option RenderingOptions := do
  let known := OptionKey.all.map (·.word)
  match j with
  | .object members => if members.any fun m => !known.contains m.1 then none else pure ()
  | _ => pure ()
  let slots ← slots? known j
  (OptionKey.all.zip slots).foldlM (fun o (key, slot) => assignJson? o key slot) {}

def parse? (text : String) : Option RenderingOptions := do ofJson? (← Json.parse? text)

/-- The value of one option. -/
def valueJson (o : RenderingOptions) : OptionKey → Json
  | .title => .string o.title
  | .notes => Json.strings o.notes
  | .theme => .string o.theme
  | .toggle t => .bool (t.get o)

def toJson (o : RenderingOptions) : Json :=
  .object (OptionKey.all.map fun key => (key.word, o.valueJson key))

end RenderingOptions

/-! ### Legend lines -/

def onOff (value : Bool) : String := if value then "true" else "false"

/-- Legend lines that say what the options show. -/
def RenderingOptions.legend (o : RenderingOptions) : List String :=
  let shown : List (String × Bool) :=
    [("Fields", o.fields), ("Methods", o.methods), ("Compositions", o.compositions),
     ("Implementations", o.implementations), ("Aggregations", o.aggregations),
     ("Aliases", o.aliases), ("Connection Labels", o.connectionLabels),
     ("Private Members", o.privateMembers)]
  "<u><b>Legend</b></u>" ::
    shown.map (fun (category, value) => "Render " ++ category ++ ": " ++ onOff value) ++
    ["Private Aggregations: " ++ onOff o.aggregatePrivateMembers]

/-- Legend lines for notes: a blank line, a heading and the trimmed notes that are not blank, or
nothing when there are none. -/
def noteLines (notes : List String) : List String :=
  match (notes.map Text.trim).filter (fun note => note != "") with
  | [] => []
  | kept => "" :: "<b><u>Notes</u></b>" :: kept

end GoUml
