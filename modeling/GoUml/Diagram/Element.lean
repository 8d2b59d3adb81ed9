import GoUml.Naming

/-!
# Diagram elements

A diagram is a list of elements. An element writes itself as lines at a depth: containers write
their children one level deeper and close at their own depth. Rendering is the one place where
elements become text.
-/

namespace GoUml.Diagram

open Text

/-- The kinds of relation line. -/
inductive RelationKind where
  | composition
  | implementation
  | aggregation
  | typeAlias
  | imports
  deriving DecidableEq

def RelationKind.connector : RelationKind → String
  | .composition => "*--"
  | .implementation => "<|--"
  | .aggregation => "o--"
  | .typeAlias => "#.."
  | .imports => "<--"

structure Relation where
  kind : RelationKind
  source : String
  target : String
  label : Option String := none
  deriving DecidableEq

def quoted (text : String) : String := "\"" ++ text ++ "\""

/-- The line of a relation without its label. -/
def Relation.arrow (r : Relation) : String :=
  quoted r.source ++ " " ++ r.kind.connector ++ " " ++ quoted r.target

/-- The line of a relation. -/
def Relation.text (r : Relation) : String :=
  match r.label with
  | some label => r.arrow ++ " : " ++ label
  | none => r.arrow

/-- A letter in a coloured circle. -/
structure Spot where
  letter : Char
  color : String
  deriving DecidableEq

/-- The first line of a class. -/
structure ClassHead where
  name : String
  identifier : Option String := none
  spot : Option Spot := none
  stereotype : Option String := none
  deriving DecidableEq

namespace ClassHead

/-- The spot and the stereotype, as far as they are given. -/
def marks (h : ClassHead) : List String :=
  (h.spot.map fun s => "(" ++ s.letter.toString ++ "," ++ s.color ++ ")").toList ++
    h.stereotype.toList

def text (h : ClassHead) : String :=
  "class " ++ quoted h.name ++
    (match h.identifier with
      | some identifier => " as " ++ identifier
      | none => "") ++
    (match h.marks with
      | [] => ""
      | marks => " << " ++ joinWith " " marks ++ " >>")

end ClassHead

/-- The line of a method; an unnamed parameter is its type alone. -/
structure MethodLine where
  name : String
  params : List (String × String)
  results : List String
  deriving DecidableEq

/-- The mark of a member: a minus for a private one, a plus for the others. -/
def visibilityMark (name : String) : String := if isPrivate name then "-" else "+"

namespace MethodLine

def text (m : MethodLine) : String :=
  let params := m.params.map fun (name, type) => if name == "" then type else name ++ " " ++ type
  visibilityMark m.name ++ " " ++ m.name ++ "(" ++ joinWith ", " params ++ ")" ++
    (match m.results with
      | [] => ""
      | [result] => " " ++ result
      | results => " (" ++ joinWith ", " results ++ ")")

end MethodLine

inductive Element where
  | namespaceBlock (name : String) (children : List Element)
  | classBlock (head : ClassHead) (children : List Element)
  | interfaceBlock (name : String) (children : List Element)
  | title (text : String)
  | theme (name : String)
  | legend (lines : List String)
  | comment (text : String)
  | field (name type : String)
  | method (line : MethodLine)
  | relation (r : Relation)

/-! ### Lines -/

/-- A line at a depth, indented by four blanks for each level. -/
def lineAt (depth : Nat) (text : String) : String := spaces (4 * depth) ++ text

/-- A header, the lines of the children and a closing brace. -/
def blockLines (depth : Nat) (header : String) (inner : List String) : List String :=
  lineAt depth (header ++ " \x7b") :: inner ++ [lineAt depth "\x7d"]

/-- The themes whose icons are made smaller. -/
def smallIconThemes : List String :=
  ["reddress-darkblue", "reddress-darkgreen", "reddress-darkorange", "reddress-darkred",
   "reddress-lightblue", "reddress-lightgreen", "reddress-lightorange", "reddress-lightred"]

/-- The directive of a theme, with a smaller icon size where it needs one. -/
def themeLines (depth : Nat) (name : String) : List String :=
  lineAt depth ("!theme " ++ name) ::
    if smallIconThemes.contains name then
      blockLines depth "skinparam class" [lineAt (depth + 1) "attributeIconSize 8"]
    else []

mutual

/-- The lines of an element at a depth. -/
def Element.lines (depth : Nat) : Element → List String
  | .namespaceBlock name children =>
    blockLines depth ("namespace " ++ name) (elementLines (depth + 1) children)
  | .classBlock head children => blockLines depth head.text (elementLines (depth + 1) children)
  | .interfaceBlock name children =>
    blockLines depth ("interface " ++ name) (elementLines (depth + 1) children)
  | .title text => [lineAt depth ("title " ++ text)]
  | .theme name => themeLines depth name
  | .legend lines =>
    lineAt depth "legend" :: lines.map (lineAt (depth + 1)) ++ [lineAt depth "end legend"]
  | .comment text => [lineAt depth ("' " ++ text)]
  | .field name type => [lineAt depth (visibilityMark name ++ " " ++ name ++ " " ++ type)]
  | .method line => [lineAt depth line.text]
  | .relation r => [lineAt depth r.text]

/-- The lines of a list of elements at a depth. -/
def elementLines (depth : Nat) : List Element → List String
  | [] => []
  | e :: rest => e.lines depth ++ elementLines depth rest

end

/-- Lines as text, each ended by a line break. -/
def textOfLines (lines : List String) : String := concat (lines.map (· ++ "\n"))

/-- The lines of a whole diagram. -/
def documentLines (elements : List Element) : List String :=
  "@startuml" :: elementLines 0 elements ++ ["@enduml"]

/-- The text of a whole diagram. -/
def render (elements : List Element) : String := textOfLines (documentLines elements)

end GoUml.Diagram
