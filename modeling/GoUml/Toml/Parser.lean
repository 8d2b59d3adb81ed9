import GoUml.Toml.Document
import GoUml.Toml.Scalar

/-!
# Reading TOML text

Statements stand on lines of their own. A value goes on over several lines only between the brackets
of an array. Arrays and inline tables nest at most 79 deep, and the reader recurses on that depth; a
key has at most 79 parts.
-/

namespace GoUml.Toml

open Text

def skipSpace (cs : List Char) : List Char := cs.dropWhile isSpace

/-- The text behind a comment, if one stands here. -/
def skipComment : List Char → List Char
  | '#' :: rest => rest.dropWhile isPlain
  | cs => cs

/-- What follows the end of a line, which a comment may stand in front of. -/
def afterLine? (cs : List Char) : Option (List Char) :=
  match skipComment (skipSpace cs) with
  | [] => some []
  | cs => afterNewline? cs

/-- Drops blanks, comments and line breaks in front. A comment ends with its line. -/
def skipLinesUpTo : Nat → List Char → Option (List Char)
  | 0, cs => some cs
  | limit + 1, cs =>
    match skipSpace cs with
    | [] => some []
    | '#' :: rest => (afterLine? ('#' :: rest)).bind (skipLinesUpTo limit)
    | cs =>
      match afterNewline? cs with
      | some rest => skipLinesUpTo limit rest
      | none => some cs

def skipLines? (cs : List Char) : Option (List Char) := skipLinesUpTo (cs.length + 1) cs

def isBareKey (c : Char) : Bool := isAsciiLetter c || isAsciiDigit c || c == '_' || c == '-'

/-- One part of a key. -/
def keyPart? (cs : List Char) : Option (String × List Char) :=
  match cs with
  | '"' :: _ => (quotedLine? cs).map fun (text, rest) => (String.ofList text, rest)
  | '\'' :: _ => (quotedLine? cs).map fun (text, rest) => (String.ofList text, rest)
  | _ =>
    let part := cs.takeWhile isBareKey
    if part.isEmpty then none else some (String.ofList part, cs.dropWhile isBareKey)

/-- The parts of a key with dots between neighbours; all but the last one lead the way. -/
def keyUpTo : Nat → List Char → Option (List String × String × List Char)
  | 0, _ => none
  | limit + 1, cs => do
    let (part, rest) ← keyPart? (skipSpace cs)
    match skipSpace rest with
    | '.' :: more =>
      let (path, key, rest) ← keyUpTo limit more
      return (part :: path, key, rest)
    | rest => return ([], part, rest)

def depthLimit : Nat := 79

def key? (cs : List Char) : Option (List String × String × List Char) := keyUpTo depthLimit cs

/-! ### Values -/

/-- Takes a value off the front of a text. -/
abbrev ValueReader := List Char → Option (Toml × List Char)

/-- A key, an equals sign and a value. -/
def assignment? (value : ValueReader) (cs : List Char) :
    Option ((List String × String × Toml) × List Char) := do
  let (path, key, rest) ← key? cs
  let (v, rest) ← value (skipSpace (← char? '=' rest))
  return ((path, key, v), rest)

/-- The items of an array behind its opening bracket; a comma may follow the last one. -/
def arrayUpTo (value : ValueReader) : Nat → List Char → Option (List Toml × List Char)
  | 0, _ => none
  | limit + 1, cs => do
    match ← skipLines? cs with
    | ']' :: rest => return ([], rest)
    | cs =>
      let (item, rest) ← value cs
      match ← skipLines? rest with
      | ',' :: rest =>
        let (items, rest) ← arrayUpTo value limit rest
        return (item :: items, rest)
      | ']' :: rest => return ([item], rest)
      | _ => none

/-- The rest of an inline table behind its opening brace or a comma. -/
def inlineUpTo (value : ValueReader) :
    Nat → List Char → Option (List (List String × String × Toml) × List Char)
  | 0, _ => none
  | limit + 1, cs => do
    let (assignment, rest) ← assignment? value cs
    match skipSpace rest with
    | ',' :: rest =>
      let (assignments, rest) ← inlineUpTo value limit rest
      return (assignment :: assignments, rest)
    | '\x7d' :: rest => return ([assignment], rest)
    | _ => none

def inline? (value : ValueReader) (cs : List Char) : Option (Toml × List Char) := do
  let (assignments, rest) ← match skipSpace cs with
    | '\x7d' :: rest => some ([], rest)
    | cs => inlineUpTo value (cs.length + 1) cs
  return (← inlineTable? assignments, rest)

/-- A value in which arrays and inline tables nest at most `depth` deep. -/
def valueUpTo : Nat → ValueReader
  | depth, cs =>
    match cs, depth with
    | '"' :: _, _ => (quoted? cs).map fun (text, rest) => (.string (String.ofList text), rest)
    | '\'' :: _, _ => (quoted? cs).map fun (text, rest) => (.string (String.ofList text), rest)
    | '[' :: rest, depth + 1 =>
      (arrayUpTo (valueUpTo depth) (rest.length + 1) rest).map fun (items, rest) =>
        (.array items, rest)
    | '\x7b' :: rest, depth + 1 => inline? (valueUpTo depth) rest
    | _, _ => bare? cs

def value? : ValueReader := valueUpTo depthLimit

/-! ### Statements -/

/-- The statement at the front, behind blanks. -/
def statement? : List Char → Option (Statement × List Char)
  | '[' :: '[' :: cs => do
    let (path, key, rest) ← key? cs
    let rest ← char? ']' (← char? ']' rest)
    return (.item path key, rest)
  | '[' :: cs => do
    let (path, key, rest) ← key? cs
    return (.header path key, ← char? ']' rest)
  | cs => do
    let ((path, key, value), rest) ← assignment? value? cs
    return (.assign path key value, rest)

def statementsUpTo : Nat → List Char → Option (List Statement)
  | 0, _ => none
  | limit + 1, cs => do
    match ← skipLines? cs with
    | [] => return []
    | cs =>
      let (statement, rest) ← statement? cs
      let statements ← statementsUpTo limit (← afterLine? rest)
      return statement :: statements

/-- The table that a text writes; a byte order mark may open it. -/
def parse? (text : String) : Option (List (String × Toml)) :=
  let cs := match text.toList with
    | '\ufeff' :: rest => rest
    | cs => cs
  (statementsUpTo (cs.length + 1) cs).bind ofStatements?

end GoUml.Toml
