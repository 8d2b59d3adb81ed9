import GoUml.Json.Basic
import GoUml.Text.Basic

/-!
# Writing JSON text

Two forms: one line without blanks, and the indented form with two blanks for each level, an item
to a line, and empty containers kept closed. Strings escape the quote, the backslash and control
characters and write everything else as it is.
-/

namespace GoUml.Json

open Text

def hexDigit (n : Nat) : Char :=
  if n < 10 then Char.ofNat ('0'.toNat + n) else Char.ofNat ('a'.toNat + (n - 10))

/-- How one character stands in a string. -/
def escapeChar (c : Char) : List Char :=
  if c == '"' then ['\\', '"']
  else if c == '\\' then ['\\', '\\']
  else if c == Char.ofNat 8 then ['\\', 'b']
  else if c == Char.ofNat 12 then ['\\', 'f']
  else if c == '\n' then ['\\', 'n']
  else if c == '\r' then ['\\', 'r']
  else if c == '\t' then ['\\', 't']
  else if c.toNat < 0x20 then
    ['\\', 'u', '0', '0', hexDigit (c.toNat / 16), hexDigit (c.toNat % 16)]
  else [c]

/-- The text in quotes. -/
def quote (text : String) : String :=
  String.ofList ('"' :: text.toList.flatMap escapeChar ++ ['"'])

mutual

/-- The value on one line. -/
def compact : Json → String
  | .null => "null"
  | .bool value => if value then "true" else "false"
  | .number literal => literal
  | .string value => quote value
  | .array items => "[" ++ joinWith "," (compactItems items) ++ "]"
  | .object members => "\x7b" ++ joinWith "," (compactMembers members) ++ "\x7d"

def compactItems : List Json → List String
  | [] => []
  | item :: rest => item.compact :: compactItems rest

def compactMembers : List (String × Json) → List String
  | [] => []
  | member :: rest => (quote member.1 ++ ":" ++ member.2.compact) :: compactMembers rest

end

/-- A container whose items stand on lines of their own, one level deeper than `depth`. -/
def block (opening closing : String) (depth : Nat) : List String → String
  | [] => opening ++ closing
  | items =>
    opening ++ "\n" ++
      joinWith ",\n" (items.map fun item => spaces (2 * (depth + 1)) ++ item) ++
      "\n" ++ spaces (2 * depth) ++ closing

mutual

/-- The value in indented form; its first line is not indented, the others are at least by
`depth` levels. -/
def prettyAt (depth : Nat) : Json → String
  | .null => "null"
  | .bool value => if value then "true" else "false"
  | .number literal => literal
  | .string value => quote value
  | .array items => block "[" "]" depth (prettyItems (depth + 1) items)
  | .object members => block "\x7b" "\x7d" depth (prettyMembers (depth + 1) members)

def prettyItems (depth : Nat) : List Json → List String
  | [] => []
  | item :: rest => prettyAt depth item :: prettyItems depth rest

def prettyMembers (depth : Nat) : List (String × Json) → List String
  | [] => []
  | member :: rest =>
    (quote member.1 ++ ": " ++ prettyAt depth member.2) :: prettyMembers depth rest

end

/-- The value in indented form. -/
def pretty (v : Json) : String := prettyAt 0 v

end GoUml.Json
