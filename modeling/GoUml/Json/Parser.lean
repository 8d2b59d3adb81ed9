import GoUml.Json.Basic

/-!
# Reading JSON text

The reader takes the text of one value with nothing but white space around it. It is strict: no
comments, no trailing commas, no raw control characters in strings and no surrogate that stands
alone. Values nest at most as deep as the caller allows, and the reader recurses on that depth.
-/

namespace GoUml.Json

def isSpace (c : Char) : Bool := c == ' ' || c == '\t' || c == '\r' || c == '\n'

def skipSpace (cs : List Char) : List Char := cs.dropWhile isSpace

def isDigit (c : Char) : Bool := '0' ≤ c && c ≤ '9'

def hexDigit? (c : Char) : Option Nat :=
  if '0' ≤ c && c ≤ '9' then some (c.toNat - '0'.toNat)
  else if 'a' ≤ c && c ≤ 'f' then some (c.toNat - 'a'.toNat + 10)
  else if 'A' ≤ c && c ≤ 'F' then some (c.toNat - 'A'.toNat + 10)
  else none

/-- The number that four hexadecimal digits write. -/
def hexUnit? (a b c d : Char) : Option Nat := do
  let a ← hexDigit? a
  let b ← hexDigit? b
  let c ← hexDigit? c
  let d ← hexDigit? d
  return ((a * 16 + b) * 16 + c) * 16 + d

/-- The character that a one-letter escape stands for. -/
def shortEscape? (c : Char) : Option Char :=
  if c == '"' then some '"'
  else if c == '\\' then some '\\'
  else if c == '/' then some '/'
  else if c == 'b' then some (Char.ofNat 8)
  else if c == 'f' then some (Char.ofNat 12)
  else if c == 'n' then some '\n'
  else if c == 'r' then some '\r'
  else if c == 't' then some '\t'
  else none

def isHighSurrogate (n : Nat) : Bool := 0xD800 ≤ n && n ≤ 0xDBFF

def isLowSurrogate (n : Nat) : Bool := 0xDC00 ≤ n && n ≤ 0xDFFF

/-- The character that a high and a low surrogate stand for. -/
def joinSurrogates (high low : Nat) : Char :=
  Char.ofNat (0x10000 + (high - 0xD800) * 0x400 + (low - 0xDC00))

/-- What is left of a string up to its closing quote, and the text after the quote. -/
def stringRest : List Char → Option (List Char × List Char)
  | [] => none
  | '"' :: rest => some ([], rest)
  | '\\' :: 'u' :: a :: b :: c :: d :: rest =>
    match hexUnit? a b c d with
    | none => none
    | some unit =>
      if isHighSurrogate unit then
        match rest with
        | '\\' :: 'u' :: e :: f :: g :: h :: rest =>
          match hexUnit? e f g h with
          | none => none
          | some low =>
            if isLowSurrogate low then
              (stringRest rest).map fun (text, after) => (joinSurrogates unit low :: text, after)
            else none
        | _ => none
      else if isLowSurrogate unit then none
      else (stringRest rest).map fun (text, after) => (Char.ofNat unit :: text, after)
  | '\\' :: c :: rest =>
    match shortEscape? c with
    | none => none
    | some escaped => (stringRest rest).map fun (text, after) => (escaped :: text, after)
  | c :: rest =>
    if c == '\\' || c.toNat < 0x20 then none
    else (stringRest rest).map fun (text, after) => (c :: text, after)

/-! ### Numbers -/

/-- One or more digits and the text after them. -/
def digits? (cs : List Char) : Option (List Char × List Char) :=
  match cs.takeWhile isDigit with
  | [] => none
  | run => some (run, cs.dropWhile isDigit)

/-- An integer part: a single zero, or digits that do not begin with zero. -/
def integerPart? (cs : List Char) : Option (List Char × List Char) :=
  match cs with
  | '0' :: rest => some (['0'], rest)
  | _ => digits? cs

/-- A point and digits, or nothing. -/
def fraction? (cs : List Char) : Option (List Char × List Char) :=
  match cs with
  | '.' :: rest => (digits? rest).map fun (run, after) => ('.' :: run, after)
  | _ => some ([], cs)

/-- A sign, or nothing. -/
def sign (cs : List Char) : List Char × List Char :=
  match cs with
  | '+' :: rest => (['+'], rest)
  | '-' :: rest => (['-'], rest)
  | _ => ([], cs)

/-- An exponent mark, an optional sign and digits, or nothing. -/
def exponent? (cs : List Char) : Option (List Char × List Char) :=
  match cs with
  | [] => some ([], [])
  | c :: rest =>
    if c == 'e' || c == 'E' then
      let (mark, rest) := sign rest
      (digits? rest).map fun (run, after) => (c :: mark ++ run, after)
    else some ([], cs)

/-- A number and the text after it. -/
def number? (cs : List Char) : Option (Json × List Char) := do
  let (minus, rest) := match cs with
    | '-' :: rest => (['-'], rest)
    | _ => ([], cs)
  let (whole, rest) ← integerPart? rest
  let (fraction, rest) ← fraction? rest
  let (exponent, rest) ← exponent? rest
  return (.number (String.ofList (minus ++ whole ++ fraction ++ exponent)), rest)

/-! ### Containers -/

/-- One or more items separated by commas, up to `close`. Each item that is read leaves less text,
which is what ends the recursion. -/
def itemsUntil {α : Type} (item : List Char → Option (α × List Char)) (close : Char)
    (cs : List Char) : Option (List α × List Char) :=
  match item cs with
  | none => none
  | some (first, rest) =>
    match skipSpace rest with
    | [] => none
    | c :: rest =>
      if c == close then some ([first], rest)
      else if c == ',' ∧ rest.length < cs.length then
        (itemsUntil item close rest).map fun (more, after) => (first :: more, after)
      else none
termination_by cs.length
decreasing_by simp_all

/-- The items of a container whose opening bracket has been read. -/
def containerRest {α : Type} (item : List Char → Option (α × List Char)) (close : Char)
    (cs : List Char) : Option (List α × List Char) :=
  match skipSpace cs with
  | [] => none
  | c :: rest => if c == close then some ([], rest) else itemsUntil item close (c :: rest)

/-- A name, a colon and a value. -/
def member (value : List Char → Option (Json × List Char)) (cs : List Char) :
    Option ((String × Json) × List Char) :=
  match skipSpace cs with
  | '"' :: rest =>
    match stringRest rest with
    | none => none
    | some (name, rest) =>
      match skipSpace rest with
      | ':' :: rest => (value rest).map fun (v, after) => ((String.ofList name, v), after)
      | _ => none
  | _ => none

/-- A value that nests at most `depth` deep, and the text after it. -/
def value : (depth : Nat) → List Char → Option (Json × List Char)
  | depth, cs =>
    match skipSpace cs with
    | '[' :: rest =>
      match depth with
      | 0 => none
      | depth + 1 => (containerRest (value depth) ']' rest).map fun (items, after) =>
          (.array items, after)
    | '\x7b' :: rest =>
      match depth with
      | 0 => none
      | depth + 1 => (containerRest (member (value depth)) '\x7d' rest).map fun (members, after) =>
          (.object members, after)
    | '"' :: rest =>
      (stringRest rest).map fun (text, after) => (.string (String.ofList text), after)
    | 'n' :: 'u' :: 'l' :: 'l' :: rest => some (.null, rest)
    | 't' :: 'r' :: 'u' :: 'e' :: rest => some (.bool true, rest)
    | 'f' :: 'a' :: 'l' :: 's' :: 'e' :: rest => some (.bool false, rest)
    | rest => number? rest

/-- How deep values may nest. -/
def maxNesting : Nat := 127

/-- The value that a text writes, nested at most `depth` deep. -/
def parseNested? (depth : Nat) (text : String) : Option Json :=
  match value depth text.toList with
  | some (v, rest) => if (skipSpace rest).isEmpty then some v else none
  | none => none

/-- The value that a text writes. -/
def parse? (text : String) : Option Json := parseNested? maxNesting text

end GoUml.Json
