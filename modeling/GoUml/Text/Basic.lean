/-!
# Text

Cutting and joining of text. Texts are `String`s; the cuts are made on their lists of characters,
where each is a plain recursion.
-/

namespace GoUml.Text

/-- White space in the sense of Unicode's `White_Space` property. -/
def isBlank (c : Char) : Bool :=
  let n := c.toNat
  (9 ≤ n && n ≤ 13) || n == 0x20 || n == 0x85 || n == 0xA0 || n == 0x1680 ||
    (0x2000 ≤ n && n ≤ 0x200A) || n == 0x2028 || n == 0x2029 || n == 0x202F || n == 0x205F ||
    n == 0x3000

def isAsciiDigit (c : Char) : Bool := '0' ≤ c && c ≤ '9'

def isAsciiLetter (c : Char) : Bool := ('a' ≤ c && c ≤ 'z') || ('A' ≤ c && c ≤ 'Z')

/-! ### Trimming -/

/-- Drops the characters in `p` at the end. -/
def dropEndWhile (p : Char → Bool) (cs : List Char) : List Char :=
  (cs.reverse.dropWhile p).reverse

/-- Drops the characters in `p` at both ends. -/
def trimWhile (p : Char → Bool) (s : String) : String :=
  String.ofList (dropEndWhile p (s.toList.dropWhile p))

/-- Drops white space at both ends. -/
def trim (s : String) : String := trimWhile isBlank s

/-- Whether the text is empty or all white space. -/
def blank (s : String) : Bool := s.toList.all isBlank

/-! ### Cutting -/

/-- The pieces between the occurrences of `separator`; one piece more than there are
occurrences. -/
def splitList {α : Type} [DecidableEq α] (separator : α) : List α → List (List α)
  | [] => [[]]
  | c :: rest =>
    if c = separator then [] :: splitList separator rest
    else match splitList separator rest with
      | [] => [[c]]
      | piece :: more => (c :: piece) :: more

def split (separator : Char) (s : String) : List String :=
  (splitList separator s.toList).map String.ofList

/-- Drops one carriage return at the end. -/
def dropReturn (line : List Char) : List Char :=
  if line.getLast? = some '\r' then line.dropLast else line

/-- A line break ends a line, so no empty line follows the last one; the carriage return of a
line that a line break ends belongs to the break. -/
def endedLines : List (List Char) → List (List Char)
  | [] => []
  | [last] => if last.isEmpty then [] else [last]
  | line :: rest => dropReturn line :: endedLines rest

def lines (s : String) : List String :=
  (endedLines (splitList '\n' s.toList)).map String.ofList

/-- What follows `start`, if the text begins with it. -/
def stripStart? (start cs : List Char) : Option (List Char) :=
  match start, cs with
  | [], cs => some cs
  | a :: start, c :: cs => if a = c then stripStart? start cs else none
  | _ :: _, [] => none

/-- What precedes `tail`, if the text ends with it. -/
def stripEnd? (tail cs : List Char) : Option (List Char) :=
  (stripStart? tail.reverse cs.reverse).map List.reverse

def startsWith (s start : String) : Bool := (stripStart? start.toList s.toList).isSome

def endsWith (s tail : String) : Bool := (stripEnd? tail.toList s.toList).isSome

/-! ### Joining -/

/-- The pieces with `separator` between neighbours. -/
def joinWith (separator : String) : List String → String
  | [] => ""
  | [piece] => piece
  | piece :: rest => piece ++ separator ++ joinWith separator rest

/-- The pieces one after the other. -/
def concat : List String → String
  | [] => ""
  | piece :: rest => piece ++ concat rest

/-- `n` blanks. -/
def spaces (n : Nat) : String := String.ofList (List.replicate n ' ')

/-! ### Sorting -/

/-- The order in which texts are listed, by code point. -/
def notAfter (a b : String) : Bool := !decide (b < a)

/-- Ascending; texts that are equal stay in their order. -/
def sort (texts : List String) : List String := texts.mergeSort notAfter

/-- Ascending by `key`; items with equal keys stay in their order. -/
def sortOn {α : Type} (key : α → String) (items : List α) : List α :=
  items.mergeSort fun a b => notAfter (key a) (key b)

/-- Rows of texts compare by their first difference; a row that ends early comes first. -/
def rowNotAfter : List String → List String → Bool
  | [], _ => true
  | _ :: _, [] => false
  | a :: as, b :: bs => if a = b then rowNotAfter as bs else decide (a < b)

/-- Ascending by a row of texts; items with equal rows stay in their order. -/
def sortOnRow {α : Type} (row : α → List String) (items : List α) : List α :=
  items.mergeSort fun a b => rowNotAfter (row a) (row b)

end GoUml.Text
