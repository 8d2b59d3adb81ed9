/-!
# Raw texts

File names and paths are rows of bytes that need not be the UTF-8 form of any text. A raw text that
is none still reads as one in which the longest beginning of a character that is not carried on, and
each byte that begins none, stand as one replacement character.
-/

namespace GoUml

abbrev RawText := List UInt8

namespace RawText

/-- The UTF-8 form of a text. -/
def ofString (s : String) : RawText := s.toList.flatMap String.utf8EncodeChar

instance : Coe String RawText := ⟨ofString⟩

/-- A character of which some bytes are read: how many more it has, between which values the next
one lies, and the value of those read. -/
structure Pending where
  owed : Nat
  low : Nat := 0x80
  high : Nat := 0xBF
  value : Nat

def replacement : Char := Char.ofNat 0xFFFD

/-- The character that a first byte of this value begins. Forms that are longer than they have to
be, surrogates and values beyond the last character are ruled out by the second byte at the
latest. -/
def lead? (b : Nat) : Option Pending :=
  if b < 0xC2 then none
  else if b < 0xE0 then some { owed := 1, value := b - 0xC0 }
  else if b < 0xF0 then
    some { owed := 2, value := b - 0xE0
           low := if b = 0xE0 then 0xA0 else 0x80
           high := if b = 0xED then 0x9F else 0xBF }
  else if b < 0xF5 then
    some { owed := 3, value := b - 0xF0
           low := if b = 0xF0 then 0x90 else 0x80
           high := if b = 0xF4 then 0x8F else 0xBF }
  else none

/-- A byte between two characters: what it completes, and what it begins. -/
def start (b : UInt8) : List Char × Option Pending :=
  if b < 0x80 then ([Char.ofNat b.toNat], none)
  else match lead? b.toNat with
    | some p => ([], some p)
    | none => ([replacement], none)

/-- A byte behind the first ones of a character. One that does not carry it on starts anew. -/
def carryOn (p : Pending) (b : UInt8) : List Char × Option Pending :=
  if p.low ≤ b.toNat ∧ b.toNat ≤ p.high then
    let value := 64 * p.value + (b.toNat - 0x80)
    if p.owed = 1 then ([Char.ofNat value], none) else ([], some { owed := p.owed - 1, value })
  else (replacement :: (start b).1, (start b).2)

def decodeFrom : Option Pending → RawText → List Char
  | none, [] => []
  | some _, [] => [replacement]
  | none, b :: rest => (start b).1 ++ decodeFrom (start b).2 rest
  | some p, b :: rest => (carryOn p b).1 ++ decodeFrom (carryOn p b).2 rest

/-- What a raw text reads as. -/
def display (raw : RawText) : String := String.ofList (decodeFrom none raw)

/-- The text of which this is the UTF-8 form. -/
def text? (raw : RawText) : Option String :=
  if ofString raw.display = raw then some raw.display else none

end RawText

end GoUml
