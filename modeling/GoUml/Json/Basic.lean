/-!
# JSON values

A value keeps what its text says: members of an object stay in their order, a name given twice
stays twice, and a number keeps its spelling.
-/

namespace GoUml

inductive Json where
  | null
  | bool (value : Bool)
  | number (literal : String)
  | string (value : String)
  | array (items : List Json)
  | object (members : List (String × Json))
  deriving Inhabited

namespace Json

mutual

/-- How many arrays and objects stand one inside the other. -/
def nesting : Json → Nat
  | .null => 0
  | .bool _ => 0
  | .number _ => 0
  | .string _ => 0
  | .array items => itemsNesting items + 1
  | .object members => membersNesting members + 1

def itemsNesting : List Json → Nat
  | [] => 0
  | item :: rest => max item.nesting (itemsNesting rest)

def membersNesting : List (String × Json) → Nat
  | [] => 0
  | member :: rest => max member.2.nesting (membersNesting rest)

end

/-- All values given for `name`, in order. -/
def membersNamed (name : String) (members : List (String × Json)) : List Json :=
  members.filterMap fun member => if member.1 = name then some member.2 else none

/-- The first member called `name`, if the value is an object that has one. -/
def member? (name : String) : Json → Option Json
  | .object members => (membersNamed name members).head?
  | _ => none

def string? : Json → Option String
  | .string value => some value
  | _ => none

def bool? : Json → Option Bool
  | .bool value => some value
  | _ => none

def array? : Json → Option (List Json)
  | .array items => some items
  | _ => none

/-- The value of a run of decimal digits. -/
def decimal? (digits : List Char) : Option Nat :=
  if digits.isEmpty then none
  else digits.foldlM (fun n c =>
    if '0' ≤ c && c ≤ '9' then some (n * 10 + (c.toNat - '0'.toNat)) else none) 0

/-- A number written as digits alone. -/
def nat? : Json → Option Nat
  | .number literal => decimal? literal.toList
  | _ => none

/-- A number that fits a 64-bit word. -/
def word? (j : Json) : Option UInt64 := do
  let n ← j.nat?
  if n < UInt64.size then some n.toUInt64 else none

/-- A list all of whose items `read` accepts. -/
def listOf? {α : Type} (read : Json → Option α) : Json → Option (List α)
  | .array items => items.mapM read
  | _ => none

def strings (texts : List String) : Json := .array (texts.map .string)

def nat (n : Nat) : Json := .number (toString n)

/-- The value, or `null` when there is none. -/
def optional {α : Type} (write : α → Json) : Option α → Json
  | none => .null
  | some a => write a

end Json

end GoUml
