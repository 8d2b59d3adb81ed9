import GoUml.Json.Basic

/-!
# Records

A record is written as an object, or as an array of its fields in their order of declaration. In an
object a declared field stands at most once and other members are passed over; an array may stop
early but holds nothing beyond the declared fields. Both give one slot for each declared field.
-/

namespace GoUml.Json

/-- The value of one field of an object: none when absent, refused when it stands twice. -/
def slot? (members : List (String × Json)) (name : String) : Option (Option Json) :=
  match membersNamed name members with
  | [] => some none
  | [value] => some (some value)
  | _ => none

/-- One slot for each declared field of an object. -/
def objectSlots? (fields : List String) (members : List (String × Json)) :
    Option (List (Option Json)) :=
  fields.mapM (slot? members)

/-- One slot for each declared field of an array. -/
def arraySlots? (fields : List String) (items : List Json) : Option (List (Option Json)) :=
  if items.length ≤ fields.length then
    some (items.map some ++ List.replicate (fields.length - items.length) none)
  else none

/-- One slot for each declared field of a record. -/
def slots? (fields : List String) : Json → Option (List (Option Json))
  | .object members => objectSlots? fields members
  | .array items => arraySlots? fields items
  | _ => none

/-- A field that must be there. -/
def required? {α : Type} (read : Json → Option α) (slot : Option Json) : Option α :=
  slot.bind read

/-- A field that has a value of its own when it is left out. -/
def defaulted? {α : Type} (read : Json → Option α) (absent : α) : Option Json → Option α
  | none => some absent
  | some value => read value

/-- A field that may be left out or `null`. -/
def nullable? {α : Type} (read : Json → Option α) : Option Json → Option (Option α)
  | none => some none
  | some .null => some none
  | some value => (read value).map some

end GoUml.Json
