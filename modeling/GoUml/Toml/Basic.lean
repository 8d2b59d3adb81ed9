/-!
# TOML values

The values that a TOML document can hold. Numbers other than integers and dates are kept as they are
written.
-/

namespace GoUml

inductive Toml where
  | string (text : String)
  | boolean (value : Bool)
  | integer (value : Int)
  | float (literal : String)
  | datetime (literal : String)
  | array (items : List Toml)
  | table (entries : List (String × Toml))
  deriving Inhabited

namespace Toml

def string? : Toml → Option String
  | .string s => some s
  | _ => none

def boolean? : Toml → Option Bool
  | .boolean b => some b
  | _ => none

/-- A list of strings. -/
def strings? : Toml → Option (List String)
  | .array items => items.mapM string?
  | _ => none

def table? : Toml → Option (List (String × Toml))
  | .table entries => some entries
  | _ => none

end Toml

end GoUml
