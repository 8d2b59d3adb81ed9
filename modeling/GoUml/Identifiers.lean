import GoUml.Catalog

/-!
# Identifiers for composite types

A composite type such as `map[string]int` cannot stand as an identifier in a diagram. Each one that
needs it is given an identifier of letters and digits, built from its package and short name, and
made unique in the whole table by a number at the end. What has been handed out never changes.
-/

namespace GoUml

open Text

/-- The ASCII letters and digits of a text. -/
def sanitize (text : String) : String :=
  String.ofList (text.toList.filter fun c => isAsciiLetter c || isAsciiDigit c)

/-- A composite type with the identifier it was given. -/
structure IdentifierEntry where
  package : PackageId
  displayed : String
  identifier : String
  deriving DecidableEq

/-- Identifiers by package path and type key, and the set of those in use. -/
structure Identifiers where
  entries : PackageTable IdentifierEntry
  taken : TextSet
  deriving DecidableEq

namespace Identifiers

def empty : Identifiers := ⟨Table.empty, Table.empty⟩

/-- The identifier of `type` in the package at `path`. -/
def identifier? (ids : Identifiers) (path : String) (type : TypeName) : Option String :=
  (ids.entries.get? path type.key).map (·.identifier)

/-- The `n`-th name to try: the base itself, then the base with 2, 3 and so on behind it. The number
has no bound here; a signed counter of 32 bits runs over only when `2 ^ 31 - 2` of these names are
in use, and gives the same names before that. -/
def candidate (base : String) : Nat → String
  | 0 => base
  | n + 1 => base ++ toString (n + 2)

/-- The first candidate that is not in use. One more candidate than there are names in use is
enough to find one. -/
def fresh (taken : TextSet) (base : String) : String :=
  ((List.range (taken.size + 1)).map (candidate base)).find? (fun name => !taken.contains name)
    |>.getD base

/-- Gives `type` an identifier in `package` unless it has one. -/
def register (ids : Identifiers) (package : PackageId) (type : TypeName) : Identifiers :=
  match ids.entries.get? package.path type.key with
  | some _ => ids
  | none =>
    let identifier := fresh ids.taken (sanitize (package.name ++ type.goName))
    { entries := ids.entries.put package.path type.key ⟨package, type.goName, identifier⟩
      taken := TextSet.insert ids.taken identifier }

def size (ids : Identifiers) : Nat := ids.entries.all.length

/-- A composite type that reaches a predeclared one and whose name is no identifier. -/
def needed (type : TypeView) : Bool :=
  !type.builtin && type.containsBuiltinTerminal && sanitize type.goName != type.goName

/-- The underlying types of a catalog with the packages that mention them: defined types first,
then aliases. -/
def underlyings (c : Catalog) : List (PackageId × TypeView) :=
  c.definedTypes.all.map (fun d => (d.package, d.underlying)) ++
    c.typeAliases.all.map (fun a => (a.package, a.underlying))

/-- The identifiers of the underlying types of a catalog. -/
def ofCatalog (c : Catalog) : Identifiers :=
  ((underlyings c).filter fun u => needed u.2).foldl (fun ids u => ids.register u.1 u.2.toTypeName)
    empty

end Identifiers

end GoUml
