import GoUml.Model.Basic
import GoUml.Text.Basic
import GoUml.Text.Lowercase

/-!
# Names of types

A type is named from the point of view of a package. The short name leaves packages out, the
qualified name spells the packages other than the current one, and the key spells every import
path, so that equal keys mean identical types. Containers are looked through for the named and
basic types they are made of, their terminals.
-/

namespace GoUml

open Text

/-! ### Predeclared names and visibility -/

/-- The names of the types that every Go package knows without declaring them. -/
def predeclaredTypes : List String :=
  ["any", "bool", "byte", "comparable", "complex128", "complex64", "error", "float32", "float64",
   "int", "int16", "int32", "int64", "int8", "rune", "string", "uint", "uint16", "uint32",
   "uint64", "uint8", "uintptr"]

def isPredeclared (name : String) : Bool := predeclaredTypes.contains name

/-- A name is private when it begins with a lower case letter. -/
def isPrivate (name : String) : Bool := name.toList.head?.any isLowercase

/-- A named type as seen from `viewer`. -/
def namedDisplay (viewer : PackageId) (qualify : Bool) (name : String) :
    Option PackageId → String
  | some package =>
    if qualify && package.path != viewer.path && !isPredeclared name then
      package.name ++ "." ++ name
    else name
  | none => name

/-- A function type with the given parameters and results. -/
def functionDisplay (params : List String) : List String → String
  | [] => "func(" ++ joinWith ", " params ++ ")"
  | [result] => "func(" ++ joinWith ", " params ++ ") " ++ result
  | results => "func(" ++ joinWith ", " params ++ ") (" ++ joinWith ", " results ++ ")"

mutual

/-- The name of a type as seen from `viewer`. Function types always qualify what they mention. -/
def GoType.display (viewer : PackageId) (qualify : Bool) : GoType → String
  | .basic name => name
  | .typeParam name => name
  | .named name package => namedDisplay viewer qualify name package
  | .pointer elem => "*" ++ elem.display viewer qualify
  | .slice elem => "[]" ++ elem.display viewer qualify
  | .array elem => "[]" ++ elem.display viewer qualify
  | .chan elem => "chan " ++ elem.display viewer qualify
  | .map key value =>
    "map[" ++ key.display viewer qualify ++ "]" ++ value.display viewer qualify
  | .signature s => signatureDisplay viewer s
  | .struct fields => "struct\x7b" ++ joinWith ", " (fieldDisplays viewer qualify fields) ++ "\x7d"
  | .interface methods _ =>
    "interface\x7b" ++ joinWith "; " (methodDisplays viewer methods) ++ "\x7d"
  | .tuple _ => ""

def signatureDisplay (viewer : PackageId) : SignatureOf GoType → String
  | ⟨params, results⟩ =>
    functionDisplay (paramDisplays viewer params) (paramDisplays viewer results)

def paramDisplays (viewer : PackageId) : List (ParamOf GoType) → List String
  | [] => []
  | p :: rest => p.type.display viewer true :: paramDisplays viewer rest

def fieldDisplays (viewer : PackageId) (qualify : Bool) : List (FieldOf GoType) → List String
  | [] => []
  | f :: rest => f.type.display viewer qualify :: fieldDisplays viewer qualify rest

def methodDisplays (viewer : PackageId) : List (MethodOf GoType) → List String
  | [] => []
  | m :: rest =>
    (m.name ++ " " ++ signatureDisplay viewer m.signature) :: methodDisplays viewer rest

end

/-! ### Keys -/

/-- The key of a function from the keys of its parameters and results, without a word in front. -/
def parenthesized (params results : List String) : String :=
  "(" ++ joinWith ", " params ++ ")(" ++ joinWith ", " results ++ ")"

mutual

/-- The key of a type. Names of parameters, results and embedded fields are left out, and so is the
order in which an interface lists its parts. -/
@[simp] def GoType.key : GoType → String
  | .basic name => name
  | .typeParam name => "$" ++ name
  | .named name (some package) => package.path ++ "." ++ name
  | .named name none => name
  | .pointer elem => "*" ++ elem.key
  | .slice elem => "[]" ++ elem.key
  | .array elem => "[#]" ++ elem.key
  | .chan elem => "chan " ++ elem.key
  | .map key value => "map[" ++ key.key ++ "]" ++ value.key
  | .signature s => signatureKey s
  | .struct fields => "struct\x7b" ++ joinWith "; " (fieldKeys fields) ++ "\x7d"
  | .interface methods embeds =>
    "interface\x7b" ++ joinWith "; " (sort (methodKeys methods ++ typeKeys embeds)) ++ "\x7d"
  | .tuple elems => "(" ++ joinWith ", " (typeKeys elems) ++ ")"

@[simp] def signatureKey : SignatureOf GoType → String
  | ⟨params, results⟩ => "func" ++ parenthesized (paramKeys params) (paramKeys results)

@[simp] def paramKeys : List (ParamOf GoType) → List String
  | [] => []
  | p :: rest => p.type.key :: paramKeys rest

@[simp] def fieldKeys : List (FieldOf GoType) → List String
  | [] => []
  | f :: rest => ((if f.embedded then "" else f.name) ++ " " ++ f.type.key) :: fieldKeys rest

@[simp] def methodKeys : List (MethodOf GoType) → List String
  | [] => []
  | m :: rest => (m.name ++ signatureKey m.signature) :: methodKeys rest

@[simp] def typeKeys : List GoType → List String
  | [] => []
  | t :: rest => t.key :: typeKeys rest

end

mutual

/-- The named and basic types inside pointers, slices, arrays, channels, maps and function types, in
the order in which they are written. -/
def GoType.terminals : GoType → List GoType
  | .basic name => [.basic name]
  | .named name package => [.named name package]
  | .pointer elem => elem.terminals
  | .slice elem => elem.terminals
  | .array elem => elem.terminals
  | .chan elem => elem.terminals
  | .map key value => key.terminals ++ value.terminals
  | .signature s => signatureTerminals s
  | .typeParam _ => []
  | .struct _ => []
  | .interface _ _ => []
  | .tuple _ => []

def signatureTerminals : SignatureOf GoType → List GoType
  | ⟨params, results⟩ => paramTerminals params ++ paramTerminals results

def paramTerminals : List (ParamOf GoType) → List GoType
  | [] => []
  | p :: rest => p.type.terminals ++ paramTerminals rest

end

/-! ### Named views -/

/-- What a diagram needs to know about a type: its names, its key, and the package it belongs to.
A predeclared type belongs to none and a composite one to the package that mentions it. -/
structure TypeName where
  goName : String
  qualifiedName : String
  key : String
  package : Option PackageId
  builtin : Bool
  deriving DecidableEq, Inhabited

namespace TypeName

/-- The name of the owning package, empty when there is none. -/
def packageName (t : TypeName) : String := (t.package.map (·.name)).getD ""

end TypeName

/-- The name of a type together with the names of its terminals. -/
structure TypeView extends TypeName where
  terminals : List TypeName
  deriving DecidableEq, Inhabited

namespace TypeView

def containsBuiltinTerminal (t : TypeView) : Bool := t.terminals.any (·.builtin)

end TypeView

/-- Whether the type is predeclared: a named type without a package always is. -/
def GoType.isBuiltin (viewer : PackageId) : GoType → Bool
  | .named _ none => true
  | t => isPredeclared (t.display viewer false)

/-- The package that a type belongs to. -/
def GoType.owner (viewer : PackageId) (t : GoType) : Option PackageId :=
  if t.isBuiltin viewer then none
  else match t with
    | .named _ (some package) => some package
    | _ => some viewer

namespace PackageId

/-- The name of `t` as seen from this package. -/
def typeName (viewer : PackageId) (t : GoType) : TypeName where
  goName := t.display viewer false
  qualifiedName := t.display viewer true
  key := t.key
  package := t.owner viewer
  builtin := t.isBuiltin viewer

/-- The name of `t` and of its terminals as seen from this package. -/
def view (viewer : PackageId) (t : GoType) : TypeView :=
  { viewer.typeName t with terminals := t.terminals.map viewer.typeName }

end PackageId

end GoUml
