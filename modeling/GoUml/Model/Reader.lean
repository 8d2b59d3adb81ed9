import GoUml.Json.Parser
import GoUml.Json.Record
import GoUml.Model.Basic

/-!
# Reading a model from JSON

A model is an array of packages. A type is a record marked by its kind: an object with a `kind`
member anywhere, or an array that begins with the kind. Every type inside another one stands deeper
in the JSON value, so the readers recurse on how deep the value still nests.
-/

namespace GoUml

open Json

namespace PackageId

def ofJson? (j : Json) : Option PackageId := do
  match ← slots? ["name", "path"] j with
  | [name, path] => return ⟨← required? string? name, ← required? string? path⟩
  | _ => none

end PackageId

/-! ### Types -/

def paramOfJson? (type : Json → Option GoType) (j : Json) : Option Param := do
  match ← slots? ["name", "ty"] j with
  | [name, ty] => return ⟨← defaulted? string? "" name, ← required? type ty⟩
  | _ => none

def signatureOfSlots? (type : Json → Option GoType) : List (Option Json) → Option Signature
  | [params, results] => do
    let params ← defaulted? (listOf? (paramOfJson? type)) [] params
    let results ← defaulted? (listOf? (paramOfJson? type)) [] results
    return ⟨params, results⟩
  | _ => none

def signatureOfJson? (type : Json → Option GoType) (j : Json) : Option Signature := do
  signatureOfSlots? type (← slots? ["params", "results"] j)

def fieldOfJson? (type : Json → Option GoType) (j : Json) : Option StructField := do
  match ← slots? ["name", "ty", "embedded"] j with
  | [name, ty, embedded] =>
    return ⟨← required? string? name, ← required? type ty, ← defaulted? bool? false embedded⟩
  | _ => none

def interfaceMethodOfJson? (type : Json → Option GoType) (j : Json) : Option InterfaceMethod := do
  match ← slots? ["name", "signature"] j with
  | [name, signature] =>
    return ⟨← required? string? name, ← required? (signatureOfJson? type) signature⟩
  | _ => none

/-- The kinds of type. -/
inductive TypeKind where
  | basic | named | typeParam | pointer | slice | array | map | chan | signature | struct
  | interface | tuple
  deriving DecidableEq

namespace TypeKind

def word : TypeKind → String
  | basic => "basic"
  | named => "named"
  | typeParam => "type_param"
  | pointer => "pointer"
  | slice => "slice"
  | array => "array"
  | map => "map"
  | chan => "chan"
  | signature => "signature"
  | struct => "struct"
  | interface => "interface"
  | tuple => "tuple"

def all : List TypeKind :=
  [basic, named, typeParam, pointer, slice, array, map, chan, signature, struct, interface, tuple]

def ofWord? (word : String) : Option TypeKind := all.find? (·.word == word)

/-- The declared fields of a type of this kind. -/
def fields : TypeKind → List String
  | basic => ["name"]
  | named => ["name", "package"]
  | typeParam => ["name"]
  | pointer => ["elem"]
  | slice => ["elem"]
  | array => ["elem"]
  | map => ["key", "value"]
  | chan => ["elem"]
  | signature => ["params", "results"]
  | struct => ["fields"]
  | interface => ["methods", "embeddeds"]
  | tuple => ["elems"]

/-- The type of this kind with the given fields. -/
def build? (type : Json → Option GoType) : TypeKind → List (Option Json) → Option GoType
  | basic, [name] => (required? string? name).map .basic
  | named, [name, package] => do
    return .named (← required? string? name) (← nullable? PackageId.ofJson? package)
  | typeParam, [name] => (required? string? name).map .typeParam
  | pointer, [elem] => (required? type elem).map .pointer
  | slice, [elem] => (required? type elem).map .slice
  | array, [elem] => (required? type elem).map .array
  | map, [key, value] => do return .map (← required? type key) (← required? type value)
  | chan, [elem] => (required? type elem).map .chan
  | signature, slots => (signatureOfSlots? type slots).map .signature
  | struct, [fields] => (defaulted? (listOf? (fieldOfJson? type)) [] fields).map .struct
  | interface, [methods, embeds] => do
    let methods ← defaulted? (listOf? (interfaceMethodOfJson? type)) [] methods
    let embeds ← defaulted? (listOf? type) [] embeds
    return .interface methods embeds
  | tuple, [elems] => (defaulted? (listOf? type) [] elems).map .tuple
  | _, _ => none

end TypeKind

/-- The kind of a marked record and the slots of its fields. -/
def kindAndSlots? : Json → Option (TypeKind × List (Option Json))
  | .object members => do
    let kind ← TypeKind.ofWord? (← required? string? (← slot? members "kind"))
    return (kind, ← objectSlots? kind.fields members)
  | .array (mark :: items) => do
    let kind ← TypeKind.ofWord? (← mark.string?)
    return (kind, ← arraySlots? kind.fields items)
  | _ => none

namespace GoType

/-- The type that a value nested at most `depth` deep writes. -/
def read? : (depth : Nat) → Json → Option GoType
  | 0, _ => none
  | depth + 1, j => do
    let (kind, slots) ← kindAndSlots? j
    kind.build? (read? depth) slots

def ofJson? (j : Json) : Option GoType := read? j.nesting j

end GoType

/-! ### Packages -/

def Signature.ofJson? (j : Json) : Option Signature := signatureOfJson? GoType.ofJson? j

def Declaration.ofJson? (j : Json) : Option Declaration := do
  match ← slots? ["name", "alias", "underlying"] j with
  | [name, isAlias, underlying] =>
    return ⟨← required? string? name, ← defaulted? bool? false isAlias,
      ← required? GoType.ofJson? underlying⟩
  | _ => none

def MethodDecl.ofJson? (j : Json) : Option MethodDecl := do
  match ← slots? ["receiver", "pointer_receiver", "name", "signature"] j with
  | [receiver, pointer, name, signature] =>
    return ⟨← required? string? receiver, ← defaulted? bool? false pointer,
      ← required? string? name, ← required? Signature.ofJson? signature⟩
  | _ => none

def Import.ofJson? (j : Json) : Option Import := do
  match ← slots? ["path", "name", "alias"] j with
  | [path, name, localName] =>
    return ⟨← required? string? path, ← required? string? name, ← nullable? string? localName⟩
  | _ => none

def Package.ofJson? (j : Json) : Option Package := do
  match ← slots? ["name", "path", "imports", "objects", "methods"] j with
  | [name, path, imports, objects, methods] =>
    return ⟨← required? string? name, ← required? string? path,
      ← defaulted? (listOf? Import.ofJson?) [] imports,
      ← defaulted? (listOf? Declaration.ofJson?) [] objects,
      ← defaulted? (listOf? MethodDecl.ofJson?) [] methods⟩
  | _ => none

/-- The packages that a value writes. -/
def packagesOfJson? (j : Json) : Option (List Package) := listOf? Package.ofJson? j

/-- The packages that a text writes. -/
def parsePackages? (text : String) : Option (List Package) := do
  packagesOfJson? (← Json.parse? text)

end GoUml
