import GoUml.Json.Printer
import GoUml.Model.Reader

/-!
# Writing a model as JSON

Every field is written, in the order of declaration and with the kind of a type first; a package or
alias that is not there is written as `null`.
-/

namespace GoUml

open Json

def PackageId.toJson (p : PackageId) : Json :=
  .object [("name", .string p.name), ("path", .string p.path)]

/-- A type of a kind: the kind, then the fields. -/
def TypeKind.tagged (kind : TypeKind) (fields : List (String × Json)) : Json :=
  .object (("kind", .string kind.word) :: fields)

mutual

def GoType.toJson : GoType → Json
  | .basic name => TypeKind.tagged .basic [("name", .string name)]
  | .named name package => TypeKind.tagged .named
      [("name", .string name), ("package", optional PackageId.toJson package)]
  | .typeParam name => TypeKind.tagged .typeParam [("name", .string name)]
  | .pointer elem => TypeKind.tagged .pointer [("elem", elem.toJson)]
  | .slice elem => TypeKind.tagged .slice [("elem", elem.toJson)]
  | .array elem => TypeKind.tagged .array [("elem", elem.toJson)]
  | .chan elem => TypeKind.tagged .chan [("elem", elem.toJson)]
  | .map key value => TypeKind.tagged .map [("key", key.toJson), ("value", value.toJson)]
  | .signature s => TypeKind.tagged .signature (signatureMembers s)
  | .struct fields => TypeKind.tagged .struct [("fields", .array (fieldsToJson fields))]
  | .interface methods embeds => TypeKind.tagged .interface
      [("methods", .array (interfaceMethodsToJson methods)),
       ("embeddeds", .array (typesToJson embeds))]
  | .tuple elems => TypeKind.tagged .tuple [("elems", .array (typesToJson elems))]

def signatureMembers : SignatureOf GoType → List (String × Json)
  | ⟨params, results⟩ =>
    [("params", .array (paramsToJson params)), ("results", .array (paramsToJson results))]

def paramsToJson : List (ParamOf GoType) → List Json
  | [] => []
  | p :: rest => .object [("name", .string p.name), ("ty", p.type.toJson)] :: paramsToJson rest

def fieldsToJson : List (FieldOf GoType) → List Json
  | [] => []
  | f :: rest =>
    .object [("name", .string f.name), ("ty", f.type.toJson), ("embedded", .bool f.embedded)] ::
      fieldsToJson rest

def interfaceMethodsToJson : List (MethodOf GoType) → List Json
  | [] => []
  | m :: rest =>
    .object [("name", .string m.name), ("signature", .object (signatureMembers m.signature))] ::
      interfaceMethodsToJson rest

def typesToJson : List GoType → List Json
  | [] => []
  | t :: rest => t.toJson :: typesToJson rest

end

def Signature.toJson (s : Signature) : Json := .object (signatureMembers s)

def Declaration.toJson (d : Declaration) : Json :=
  .object
    [("name", .string d.name), ("alias", .bool d.isAlias), ("underlying", d.underlying.toJson)]

def MethodDecl.toJson (m : MethodDecl) : Json :=
  .object [("receiver", .string m.receiver), ("pointer_receiver", .bool m.pointerReceiver),
    ("name", .string m.name), ("signature", Signature.toJson m.signature)]

def Import.toJson (i : Import) : Json :=
  .object
    [("path", .string i.path), ("name", .string i.name), ("alias", optional .string i.localName)]

def Package.toJson (p : Package) : Json :=
  .object [("name", .string p.name), ("path", .string p.path),
    ("imports", .array (p.imports.map Import.toJson)),
    ("objects", .array (p.declarations.map Declaration.toJson)),
    ("methods", .array (p.methods.map MethodDecl.toJson))]

def packagesToJson (packages : List Package) : Json := .array (packages.map Package.toJson)

/-- The packages as indented JSON text. -/
def renderPackages (packages : List Package) : String := (packagesToJson packages).pretty

end GoUml
