import GoUml.Go.ImportPath
import GoUml.Go.Source
import GoUml.Naming

/-!
# Resolution

Binds the names in a set of packages that are loaded together. A plain name is a type parameter, a
type of the package or a predeclared type, in this order; a qualified name is looked up among the
imports of its file. The shape of a declared type is found by following declarations through the
whole set; a type of a package outside the set stays a name.
-/

namespace GoUml.Go

/-- Where a name is looked up. -/
structure Scope where
  package : PackageId
  imports : List ImportSpec
  typeParams : List String

/-- The packages that are loaded together. -/
abbrev Load := List SourcePackage

namespace Load

/-- A type declaration with the place of the names in it. -/
structure Declared where
  scope : Scope
  spec : TypeSpec

def declaredIn (p : SourcePackage) : List Declared :=
  p.types.map fun (file, spec) => ⟨⟨⟨p.name, p.path⟩, file.imports, spec.typeParams⟩, spec⟩

def declarations (load : Load) : List Declared := load.flatMap declaredIn

/-- The declaration of a type; of several the last one counts. -/
def find? (load : Load) (path name : String) : Option Declared :=
  load.declarations.reverse.find? fun d => d.scope.package.path == path && d.spec.name == name

/-- The name of the package at a path; the path suggests one when the package is not loaded. -/
def packageName (load : Load) (path : String) : String :=
  match List.find? (fun p : SourcePackage => p.path == path) load with
  | some p => p.name
  | none => suggestedName path

/-! ### Names -/

def resolveName (load : Load) (scope : Scope) (name : String) : GoType :=
  if scope.typeParams.contains name then .typeParam name
  else if (load.find? scope.package.path name).isNone && isPredeclared name then .basic name
  else .named name (some scope.package)

/-- The package that an import makes visible under `qualifier`. -/
def importedAs? (load : Load) (qualifier : String) (spec : ImportSpec) : Option PackageId :=
  let declared := load.packageName spec.path
  if spec.localName.getD declared == qualifier then some ⟨declared, spec.path⟩ else none

/-- A qualifier that no import explains stands for itself. -/
def resolveQualified (load : Load) (scope : Scope) (qualifier name : String) : GoType :=
  .named name (some ((scope.imports.findSome? (load.importedAs? qualifier)).getD
    ⟨qualifier, qualifier⟩))

/-! ### Types -/

mutual

def resolve (load : Load) (scope : Scope) : TypeExpr → GoType
  | .name name => load.resolveName scope name
  | .qualified package name => load.resolveQualified scope package name
  | .pointer elem => .pointer (resolve load scope elem)
  | .slice elem => .slice (resolve load scope elem)
  | .array elem => .array (resolve load scope elem)
  | .map key value => .map (resolve load scope key) (resolve load scope value)
  | .chan elem => .chan (resolve load scope elem)
  | .func signature => .signature (resolveSignature load scope signature)
  | .struct fields => .struct (resolveFields load scope fields)
  | .interface methods embeds =>
    .interface (resolveMethods load scope methods) (resolveAll load scope embeds)
  | .union terms => .tuple (resolveAll load scope terms)
  | .approx term => .tuple [resolve load scope term]
  | .unknown => .tuple []

def resolveSignature (load : Load) (scope : Scope) : SignatureOf TypeExpr → Signature
  | ⟨params, results⟩ => ⟨resolveParams load scope params, resolveParams load scope results⟩

def resolveParams (load : Load) (scope : Scope) : List (ParamOf TypeExpr) → List Param
  | [] => []
  | ⟨name, type⟩ :: rest => ⟨name, resolve load scope type⟩ :: resolveParams load scope rest

def resolveFields (load : Load) (scope : Scope) : List (FieldOf TypeExpr) → List StructField
  | [] => []
  | ⟨name, type, embedded⟩ :: rest =>
    ⟨name, resolve load scope type, embedded⟩ :: resolveFields load scope rest

def resolveMethods (load : Load) (scope : Scope) : List (MethodOf TypeExpr) → List InterfaceMethod
  | [] => []
  | ⟨name, signature⟩ :: rest =>
    ⟨name, resolveSignature load scope signature⟩ :: resolveMethods load scope rest

def resolveAll (load : Load) (scope : Scope) : List TypeExpr → List GoType
  | [] => []
  | type :: rest => resolve load scope type :: resolveAll load scope rest

end

/-! ### Underlying types -/

/-- The declaration in the load that a resolved type names, with its path and name. -/
def target? (load : Load) : GoType → Option (Declared × (String × String))
  | .named name (some package) =>
    (load.find? package.path name).map fun d => (d, (package.path, name))
  | _ => none

/-- Follows declarations from `type` until one is no name of the load or comes round to a name that
was visited before, through at most `limit` declarations. -/
def underlyingUpTo (load : Load) :
    Nat → Scope → TypeExpr → List (String × String) → GoType
  | 0, scope, type, _ => load.resolve scope type
  | limit + 1, scope, type, visited =>
    let resolved := load.resolve scope type
    match load.target? resolved with
    | none => resolved
    | some (d, key) =>
      if visited.contains key then resolved
      else underlyingUpTo load limit d.scope d.spec.type (key :: visited)

/-- The shape of a declared type. Each declaration is followed once, so their number bounds the
steps. -/
def underlying (load : Load) (d : Declared) : GoType :=
  load.underlyingUpTo load.declarations.length d.scope d.spec.type
    [(d.scope.package.path, d.spec.name)]

/-! ### Packages -/

/-- The imports of all files, each once, in order of path, name and local name. -/
def resolveImports (load : Load) (p : SourcePackage) : List Import :=
  let imports : List Import :=
    p.imports.map fun spec => ⟨spec.path, load.packageName spec.path, spec.localName⟩
  Text.sortOnRow (fun i => [i.path, i.name] ++ i.localName.toList) imports.eraseDups

def resolveMethodSpec (load : Load) (p : SourcePackage) (file : SourceFile) (spec : MethodSpec) :
    MethodDecl :=
  ⟨spec.receiver, spec.pointerReceiver, spec.name,
    load.resolveSignature ⟨⟨p.name, p.path⟩, file.imports, spec.typeParams⟩ spec.signature⟩

def resolvePackage (load : Load) (p : SourcePackage) : Package where
  name := p.name
  path := p.path
  imports := load.resolveImports p
  declarations := (declaredIn p).map fun d => ⟨d.spec.name, d.spec.isAlias, load.underlying d⟩
  methods := p.methods.map fun (file, spec) => load.resolveMethodSpec p file spec

/-- The packages of a load with all names bound. -/
def packages (load : Load) : List Package := load.map load.resolvePackage

end Load

end GoUml.Go
