import GoUml.Model.Basic

/-!
# Go sources as written

The declarations of a source file before any name in them is bound to a package.
-/

namespace GoUml.Go

/-- A type as it is written. -/
inductive TypeExpr where
  | name (name : String)
  | qualified (package name : String)
  | pointer (elem : TypeExpr)
  | slice (elem : TypeExpr)
  | array (elem : TypeExpr)
  | map (key value : TypeExpr)
  | chan (elem : TypeExpr)
  | func (signature : SignatureOf TypeExpr)
  | struct (fields : List (FieldOf TypeExpr))
  | interface (methods : List (MethodOf TypeExpr)) (embeds : List TypeExpr)
  /-- The alternatives `A | B` of a constraint. -/
  | union (terms : List TypeExpr)
  /-- All types whose shape is that of the term, `~T`. -/
  | approx (term : TypeExpr)
  /-- A comment stands where the type is looked for. -/
  | unknown
  deriving Inhabited

/-- The field name that an embedded type brings with it. -/
def TypeExpr.embeddedName : TypeExpr → String
  | .name own => own
  | .qualified _ own => own
  | .pointer elem => elem.embeddedName
  | _ => ""

/-- The declaration of a type. -/
structure TypeSpec where
  name : String
  typeParams : List String
  isAlias : Bool
  type : TypeExpr

/-- The declaration of a method; the type parameters are those that the receiver binds. -/
structure MethodSpec where
  receiver : String
  pointerReceiver : Bool
  typeParams : List String
  name : String
  signature : SignatureOf TypeExpr

/-- An import; the local name may be `_` or `.`. -/
structure ImportSpec where
  path : String
  localName : Option String
  deriving DecidableEq

/-- What a source file declares. -/
structure SourceFile where
  package : String
  imports : List ImportSpec
  types : List TypeSpec
  methods : List MethodSpec

/-- The source files of one directory, which all declare the same package. -/
structure SourcePackage where
  name : String
  path : String
  files : List SourceFile

namespace SourcePackage

/-- The type declarations, each with its file. -/
def types (p : SourcePackage) : List (SourceFile × TypeSpec) :=
  p.files.flatMap fun file => file.types.map fun spec => (file, spec)

/-- The method declarations, each with its file. -/
def methods (p : SourcePackage) : List (SourceFile × MethodSpec) :=
  p.files.flatMap fun file => file.methods.map fun spec => (file, spec)

def imports (p : SourcePackage) : List ImportSpec := p.files.flatMap (·.imports)

end SourcePackage

end GoUml.Go
