import GoUml.Naming
import GoUml.Table

/-!
# Entities

Every declared type of a package becomes one entity: a struct, an interface, a type defined over
another shape, or an alias. Entities hold named views of the types they mention, as seen from the
package that declares them.
-/

namespace GoUml

structure Field where
  name : String
  type : TypeView
  embedded : Bool
  deriving DecidableEq

namespace Field

def isPrivate (f : Field) : Bool := GoUml.isPrivate f.name

/-- The type that an embedded field brings in: the first terminal of its type, so that pointers
are looked through, or the type itself when it has none. -/
def composed (f : Field) : TypeName := f.type.terminals.head?.getD f.type.toTypeName

end Field

structure Parameter where
  name : String
  type : TypeView
  deriving DecidableEq

/-- A method with its parameters and results. -/
structure Function where
  name : String
  parameters : List Parameter
  results : List TypeView
  deriving DecidableEq

namespace Function

def isPrivate (f : Function) : Bool := GoUml.isPrivate f.name

/-- The keys of the parameters and results in one text; names of parameters are no part of it. -/
def signatureKey (f : Function) : String :=
  parenthesized (f.parameters.map (·.type.key)) (f.results.map (·.key))

/-- Same name, and the same types of parameters and results one by one. -/
def signatureEq (f g : Function) : Bool :=
  f.name == g.name && f.parameters.length == g.parameters.length &&
    f.results.length == g.results.length &&
    (f.parameters.zip g.parameters).all (fun (a, b) => a.type.key == b.type.key) &&
    (f.results.zip g.results).all (fun (a, b) => a.key == b.key)

/-- The method called `name` with the given signature, as seen from `viewer`. -/
def ofSignature (viewer : PackageId) (name : String) (s : Signature) : Function where
  name := name
  parameters := s.params.map fun p => ⟨p.name, viewer.view p.type⟩
  results := s.results.map fun r => viewer.view r.type

end Function

/-- An interface by the package that declares it and its name. -/
structure InterfaceRef where
  package : PackageId
  name : String
  deriving DecidableEq

namespace InterfaceRef

/-- References are listed by package name, package path and name. -/
def row (r : InterfaceRef) : List String := [r.package.name, r.package.path, r.name]

end InterfaceRef

/-- A struct. The interfaces it implements are found by comparing it with the whole catalog, so a
freshly extracted struct lists none. -/
structure Struct where
  name : String
  package : PackageId
  fields : List Field
  methods : List Function
  implemented : List InterfaceRef
  deriving DecidableEq

namespace Struct

def embeddedFields (s : Struct) : List Field := s.fields.filter (·.embedded)

/-- The struct without fields and methods. -/
def empty (name : String) (package : PackageId) : Struct := ⟨name, package, [], [], []⟩

end Struct

/-- An interface. A type set constrains type parameters only: no struct implements it. -/
structure Interface where
  name : String
  package : PackageId
  methods : List Function
  embedded : List TypeView
  typeSet : Bool
  deriving DecidableEq

namespace Interface

def reference (i : Interface) : InterfaceRef := ⟨i.package, i.name⟩

end Interface

structure DefinedType where
  name : String
  package : PackageId
  underlying : TypeView
  methods : List Function
  deriving DecidableEq

structure TypeAlias where
  name : String
  package : PackageId
  underlying : TypeView
  deriving DecidableEq

inductive Entity where
  | struct (s : Struct)
  | interface (i : Interface)
  | defined (d : DefinedType)
  | typeAlias (a : TypeAlias)
  deriving DecidableEq

namespace Entity

def name : Entity → String
  | .struct s => s.name
  | .interface i => i.name
  | .defined d => d.name
  | .typeAlias a => a.name

def package : Entity → PackageId
  | .struct s => s.package
  | .interface i => i.package
  | .defined d => d.package
  | .typeAlias a => a.package

/-- Structs and defined types take methods; interfaces and aliases take none. -/
def takesMethods : Entity → Bool
  | .struct _ => true
  | .defined _ => true
  | .interface _ => false
  | .typeAlias _ => false

/-- The entity with one method more, if it takes methods. -/
def addMethod (f : Function) : Entity → Entity
  | .struct s => .struct { s with methods := s.methods ++ [f] }
  | .defined d => .defined { d with methods := d.methods ++ [f] }
  | e => e

end Entity

end GoUml
