import GoUml.Extraction

/-!
# The catalog of loaded packages

A catalog holds every entity of a load by package path and name, one table for each kind. Packages
are only added. Inserting a path again replaces the identity and imports of the package and adds
its entities to those that are there.
-/

namespace GoUml

/-- Entities of one kind: package path, then name. -/
abbrev PackageTable (α : Type) := Table (Table α)

namespace PackageTable

variable {α : Type}

def put (t : PackageTable α) (path name : String) (value : α) : PackageTable α :=
  t.alter path fun names => (names.getD Table.empty).insert name value

def get? (t : PackageTable α) (path name : String) : Option α :=
  (t.find? path).bind (·.find? name)

/-- Changes the value with this path and name, if there is one. -/
def modifyAt (t : PackageTable α) (path name : String) (f : α → α) : PackageTable α :=
  t.modify path fun names => names.modify name f

/-- The values of one package in ascending order of name. -/
def inPackage (t : PackageTable α) (path : String) : List α :=
  ((t.find? path).map Table.values).getD []

/-- The values of all packages, in ascending order of path and then name. -/
def all (t : PackageTable α) : List α := t.values.flatMap Table.values

def mapValues (f : α → α) (t : PackageTable α) : PackageTable α :=
  t.map fun _ names => names.map fun _ value => f value

end PackageTable

structure Catalog where
  packages : Table PackageId
  imports : Table (List PackageId)
  structs : PackageTable Struct
  interfaces : PackageTable Interface
  definedTypes : PackageTable DefinedType
  typeAliases : PackageTable TypeAlias
  deriving DecidableEq

namespace Catalog

/-- The catalog without packages. -/
def empty : Catalog :=
  ⟨Table.empty, Table.empty, Table.empty, Table.empty, Table.empty, Table.empty⟩

instance : Inhabited Catalog := ⟨empty⟩

/-- Files an entity under its kind. -/
def addEntity (path : String) (c : Catalog) (e : String × Entity) : Catalog :=
  match e.2 with
  | .struct s => { c with structs := c.structs.put path e.1 s }
  | .interface i => { c with interfaces := c.interfaces.put path e.1 i }
  | .defined d => { c with definedTypes := c.definedTypes.put path e.1 d }
  | .typeAlias a => { c with typeAliases := c.typeAliases.put path e.1 a }

/-- Adds a package and its entities. -/
def insert (c : Catalog) (p : Package) : Catalog :=
  p.entities.entries.foldl (addEntity p.path)
    { c with
      packages := c.packages.insert p.path p.id
      imports := c.imports.insert p.path p.importIds }

/-- Adds a package unless its path is already there. -/
def insertNew (c : Catalog) (p : Package) : Catalog :=
  if c.packages.contains p.path then c else c.insert p

/-- The catalog of a list of packages; of several packages with one path the first counts. -/
def ofPackages (packages : List Package) : Catalog := packages.foldl insertNew empty

/-- What is left out of the catalog of a list of packages, when the paths in `seen` are already
there. -/
def warningsAfter : TextSet → List Package → List Warning
  | _, [] => []
  | seen, p :: rest =>
    if seen.contains p.path then .duplicatePackage p.path :: warningsAfter seen rest
    else p.warnings ++ warningsAfter (TextSet.insert seen p.path) rest

/-- What is left out of the catalog of a list of packages. -/
def warnings (packages : List Package) : List Warning := warningsAfter Table.empty packages

/-- The packages by name and then path. -/
def sortedPackages (c : Catalog) : List PackageId :=
  Text.sortOnRow (fun p => [p.name, p.path]) c.packages.values

def package? (c : Catalog) (path : String) : Option PackageId := c.packages.find? path

def importsOf (c : Catalog) (path : String) : List PackageId := (c.imports.find? path).getD []

def findStruct? (c : Catalog) (path name : String) : Option Struct := c.structs.get? path name

def findInterface? (c : Catalog) (path name : String) : Option Interface :=
  c.interfaces.get? path name

/-- The entity with this path and name. -/
def find? (c : Catalog) (path name : String) : Option Entity :=
  (c.findStruct? path name).map .struct
    <|> (c.findInterface? path name).map .interface
    <|> (c.definedTypes.get? path name).map .defined
    <|> (c.typeAliases.get? path name).map .typeAlias

def packageCount (c : Catalog) : Nat := c.packages.size

def entityCount (c : Catalog) : Nat :=
  c.structs.all.length + c.interfaces.all.length + c.definedTypes.all.length +
    c.typeAliases.all.length

end Catalog

end GoUml
