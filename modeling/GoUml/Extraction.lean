import GoUml.Entity

/-!
# From declarations to entities

The shape of a declared type decides what entity it becomes, and of several declarations with one
name the last one counts. Methods are attached afterwards, so it does not matter whether a method
stands before or after its type; a method whose receiver is not declared creates an empty struct.
-/

namespace GoUml

/-- What extraction leaves out and says so. -/
inductive Warning where
  | duplicatePackage (path : String)
  | duplicateDeclaration (name path : String)
  | skippedMethod (method packageName receiver : String)
  deriving DecidableEq

namespace Warning

def message : Warning → String
  | .duplicatePackage path => "Skipping duplicate package " ++ path
  | .duplicateDeclaration name path =>
    "Type " ++ name ++ " declared twice in " ++ path ++ ", keeping the last declaration"
  | .skippedMethod method packageName receiver =>
    "Skipping method " ++ method ++ " on " ++ packageName ++ "." ++ receiver ++
      ": receiver is not a struct or defined type"

end Warning

def Field.ofStructField (viewer : PackageId) (f : StructField) : Field :=
  ⟨f.name, viewer.view f.type, f.embedded⟩

/-- The predeclared types that an interface may embed. -/
def isEmbeddable (name : String) : Bool := name == "any" || name == "comparable" || name == "error"

/-- An element of an interface body that embeds another interface. -/
def embedsInterface : GoType → Bool
  | .named _ _ => true
  | .basic name => isEmbeddable name
  | _ => false

/-- The entity that a declaration becomes. -/
def Declaration.entity (viewer : PackageId) (d : Declaration) : Entity :=
  match d.underlying with
  | .struct fields => .struct ⟨d.name, viewer, fields.map (Field.ofStructField viewer), [], []⟩
  | .interface methods embeds => .interface
      { name := d.name
        package := viewer
        methods := methods.map fun m => Function.ofSignature viewer m.name m.signature
        embedded := (embeds.filter embedsInterface).map viewer.view
        typeSet := !embeds.all embedsInterface }
  | underlying =>
    if d.isAlias then .typeAlias ⟨d.name, viewer, viewer.view underlying⟩
    else .defined ⟨d.name, viewer, viewer.view underlying, []⟩

/-- Attaches a method to its receiver. -/
def attachMethod (viewer : PackageId) (entities : Table Entity) (m : MethodDecl) : Table Entity :=
  entities.alter m.receiver fun entity =>
    (entity.getD (.struct (.empty m.receiver viewer))).addMethod
      (Function.ofSignature viewer m.name m.signature)

namespace Package

/-- The entities declared by a package, before methods are attached. -/
def declared (p : Package) : Table Entity :=
  Table.ofList (p.declarations.map fun d => (d.name, d.entity p.id))

/-- The entities of a package with their methods. -/
def entities (p : Package) : Table Entity := p.methods.foldl (attachMethod p.id) p.declared

/-- The packages that a package imports. -/
def importIds (p : Package) : List PackageId := p.imports.map fun i => ⟨i.name, i.path⟩

/-- The names that stand again after an earlier declaration of the same name. -/
def repeatedNames : List String → TextSet → List String
  | [], _ => []
  | name :: rest, seen =>
    if seen.contains name then name :: repeatedNames rest seen
    else repeatedNames rest (TextSet.insert seen name)

/-- What extraction leaves out of a package: earlier declarations of a name, then methods whose
receiver takes none. -/
def warnings (p : Package) : List Warning :=
  (repeatedNames (p.declarations.map (·.name)) Table.empty).map
      (fun name => .duplicateDeclaration name p.path) ++
    p.methods.filterMap fun m =>
      if ((p.declared.find? m.receiver).map Entity.takesMethods).getD true then none
      else some (.skippedMethod m.name p.name m.receiver)

end Package

end GoUml
