import GoUml.Diagram.Layout

/-!
# Class diagrams

For each package, by name and path: a namespace with its structs, interfaces and defined types, and
then its composition, implementation and aggregation lines. After all packages come the aliases,
the alias lines and the classes that stand for composite underlying types.
-/

namespace GoUml.Diagram

open Text

/-- The members that are shown, by name; members with one name stay in their order. -/
def shownMembers {α : Type} (o : RenderingOptions) (shown : Bool) (name : α → String)
    (members : List α) : List α :=
  if shown then
    sortOn name (members.filter fun m => o.privateMembers || !isPrivate (name m))
  else []

def fieldElement (f : Field) : Element := .field f.name f.type.qualifiedName

def methodElement (f : Function) : Element :=
  .method ⟨f.name, f.parameters.map (fun p => (p.name, p.type.qualifiedName)),
    f.results.map (·.qualifiedName)⟩

def fieldElements (o : RenderingOptions) (fields : List Field) : List Element :=
  (shownMembers o o.fields Field.name fields).map fieldElement

def methodElements (o : RenderingOptions) (methods : List Function) : List Element :=
  (shownMembers o o.methods Function.name methods).map methodElement

def structSpot : Spot := ⟨'S', "#7FFFD4"⟩

def definedSpot : Spot := ⟨'D', "#FF7700"⟩

def aliasSpot : Spot := ⟨'T', "#EDDC44"⟩

def structElement (o : RenderingOptions) (s : Struct) : Element :=
  .classBlock { name := s.name, spot := some structSpot }
    (fieldElements o s.fields ++ methodElements o s.methods)

def interfaceElement (o : RenderingOptions) (i : Interface) : Element :=
  .interfaceBlock i.name (methodElements o i.methods)

/-- The stereotype of a type over a predeclared one. -/
def overBuiltin (words : String) (t : TypeView) : Option String :=
  if t.builtin then some (words ++ " __" ++ t.goName ++ "__") else none

def definedElement (o : RenderingOptions) (d : DefinedType) : Element :=
  .classBlock
    { name := d.name, spot := some definedSpot, stereotype := overBuiltin "type of" d.underlying }
    (methodElements o d.methods)

/-- The namespace of a package. -/
def packageElement (o : RenderingOptions) (c : Catalog) (p : PackageId) : Element :=
  .namespaceBlock p.name
    ((c.structs.inPackage p.path).map (structElement o) ++
      (c.interfaces.inPackage p.path).map (interfaceElement o) ++
      (c.definedTypes.inPackage p.path).map (definedElement o))

/-! ### Relation lines of a package -/

def packageCompositions (c : Catalog) (path : String) : List Edge :=
  (c.structs.inPackage path).flatMap Struct.compositions ++
    (c.interfaces.inPackage path).flatMap Interface.compositions

def packageImplementations (c : Catalog) (path : String) : List Edge :=
  (c.structs.inPackage path).flatMap Struct.implementations

/-- The aggregations of the structs of a package, those of private fields only where asked for. -/
def packageAggregations (withPrivate : Bool) (c : Catalog) (path : String) : List Edge :=
  (c.structs.inPackage path).flatMap fun s =>
    s.aggregations ++ if withPrivate then s.privateAggregations else []

/-- The relation lines of a package, kind after kind, each kind only when it is shown. -/
def packageRelations (o : RenderingOptions) (c : Catalog) (path : String) : List Relation :=
  let shownEdges (shown : Bool) (edges : List Edge) : List Relation :=
    if shown then sortedRelations o.connectionLabels edges else []
  shownEdges o.compositions (packageCompositions c path) ++
    shownEdges o.implementations (packageImplementations c path) ++
    shownEdges o.aggregations (packageAggregations o.aggregatePrivateMembers c path)

def aliasElement (a : TypeAlias) : Element :=
  .namespaceBlock a.package.name
    [.classBlock
      { name := a.name, spot := some aliasSpot, stereotype := overBuiltin "alias of" a.underlying }
      []]

/-- The aliases by name, package name and name of the underlying type. -/
def sortedAliases (c : Catalog) : List TypeAlias :=
  sortOnRow (fun a : TypeAlias => [a.name, a.package.name, a.underlying.goName]) c.typeAliases.all

/-- The letter that tells slices, maps and functions apart. -/
def leafLetter (displayed : String) : Char :=
  if startsWith displayed "[]" then 's'
  else if startsWith displayed "map[" then 'm'
  else if startsWith displayed "func(" then 'f'
  else '-'

/-- The class that stands for a composite type. -/
def leafElement (e : IdentifierEntry) : Element :=
  .namespaceBlock e.package.name
    [.classBlock
      { name := e.displayed, identifier := some e.identifier,
        spot := some ⟨leafLetter e.displayed, "#3CB371"⟩ }
      [.comment e.displayed]]

/-- The alias lines of a catalog. -/
def aliasRelations (o : RenderingOptions) (c : Catalog) (ids : Identifiers) : List Relation :=
  (c.aliasEdges ids).map (relationOf o.connectionLabels)

/-- The elements of the class diagram of a catalog. -/
def classElements (o : RenderingOptions) (c : Catalog) : List Element :=
  let ids := Identifiers.ofCatalog c
  header o ++
    c.sortedPackages.flatMap (fun p =>
      packageElement o c p :: (packageRelations o c p.path).map .relation) ++
    (sortedAliases c).map aliasElement ++
    (if o.aliases then
      (aliasRelations o c ids).map .relation ++ ids.entries.all.map leafElement
    else [])

/-- The text of the class diagram of a catalog. -/
def renderClasses (o : RenderingOptions) (c : Catalog) : String := render (classElements o c)

/-- The text of the class diagram of a list of packages. -/
def classDiagram (o : RenderingOptions) (packages : List Package) : String :=
  renderClasses o (Catalog.ofPackages packages).classify

end GoUml.Diagram
