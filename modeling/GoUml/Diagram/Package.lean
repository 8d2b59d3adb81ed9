import GoUml.Diagram.Layout
import GoUml.ImportGraph

/-!
# Package diagrams

Every loaded package becomes a chain of nested namespaces, one for each segment of its path, and
every import an arrow from the imported package to the one that imports it.
-/

namespace GoUml.Diagram

open Text

/-- The segments of a path without their dots; a segment of dots alone is left out. -/
def segments (path : String) : List String :=
  ((split '/' path).map fun s => String.ofList (s.toList.filter (· != '.'))).filter (· != "")

/-- The name by which an arrow refers to a package. -/
def dotted (path : String) : String := joinWith "." (segments path)

/-- Namespaces one inside the other. -/
def chain? : List String → Option Element
  | [] => none
  | segment :: rest => some (.namespaceBlock segment (chain? rest).toList)

/-- The namespaces of a path. -/
def namespaceChain? (path : String) : Option Element := chain? (segments path)

/-- The arrow of an import. -/
def importRelation (importer imported : String) : Relation where
  kind := .imports
  source := dotted imported
  target := dotted importer

/-- The elements of the package diagram of an import graph. -/
def packageElements (o : RenderingOptions) (g : ImportGraph) : List Element :=
  header o ++
    g.packages.flatMap (fun path => (path :: g.importsOf path).filterMap namespaceChain?) ++
    g.edges.map fun (importer, imported) => .relation (importRelation importer imported)

/-- The text of the package diagram of an import graph. -/
def renderPackages (o : RenderingOptions) (g : ImportGraph) : String :=
  render (packageElements o g)

/-- The text of the package diagram of a list of packages. -/
def packageDiagram (o : RenderingOptions) (packages : List Package) : String :=
  renderPackages o (ImportGraph.ofCatalog (Catalog.ofPackages packages))

end GoUml.Diagram
