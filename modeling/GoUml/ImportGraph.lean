import GoUml.Catalog

/-!
# The import graph

Which loaded package imports which other one. Imports of packages that are not loaded are left out,
and so are imports of the package itself and the two paths that stand for no package.
-/

namespace GoUml

/-- Paths that stand for no package. -/
def isPseudoPath (path : String) : Bool := path == "" || path == "."

/-- The loaded packages with what each of them imports. -/
structure ImportGraph where
  adjacency : Table TextSet
  deriving DecidableEq

namespace ImportGraph

/-- The paths that the package at `path` imports, as far as they are in the graph. -/
def importedBy (c : Catalog) (path : String) : TextSet :=
  TextSet.ofList <| (c.importsOf path).map (·.path) |>.filter fun imported =>
    imported != path && !isPseudoPath imported && (c.package? imported).isSome

def ofCatalog (c : Catalog) : ImportGraph :=
  ⟨Table.ofList <| (c.packages.keys.filter fun path => !isPseudoPath path).map fun path =>
    (path, importedBy c path)⟩

/-- The paths in ascending order. -/
def packages (g : ImportGraph) : List String := g.adjacency.keys

/-- What the package at `path` imports, in ascending order. -/
def importsOf (g : ImportGraph) (path : String) : List String :=
  ((g.adjacency.find? path).map Table.keys).getD []

/-- Importer and imported, in ascending order. -/
def edges (g : ImportGraph) : List (String × String) :=
  g.adjacency.entries.flatMap fun (importer, imports) =>
    imports.keys.map fun imported => (importer, imported)

def containsEdge (g : ImportGraph) (importer imported : String) : Bool :=
  (g.adjacency.find? importer).any (·.contains imported)

def packageCount (g : ImportGraph) : Nat := g.adjacency.size

def edgeCount (g : ImportGraph) : Nat :=
  g.adjacency.values.foldl (fun count imports => count + imports.size) 0

end ImportGraph

end GoUml
