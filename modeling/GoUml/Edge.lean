import GoUml.Identifiers
import GoUml.Implementation

/-!
# Edges between types

Embedding composes, satisfying an interface implements, mentioning a type in a named field
aggregates, and naming another type aliases. Every edge is written with its first end first.
-/

namespace GoUml

open Text

inductive EdgeKind where
  | composition
  | implementation
  | aggregation
  | typeAlias
  deriving DecidableEq

/-- The role that an edge of this kind plays. -/
def EdgeKind.label : EdgeKind → String
  | .composition => "extends"
  | .implementation => "implements"
  | .aggregation => "uses"
  | .typeAlias => "alias of"

/-- A type in the namespace of a package, or a predeclared type in none. -/
structure EdgeEnd where
  package : Option String
  name : String
  deriving DecidableEq

namespace EdgeEnd

def ofType (t : TypeName) : EdgeEnd :=
  if t.builtin then ⟨none, t.goName⟩ else ⟨some t.packageName, t.goName⟩

/-- A type declared in a package. -/
def declared (package : PackageId) (name : String) : EdgeEnd := ⟨some package.name, name⟩

def text (e : EdgeEnd) : String :=
  match e.package with
  | some package => package ++ "." ++ e.name
  | none => e.name

end EdgeEnd

structure Edge where
  kind : EdgeKind
  source : EdgeEnd
  target : EdgeEnd
  deriving DecidableEq

namespace Struct

def edgeEnd (s : Struct) : EdgeEnd := .declared s.package s.name

/-- One edge for each embedded field. -/
def compositions (s : Struct) : List Edge :=
  s.embeddedFields.map fun f => ⟨.composition, s.edgeEnd, .ofType f.composed⟩

/-- One edge for each implemented interface. -/
def implementations (s : Struct) : List Edge :=
  s.implemented.map fun i => ⟨.implementation, .declared i.package i.name, s.edgeEnd⟩

/-- The first type of each key that is not in `seen`, in order. -/
def firstOfKeys : TextSet → List TypeName → List TypeName
  | _, [] => []
  | seen, t :: rest =>
    if seen.contains t.key then firstOfKeys seen rest
    else t :: firstOfKeys (TextSet.insert seen t.key) rest

/-- The types, other than predeclared ones, that the named fields of one visibility are made of. -/
def usedTypes (s : Struct) (hidden : Bool) : List TypeName :=
  (s.fields.filter fun f => !f.embedded && f.isPrivate == hidden).flatMap fun f =>
    f.type.terminals.filter fun t => !t.builtin

def aggregationTo (s : Struct) (t : TypeName) : Edge := ⟨.aggregation, .ofType t, s.edgeEnd⟩

/-- One edge for each key that an exported named field uses. -/
def aggregations (s : Struct) : List Edge :=
  (firstOfKeys Table.empty (s.usedTypes false)).map s.aggregationTo

/-- One edge for each key that only private named fields use. -/
def privateAggregations (s : Struct) : List Edge :=
  (firstOfKeys (TextSet.ofList ((s.usedTypes false).map (·.key))) (s.usedTypes true)).map
    s.aggregationTo

end Struct

namespace Interface

def edgeEnd (i : Interface) : EdgeEnd := .declared i.package i.name

/-- One edge for each embedded interface, by name. -/
def compositions (i : Interface) : List Edge :=
  (sortOn (fun t : TypeView => t.goName) i.embedded).map fun t =>
    ⟨.composition, i.edgeEnd, .ofType t.toTypeName⟩

end Interface

/-- A declaration that names another type. -/
structure Naming where
  name : String
  package : PackageId
  underlying : TypeView

namespace Catalog

/-- Defined types first, then aliases. -/
def namings (c : Catalog) : List Naming :=
  c.definedTypes.all.map (fun d => ⟨d.name, d.package, d.underlying⟩) ++
    c.typeAliases.all.map (fun a => ⟨a.name, a.package, a.underlying⟩)

end Catalog

namespace Naming

/-- The end that the underlying type has: its identifier in the package if it has one, else the
type itself. -/
def targetEnd (ids : Identifiers) (n : Naming) : EdgeEnd :=
  match ids.identifier? n.package.path n.underlying.toTypeName with
  | some identifier => .declared n.package identifier
  | none => .ofType n.underlying.toTypeName

def edge (ids : Identifiers) (n : Naming) : Edge :=
  ⟨.typeAlias, .declared n.package n.name, n.targetEnd ids⟩

/-- Alias edges are listed by name, package name, name of the underlying type and target. -/
def row (ids : Identifiers) (n : Naming) : List String :=
  let target := n.targetEnd ids
  [n.name, n.package.name, n.underlying.goName, target.package.getD "", target.name]

end Naming

namespace Catalog

/-- One edge for each declaration that names a type other than a predeclared one. -/
def aliasEdges (c : Catalog) (ids : Identifiers) : List Edge :=
  (sortOnRow (Naming.row ids) (c.namings.filter fun n => !n.underlying.builtin)).map
    (Naming.edge ids)

end Catalog

end GoUml
