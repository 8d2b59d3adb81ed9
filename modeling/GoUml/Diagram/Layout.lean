import GoUml.Diagram.Element
import GoUml.Edge
import GoUml.Options

/-!
# What both diagrams share

The header of a diagram and the relation lines of a list of edges.
-/

namespace GoUml.Diagram

open Text

/-- A legend, unless all its lines are blank. -/
def legendOf? (lines : List String) : Option Element :=
  if lines.all blank then none else some (.legend lines)

/-- Theme, title and legend, each only when there is something to show. -/
def header (o : RenderingOptions) : List Element :=
  (if blank o.theme then [] else [.theme (trim o.theme)]) ++
    (if blank o.title then [] else [.title (trim o.title)]) ++
    (legendOf? o.notes).toList

def relationKind : EdgeKind → RelationKind
  | .composition => .composition
  | .implementation => .implementation
  | .aggregation => .aggregation
  | .typeAlias => .typeAlias

/-- The relation of an edge, labelled with its role when `labels` is on. -/
def relationOf (labels : Bool) (e : Edge) : Relation where
  kind := relationKind e.kind
  source := e.source.text
  target := e.target.text
  label := if labels then some e.kind.label else none

/-- Drops a relation whose line equals that of the one before it. -/
def dropRepeats : List Relation → List Relation
  | [] => []
  | [r] => [r]
  | r :: s :: rest =>
    if r.text = s.text then dropRepeats (r :: rest) else r :: dropRepeats (s :: rest)
termination_by relations => relations.length

/-- The relations of a list of edges in ascending order of their lines, each line once. -/
def sortedRelations (labels : Bool) (edges : List Edge) : List Relation :=
  dropRepeats (sortOn Relation.text (edges.map (relationOf labels)))

end GoUml.Diagram
