import GoUml.Go.Grammar.Basic

/-!
# Types

Types, parameter lists and type parameters. Names come before types wherever both could be read:
the words `a, b c` of a parameter list are two names and a type, and `a, b` are two types.
-/

namespace GoUml.Go.Grammar

open Reader

/-- The keywords that open a type. -/
def typeKeywords : List String := ["struct", "interface", "map", "chan", "func"]

/-- Alternatives of a constraint: one is itself, several are a union. -/
def unionOf : List TypeExpr → TypeExpr
  | [term] => term
  | terms => .union terms

/-- Types with bars between neighbours. -/
def alternatives (g : Grammar) (lines : Lines) : Reader TypeExpr :=
  unionOf <$> separated (symbol "|" lines) (g.type lines)

/-- The arguments of a generic type. -/
def typeArguments (g : Grammar) (lines : Lines) : Reader Unit := do
  discard <| symbol "[" lines
  discard <| commasMayTrail (alternatives g .pass)
  discard <| symbol "]"

/-- A name that a package may qualify; the arguments of a generic type are left out. -/
def namedType (g : Grammar) (lines : Lines) (name : String) : Reader TypeExpr := do
  let type ← (TypeExpr.qualified name <$> (symbol "." lines *> word)) <|> pure (.name name)
  skip (typeArguments g lines)
  return type

/-! ### Signatures -/

/-- One entry of a parameter list: names, perhaps none, that share a type. -/
structure ParamGroup where
  names : List String
  type : TypeExpr
  variadic : Bool
  typeTokens : List Token

namespace ParamGroup

/-- The parameters of the entry; a variadic one is a slice. -/
def params (group : ParamGroup) : List (ParamOf TypeExpr) :=
  let type := if group.variadic then .slice group.type else group.type
  match group.names with
  | [] => [⟨"", type⟩]
  | names => names.map (⟨·, type⟩)

end ParamGroup

def variadicGroup (g : Grammar) : Reader ParamGroup := do
  let name ← maybe (wordExcept typeKeywords)
  discard <| symbol "..."
  let (type, tokens) ← withTokens (g.type .pass)
  return ⟨name.toList, type, true, tokens⟩

/-- Behind a comma any word can be a name: `a, map [n]b` are two names and an array type. -/
def namedGroup (g : Grammar) : Reader ParamGroup := do
  let first ← wordExcept typeKeywords
  let more ← many (symbol "," *> word)
  let (type, tokens) ← withTokens (g.type .pass)
  return ⟨first :: more, type, false, tokens⟩

def unnamedGroup (g : Grammar) : Reader ParamGroup := do
  let (type, tokens) ← withTokens (g.type .pass)
  return ⟨[], type, false, tokens⟩

/-- A parameter list with its entries as written. -/
def paramGroups (g : Grammar) (lines : Lines) : Reader (List ParamGroup) := do
  discard <| symbol "(" lines
  let entry := variadicGroup g <|> (namedGroup g <* ahead (symbolIn [",", ")"])) <|> unnamedGroup g
  let groups ← commasOrNone entry
  discard <| symbol ")"
  return groups

def parameters (g : Grammar) (lines : Lines) : Reader (List (ParamOf TypeExpr)) :=
  (·.flatMap ParamGroup.params) <$> paramGroups g lines

/-- The results of a function: a parameter list or one type without parentheses around it. -/
def results (g : Grammar) (lines : Lines) : Reader (List (ParamOf TypeExpr)) :=
  let single := (fun type => [⟨"", type⟩]) <$> g.type lines
  parameters g lines <|> (notAhead (symbol "(" lines) *> sameLine lines *> single) <|> pure []

def signature (g : Grammar) (lines : Lines) : Reader (SignatureOf TypeExpr) := do
  let params ← parameters g .pass
  return ⟨params, ← results g lines⟩

/-- Type parameters in brackets; a constraint follows the names that share it. -/
def typeParameters (g : Grammar) : Reader (List String) := do
  discard <| symbol "["
  let names ← commasMayTrail (commas word <* alternatives g .pass)
  discard <| symbol "]"
  return names.flatten

/-- An embedded field ends where the field ends; what goes on behind its type is read as a name and
a type instead. -/
def embeddedField (g : Grammar) : Reader (List (FieldOf TypeExpr)) := do
  let star ← maybe (symbol "*")
  let type ← namedType g .count (← word)
  skip (quoted .count)
  ahead (discard terminator <|> discard (symbol "\x7d"))
  return [⟨type.embeddedName, if star.isSome then .pointer type else type, true⟩]

def namedFields (g : Grammar) : Reader (List (FieldOf TypeExpr)) := do
  let names ← commas word
  let type ← g.type .count
  skip (quoted .count)
  return names.map (⟨·, type, false⟩)

def structType (g : Grammar) : Reader TypeExpr := do
  discard <| symbol "\x7b"
  let fields ← terminated (embeddedField g <|> namedFields g)
  discard <| symbol "\x7d"
  return .struct fields.flatten

/-! ### Types -/

/-- Stands in for a type that a comment hides. -/
def unlessHidden (t : Token) (type : TypeExpr) : TypeExpr :=
  if t.comment.isSome then .unknown else type

/-- The rest of a slice or array type behind its opening bracket. -/
def sequenceType (g : Grammar) (lines : Lines) : Reader TypeExpr :=
  (symbol "]" *> (.slice <$> g.type lines)) <|>
    (g.expression .enclosed *> symbol "]" *> (.array <$> g.type lines))

/-- An element of an interface body: a method or the alternatives of a constraint. -/
def interfaceElement (g : Grammar) : Reader (MethodOf TypeExpr ⊕ TypeExpr) :=
  (do
    let name ← wordExcept typeKeywords
    ahead (symbol "(" .count)
    return .inl ⟨name, ← signature g .count⟩) <|>
  Sum.inr <$> alternatives g .count

def interfaceType (g : Grammar) : Reader TypeExpr := do
  discard <| symbol "\x7b"
  let elements ← terminated (interfaceElement g)
  discard <| symbol "\x7d"
  return .interface (elements.filterMap Sum.getLeft?) (elements.filterMap Sum.getRight?)

def mapType (g : Grammar) (lines : Lines) : Reader TypeExpr := do
  discard <| symbol "["
  let key ← g.type .pass
  discard <| symbol "]"
  return .map key (← g.type lines)

/-- A type whose inner types `g` reads. -/
def typePhrase (g : Grammar) (lines : Lines) : Reader TypeExpr := do
  let t ← token
  match t.kind, t.text with
  | .word, "struct" => structType g
  | .word, "interface" => interfaceType g
  | .word, "map" => mapType g lines
  | .word, "chan" => skip (symbol "<-") *> (.chan <$> g.type lines)
  | .word, "func" => .func <$> signature g lines
  | .word, name => namedType g lines name
  | .symbol, "*" => (.pointer <| unlessHidden t ·) <$> g.type lines
  | .symbol, "~" => (.approx <| unlessHidden t ·) <$> g.type lines
  | .symbol, "(" => unlessHidden t <$> (g.type .pass <* symbol ")")
  | .symbol, "[" => sequenceType g lines
  | .symbol, "<-" => keyword "chan" *> (.chan <$> g.type lines)
  | _, _ => failure

end GoUml.Go.Grammar
