import GoUml.Go.Grammar.Types

/-!
# Expressions

Expressions are only recognised. Operators need no precedence for that: an expression is a row of
operands with binary operators between neighbours.
-/

namespace GoUml.Go.Grammar

open Reader

def unaryOperators : List String := ["+", "-", "!", "^", "*", "&", "<-"]

def binaryOperators : List String :=
  ["||", "&&", "==", "!=", "<", "<=", ">", ">=", "+", "-", "|", "^", "*", "/", "%", "<<", ">>", "&",
   "&^"]

/-- Statements in braces. -/
def block (g : Grammar) : Reader Unit := do
  discard <| symbol "\x7b"
  discard <| terminated g.statement
  discard <| symbol "\x7d"

/-- The value of a composite literal: elements in braces, each perhaps behind a key. -/
def literalPhrase (g : Grammar) : Reader Unit := do
  let item := g.literal <|> g.expression .enclosed
  discard <| symbol "\x7b"
  discard <| commasOrNone (item *> skip (symbol ":" *> item))
  discard <| symbol "\x7d"

/-- The arguments of a call. -/
def arguments (g : Grammar) (lines : Lines) : Reader Unit := do
  discard <| symbol "(" lines
  skip (commasMayTrail (g.expression .enclosed *> skip (symbol "...")))
  discard <| symbol ")"

/-- What a literal value may follow: a name, a qualified name and either with type arguments. -/
inductive OperandShape where
  | name
  | qualified
  | generic
  | other
  deriving DecidableEq

def functionLiteral (g : Grammar) : Reader Unit := do
  discard <| keyword "func"
  discard <| signature g .pass
  block g

/-- The calls of `make` and `new`, whose first argument is a type. -/
def allocation (g : Grammar) : Reader Unit := do
  discard <| (keyword "make" <|> keyword "new")
  discard <| symbol "("
  discard <| g.type .pass
  discard <| many (symbol "," *> g.expression .enclosed)
  skip (symbol ",")
  discard <| symbol ")"

/-- An array type whose length its literal gives. -/
def countedArray (g : Grammar) : Reader Unit := do
  discard <| symbol "["
  discard <| symbol "..."
  discard <| symbol "]"
  discard <| g.type .pass

/-- A type that is no name, with a literal value or a converted operand behind it. -/
def typedOperand (g : Grammar) : Reader Unit := do
  let t ← peek
  let hasLiterals := t.isSymbol "[" || t.isWord "struct" || t.isWord "map"
  if hasLiterals || typeKeywords.any (t.isWord ·) then
    discard (typePhrase g .pass) <|> countedArray g
    if hasLiterals then literalPhrase g <|> arguments g .pass else arguments g .pass
  else failure

/-- An expression in parentheses, or a type in parentheses with a converted operand behind it. -/
def parenthesized (g : Grammar) : Reader Unit := do
  discard <| symbol "("
  (g.expression .enclosed *> discard (symbol ")")) <|>
    (g.type .pass *> symbol ")" *> arguments g .pass)

def operand (g : Grammar) : Reader OperandShape :=
  let literal := tokenIf .pass fun t => t.kind == .number || t.kind == .quoted || t.kind == .rune
  ((discard literal <|> functionLiteral g <|> allocation g <|> typedOperand g <|>
    parenthesized g) *> pure .other) <|>
  (wordExcept typeKeywords *> pure .name)

def selector (g : Grammar) (place : Place) (shape : OperandShape) : Reader OperandShape := do
  discard <| symbol "." place.lines
  (word *> pure (if shape = .name then .qualified else .other)) <|>
    (symbol "(" *> g.type .pass *> symbol ")" *> pure .other)

/-- What stands behind the first bound of a slice; a third bound needs the second. -/
def furtherBounds (g : Grammar) : Reader Unit := do
  let bound := g.expression .enclosed
  discard <| symbol ":"
  skip (bound *> skip (symbol ":" *> bound))

def index (g : Grammar) (place : Place) (shape : OperandShape) : Reader OperandShape := do
  discard <| symbol "[" place.lines
  let close := symbol "]"
  let indexed := if shape = .name || shape = .qualified then .generic else .other
  let sliced := furtherBounds g *> close *> pure .other
  (g.expression .enclosed *> ((close *> pure indexed) <|> sliced)) <|> sliced <|>
    (commasMayTrail (alternatives g .pass) *> close *> pure indexed)

def call (g : Grammar) (place : Place) : Reader OperandShape :=
  arguments g place.lines *> pure .other

/-- A literal value behind the name of its type. -/
def literalOf (g : Grammar) (place : Place) (shape : OperandShape) : Reader OperandShape := do
  if place.literals && shape ≠ .other then
    ahead (symbol "\x7b" place.lines)
    literalPhrase g
    return .other
  else failure

/-- An operand with everything that is selected from it, called or indexed. -/
def primary (g : Grammar) (place : Place) : Reader Unit := do
  let shape ← operand g
  discard <| iterate (fun shape =>
    selector g place shape <|> index g place shape <|> call g place <|> literalOf g place shape)
    shape

def unary (g : Grammar) (place : Place) : Reader Unit := do
  discard <| many (symbolIn unaryOperators)
  primary g place

def expressionPhrase (g : Grammar) (place : Place) : Reader Unit :=
  discard <| separated (symbolIn binaryOperators place.lines) (unary g place)

/-- One or more expressions with commas between neighbours; gives their number. -/
def expressions (g : Grammar) (place : Place) : Reader Nat :=
  List.length <$> separated (symbol "," place.lines) (expressionPhrase g place)

end GoUml.Go.Grammar
