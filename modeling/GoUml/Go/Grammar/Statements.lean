import GoUml.Go.Grammar.Expressions

/-!
# Declarations and statements

Of declarations inside a function only type declarations have a reading of their own; everything
else is only recognised.
-/

namespace GoUml.Go.Grammar

open Reader

/-- What a keyword declares: one specification or a group of them. -/
def declared {α : Type} (word : String) (spec : Reader α) : Reader (List α) :=
  keyword word *> (group spec <|> (fun s => [s]) <$> spec)

/-- The declaration of a type. Brackets behind the name hold the length of an array if they can,
else type parameters. An alias has no type parameters. -/
def typeSpec (g : Grammar) : Reader TypeSpec := do
  let name ← word
  ((fun type => ⟨name, [], true, type⟩) <$> (symbol "=" *> g.type .count)) <|>
    ((fun type => ⟨name, [], false, type⟩) <$> g.type .count) <|>
    ((fun params type => ⟨name, params, false, type⟩) <$> typeParameters g <*> g.type .count)

def typeDeclaration (g : Grammar) : Reader (List TypeSpec) := declared "type" (typeSpec g)

/-- The values behind an equals sign. -/
def values (g : Grammar) : Reader Unit := symbol "=" .count *> discard (expressions g .line)

def variableSpec (g : Grammar) : Reader Unit := do
  discard <| commas word
  (g.type .count *> skip (values g)) <|> (symbol "=" *> discard (expressions g .line))

/-- A constant may repeat the value of the one before it. -/
def constantSpec (g : Grammar) : Reader Unit := do
  discard <| commas word
  skip (sameLine .count *> skip (g.type .count) *> values g)

def assignmentOperators : List String :=
  ["=", ":=", "+=", "-=", "*=", "/=", "%=", "&=", "|=", "^=", "<<=", ">>=", "&^="]

/-- An assignment, or behind a single expression a step up or down, a value that is sent, or
nothing. -/
def simpleStatement (g : Grammar) (place : Place) : Reader Unit := do
  let count ← expressions g place
  (symbolIn assignmentOperators place.lines *> discard (expressions g place)) <|>
    (if count = 1 then
      discard (symbolIn ["++", "--"] place.lines) <|>
        (symbol "<-" place.lines *> expressionPhrase g place) <|> pure ()
    else failure)

/-! ### Compound statements -/

def condition (g : Grammar) : Reader Unit := expressionPhrase g .header

def ifStatement (g : Grammar) : Reader Unit := do
  discard <| keyword "if"
  (simpleStatement g .header *> symbol ";" *> condition g) <|> condition g
  block g
  skip (keyword "else" .count *> (block g <|> (ahead (keyword "if") *> g.statement)))

def rangeClause (g : Grammar) : Reader Unit := do
  skip (expressions g .header *> symbolIn ["=", ":="])
  discard <| keyword "range"
  condition g

def forClause (g : Grammar) : Reader Unit := do
  notAhead (keyword "range")
  skip (simpleStatement g .header)
  discard <| symbol ";"
  skip (condition g)
  discard <| symbol ";"
  skip (simpleStatement g .header)

def forStatement (g : Grammar) : Reader Unit := do
  discard <| keyword "for"
  skip (rangeClause g <|> forClause g <|> (notAhead (keyword "range") *> condition g))
  block g

/-- Clauses in braces; each has the statements behind its colon. -/
def clauses (g : Grammar) (label : Reader Unit) : Reader Unit := do
  discard <| symbol "\x7b"
  discard <| many do
    (keyword "case" *> label) <|> discard (keyword "default")
    discard <| symbol ":"
    discard <| terminated g.statement
  discard <| symbol "\x7d"

/-- The end of the header that asks for the type of a value. -/
def typeQuestion : List String := [".", "(", "type", ")"]

/-- Whether the tokens end by asking for the type of a value. -/
def asksType (tokens : List Token) : Bool :=
  ((tokens.filter fun t => !t.isNewline).map (·.text)).reverse.take 4 == typeQuestion.reverse

/-- A switch lists types in its cases if its header asks for a type; only then can the header bind a
name. -/
def switchStatement (g : Grammar) : Reader Unit := do
  discard <| keyword "switch"
  skip (simpleStatement g .header *> symbol ";")
  let (binds, tokens) ← withTokens <|
    (expressions g .header *> symbol ":=" *> condition g *> pure true) <|>
      (skip (condition g) *> pure false)
  if asksType tokens then clauses g (discard <| commas (g.type .pass))
  else if binds then failure
  else clauses g (discard <| expressions g .enclosed)

def communication (g : Grammar) : Reader Unit :=
  (expressionPhrase g .enclosed *> symbol "<-" *> expressionPhrase g .enclosed) <|>
    (skip (expressions g .enclosed *> symbolIn ["=", ":="]) *> expressionPhrase g .enclosed)

def selectStatement (g : Grammar) : Reader Unit := do
  discard <| keyword "select"
  clauses g (communication g)

/-- A label stands in front of a statement or at the end of a body. -/
def labeledStatement (g : Grammar) : Reader Unit := do
  discard <| word
  discard <| symbol ":" .count
  g.statement <|>
    ahead (discard (symbol "\x7d") <|> discard (keyword "case") <|> discard (keyword "default"))

def statementPhrase (g : Grammar) : Reader Unit := do
  let t ← peek
  match t.kind, t.text with
  | .word, "type" => discard <| typeDeclaration g
  | .word, "var" => discard <| declared "var" (variableSpec g)
  | .word, "const" => discard <| declared "const" (constantSpec g)
  | .word, "if" => ifStatement g
  | .word, "for" => forStatement g
  | .word, "switch" => switchStatement g
  | .word, "select" => selectStatement g
  | .word, "return" => keyword "return" *> skip (sameLine .count *> expressions g .line)
  | .word, "go" => keyword "go" *> expressionPhrase g .line
  | .word, "defer" => keyword "defer" *> expressionPhrase g .line
  | .word, "break" => keyword "break" *> skip (word .count)
  | .word, "continue" => keyword "continue" *> skip (word .count)
  | .word, "goto" => keyword "goto" *> discard word
  | .word, "fallthrough" => discard token
  | .word, "case" => failure
  | .word, "default" => failure
  | .word, _ => labeledStatement g <|> simpleStatement g .line
  | .symbol, ";" => discard token
  | .symbol, "\x7b" => block g
  | _, _ => simpleStatement g .line

/-! ### The whole grammar -/

/-- The grammar whose phrases hold only phrases of `g`. -/
def next (g : Grammar) : Grammar where
  type := typePhrase g
  expression := expressionPhrase g
  literal := literalPhrase g
  statement := statementPhrase g

/-- The grammar of phrases that nest at most `depth` deep. -/
def ofDepth : Nat → Grammar
  | 0 => nothing
  | depth + 1 => next (ofDepth depth)

end GoUml.Go.Grammar
