import GoUml.Go.Source
import GoUml.Go.Token

/-!
# Reading tokens

A reader takes a phrase off the front of a list of tokens or fails. A line break ends a phrase only
where the phrase could end; a reader of what must still come passes over line breaks, and a reader
of what may still come is told whether line breaks count.
-/

namespace GoUml.Go

/-- Takes a phrase off the front of the tokens. -/
abbrev Reader (α : Type) := StateT (List Token) Option α

namespace Reader

variable {α β : Type}

def dropNewlines (ts : List Token) : List Token := ts.dropWhile Token.isNewline

/-- Whether a line break in front of the next token ends the phrase. -/
inductive Lines where
  | count
  | pass
  deriving DecidableEq

/-- The next token, if it is in `p`. -/
def tokenIf (lines : Lines) (p : Token → Bool) : Reader Token := fun ts =>
  match (match lines with | .count => ts | .pass => dropNewlines ts) with
  | t :: rest => if p t then some (t, rest) else none
  | [] => none

/-- The next token behind any line breaks. -/
def token : Reader Token := tokenIf .pass fun _ => true

def symbol (s : String) (lines : Lines := .pass) : Reader Token := tokenIf lines (Token.isSymbol s)

def keyword (w : String) (lines : Lines := .pass) : Reader Token := tokenIf lines (Token.isWord w)

/-- The next token if it is one of the given symbols. -/
def symbolIn (texts : List String) (lines : Lines := .pass) : Reader Token :=
  tokenIf lines fun t => t.kind == .symbol && texts.contains t.text

/-- Any word. A word is a keyword only where that keyword can stand. -/
def word (lines : Lines := .pass) : Reader String :=
  (·.text) <$> tokenIf lines fun t => t.kind == .word

/-- A word that none of the keywords which can stand here takes. -/
def wordExcept (keywords : List String) (lines : Lines := .pass) : Reader String :=
  (·.text) <$> tokenIf lines fun t => t.kind == .word && !keywords.contains t.text

/-- A string literal. -/
def quoted (lines : Lines := .pass) : Reader String :=
  (·.text) <$> tokenIf lines fun t => t.kind == .quoted

/-- The end of a declaration or statement. -/
def terminator : Reader Token :=
  tokenIf .count fun t => t.isNewline || t.isSymbol ";" || t.isSymbol "\x00"

/-- The next token behind any line breaks, which stays. -/
def peek : Reader Token := fun ts =>
  match dropNewlines ts with
  | t :: _ => some (t, ts)
  | [] => none

/-- Succeeds, without taking anything, if `p` would. -/
def ahead (p : Reader α) : Reader Unit := fun ts => (p ts).map fun _ => ((), ts)

/-- Succeeds, without taking anything, if `p` would not. -/
def notAhead (p : Reader α) : Reader Unit := fun ts => if (p ts).isSome then none else some ((), ts)

/-- Succeeds unless a line break that counts comes next. -/
def sameLine : Lines → Reader Unit
  | .count => notAhead (tokenIf .count Token.isNewline)
  | .pass => pure ()

/-- What `p` reads, or nothing. -/
def maybe (p : Reader α) : Reader (Option α) := some <$> p <|> pure none

/-- Takes `p` if it can. -/
def skip (p : Reader α) : Reader Unit := (fun _ => ()) <$> p <|> pure ()

/-- What `p` reads and the tokens it takes, from the first that is no line break. -/
def withTokens (p : Reader α) : Reader (α × List Token) := fun ts =>
  let ts := dropNewlines ts
  (p ts).map fun (a, rest) => ((a, ts.take (ts.length - rest.length)), rest)

/-! ### Repetition -/

/-- Goes on from `a` as often as `p` succeeds, at most once for each token of `bound`. -/
def iterateWithin (p : α → Reader α) : List Token → α → List Token → α × List Token
  | [], a, ts => (a, ts)
  | _ :: bound, a, ts =>
    match p a ts with
    | none => (a, ts)
    | some (a, rest) => iterateWithin p bound a rest

/-- Goes on from `a` as often as `p` succeeds. A reader that takes a token each time stops before
the tokens are used up. -/
def iterate (p : α → Reader α) (a : α) : Reader α := fun ts => some (iterateWithin p ts a ts)

/-- Reads as many phrases as there are, at most one for each token of `bound`. -/
def manyWithin (p : Reader α) : List Token → List Token → List α × List Token
  | [], ts => ([], ts)
  | _ :: bound, ts =>
    match p ts with
    | none => ([], ts)
    | some (a, rest) => let (more, rest) := manyWithin p bound rest; (a :: more, rest)

/-- Reads as many phrases as there are. A phrase takes a token, so there are at most as many phrases
as tokens. -/
def many (p : Reader α) : Reader (List α) := fun ts => some (manyWithin p ts ts)

/-- One or more phrases with `separator` between neighbours. -/
def separated (separator : Reader β) (p : Reader α) : Reader (List α) := do
  let first ← p
  let more ← many (separator *> p)
  return first :: more

/-- One or more phrases with commas between neighbours. -/
def commas (p : Reader α) : Reader (List α) := separated (symbol ",") p

/-- One or more phrases with commas between neighbours and perhaps one behind the last. -/
def commasMayTrail (p : Reader α) : Reader (List α) := commas p <* skip (symbol ",")

/-- Phrases with commas between neighbours, perhaps none, and perhaps a comma behind them; the comma
may stand alone. -/
def commasOrNone (p : Reader α) : Reader (List α) := (commas p <|> pure []) <* skip (symbol ",")

/-- Phrases that line breaks or semicolons divide, perhaps one behind the last. -/
def terminated (p : Reader α) : Reader (List α) :=
  (separated terminator p <* skip terminator) <|> pure []

/-- Phrases in parentheses, each followed by a line break or semicolon. -/
def group (p : Reader α) : Reader (List α) :=
  symbol "(" *> many (p <* terminator) <* symbol ")"

/-- Succeeds at the end of the text. -/
def atEnd : Reader Unit := fun ts => if (dropNewlines ts).isEmpty then some ((), []) else none

end Reader

/-! ### The recursive part of the grammar -/

/-- Where an expression stands. In the header of a statement a brace opens the body, so a type name
with a literal value behind it is no operand there. -/
structure Place where
  lines : Reader.Lines
  literals : Bool

namespace Place

/-- On its own line. -/
def line : Place := ⟨.count, true⟩

/-- Between brackets. -/
def enclosed : Place := ⟨.pass, true⟩

/-- In the header of a statement. -/
def header : Place := ⟨.pass, false⟩

end Place

/-- The phrases that can hold phrases of every other kind. Each module of the grammar reads its
phrases in terms of readers for phrases inside them. -/
structure Grammar where
  type : Reader.Lines → Reader TypeExpr
  expression : Place → Reader Unit
  literal : Reader Unit
  statement : Reader Unit

/-- The grammar that reads nothing. -/
def Grammar.nothing : Grammar := ⟨fun _ => failure, fun _ => failure, failure, failure⟩

end GoUml.Go
