import GoUml.Go.Grammar.Statements

/-!
# Source files

A source file is a row of declarations and statements. A package clause, an import or a function may
stand last without anything behind it; everything else ends with a line break or a semicolon.
-/

namespace GoUml.Go

/-- Why a source file cannot be read. -/
inductive SourceError where
  | syntaxError
  | missingPackage
  deriving DecidableEq

namespace Grammar

open Reader

/-- What stands at the top level of a file. -/
inductive Item where
  | packageClause (name : String)
  | imports (specs : List ImportSpec)
  | types (specs : List TypeSpec)
  | method (spec : MethodSpec)
  | other

/-- A comment behind the keyword is taken for the name. -/
def packageClause : Reader Item := do
  let t ← keyword "package"
  let name ← word
  return .packageClause (t.comment.getD name)

def isQuote (c : Char) : Bool := c == '"' || c == '\x60'

def importSpec : Reader ImportSpec := do
  let localName ← maybe (word <|> ((·.text) <$> symbol "."))
  let path ← quoted
  return ⟨Text.trimWhile isQuote path, localName⟩

def importDeclaration : Reader Item := do
  discard <| keyword "import"
  .imports <$>
    ((symbol "(" *> terminated importSpec <* symbol ")") <|> (fun s => [s]) <$> importSpec)

/-! ### Receivers -/

/-- The tokens behind `gap` with each line break as part of the text in front of the token that
follows it. -/
def joinLines (gap : List Lexeme) : List Token → List Token
  | [] => []
  | t :: rest =>
    if t.isNewline then joinLines (gap ++ t.gap ++ [⟨t.kind, t.text⟩]) rest
    else { t with gap := gap ++ t.gap } :: joinLines [] rest

/-- How deep in brackets the token behind `t` stands. -/
def depthAfter (depth : Nat) (t : Token) : Nat :=
  if t.isSymbol "(" || t.isSymbol "[" || t.isSymbol "\x7b" then depth + 1
  else if t.isSymbol ")" || t.isSymbol "]" || t.isSymbol "\x7d" then depth - 1
  else depth

/-- Cuts tokens behind the separators that stand outside of brackets; no piece is empty. -/
def cutAfter (separator : String) : Nat → List Token → List (List Token)
  | _, [] => []
  | depth, t :: rest =>
    if depth = 0 && t.isSymbol separator then [t] :: cutAfter separator depth rest
    else
      match cutAfter separator (depthAfter depth t) rest with
      | [] => [[t]]
      | piece :: more => (t :: piece) :: more

/-- The names that a type argument gives, with the comma or bracket that ends it: its text, of
alternatives the first, and each comment that stands next to it. -/
def argumentNames : List Token → List String
  | [] => []
  | [close] => close.gapComments
  | first :: more =>
    let alternative := (cutAfter "|" 0 (first :: more)).headD []
    first.gapComments ++ Token.sourceText alternative.dropLast ::
      (more.getLast?.map Token.gapComments).getD []

/-- The tokens in front of and behind the bracket that opens the arguments of a generic type;
nothing for a type of another kind. -/
def genericParts? (tokens : List Token) : Option (List Token × List Token) :=
  let isOpen (t : Token) : Bool := t.isSymbol "["
  let base := tokens.takeWhile fun t => !isOpen t
  let rest := tokens.dropWhile fun t => !isOpen t
  match base.head?, rest with
  | some head, _ :: arguments =>
    if head.kind == .word && !typeKeywords.contains head.text && base.all (fun t =>
        t.kind == .word || t.isSymbol ".") then
      some (base, arguments)
    else none
  | _, _ => none

/-- A receiver: the text of its type, whether a pointer leads there, and the type parameters it
binds. -/
structure Receiver where
  text : String
  pointer : Bool
  typeParams : List String

/-- The receiver whose type is neither a pointer nor in parentheses. -/
def plainReceiver (tokens : List Token) : Receiver :=
  let tokens := joinLines [] tokens
  match genericParts? tokens with
  | some (base, arguments) =>
    ⟨Token.sourceText base, false, (cutAfter "," 0 arguments).flatMap argumentNames⟩
  | none => ⟨Token.sourceText tokens, false, []⟩

/-- The receiver that the tokens of a type write, through at most `limit` stars and
parentheses. -/
def receiverUpTo : Nat → List Token → Receiver
  | 0, tokens => plainReceiver tokens
  | limit + 1, tokens =>
    match dropNewlines tokens with
    | [] => ⟨"", false, []⟩
    | t :: rest =>
      if t.isSymbol "*" then
        match t.comment with
        | some comment => ⟨comment, true, []⟩
        | none => { receiverUpTo limit rest with pointer := true }
      else if t.isSymbol "(" then
        match t.comment with
        | some comment => ⟨comment, false, []⟩
        | none => receiverUpTo limit rest.dropLast
      else plainReceiver (t :: rest)

def receiverOf (tokens : List Token) : Receiver := receiverUpTo tokens.length tokens

/-! ### Functions and methods -/

def functionDeclaration (g : Grammar) : Reader Item := do
  discard <| keyword "func"
  discard <| word
  skip (typeParameters g)
  discard <| signature g .count
  skip (sameLine .count *> block g)
  return .other

def receiverList (g : Grammar) : Reader (List ParamGroup) := do
  discard <| keyword "func"
  paramGroups g .pass

/-- The first receiver that is not variadic counts; without one the method is passed over. -/
def methodItem (receivers : List ParamGroup) (name : String) (signature : SignatureOf TypeExpr) :
    Item :=
  match receivers.find? fun group => !group.variadic with
  | none => .other
  | some group =>
    let receiver := receiverOf group.typeTokens
    .method ⟨receiver.text, receiver.pointer, receiver.typeParams, name, signature⟩

def methodDeclaration (g : Grammar) : Reader Item := do
  let receivers ← receiverList g
  let name ← wordExcept typeKeywords
  let signature ← signature g .count
  skip (sameLine .count *> block g)
  return methodItem receivers name signature

/-- A declaration that the end of the file may follow. -/
def openDeclaration (g : Grammar) : Reader Item :=
  packageClause <|> importDeclaration <|> methodDeclaration g <|> functionDeclaration g

def item (g : Grammar) : Reader Item := do
  let t ← peek
  if t.isWord "package" || t.isWord "import" then openDeclaration g
  else if t.isWord "type" then .types <$> typeDeclaration g
  else if t.isWord "func" then openDeclaration g <|> (statementPhrase g *> pure .other)
  else statementPhrase g *> pure .other

def items (g : Grammar) : Reader (List Item) := do
  let items ← many (item g <* terminator)
  let last ← maybe (openDeclaration g)
  atEnd
  return items ++ last.toList

/-- Gathers what the items declare; of several package clauses the last one counts. -/
def gather (items : List Item) : SourceFile where
  package := (items.filterMap fun | .packageClause name => some name | _ => none).getLastD ""
  imports := (items.filterMap fun | .imports specs => some specs | _ => none).flatten
  types := (items.filterMap fun | .types specs => some specs | _ => none).flatten
  methods := items.filterMap fun | .method spec => some spec | _ => none

/-- The file that the tokens write. Each phrase inside another stands behind a token of its own, so
phrases nest less deep than there are tokens. -/
def file? (tokens : List Token) : Option SourceFile :=
  (items (ofDepth (tokens.length + 1)) tokens).map fun (items, _) => gather items

end Grammar

/-- Reads a source text. -/
def SourceFile.parse (text : String) : Except SourceError SourceFile :=
  match (Token.ofText? text).bind Grammar.file? with
  | none => .error .syntaxError
  | some file => if file.package == "" then .error .missingPackage else .ok file

end GoUml.Go
