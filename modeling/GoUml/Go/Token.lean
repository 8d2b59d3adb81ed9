import GoUml.Go.Lexeme

/-!
# Tokens

The grammar reads words, literals, symbols and line breaks. Blanks and comments are dropped, with
two exceptions. A comment behind a pointer star, an opening parenthesis, a tilde or the word
`package` is kept on that token, because it takes the place of what the token introduces. In the
parentheses behind `func` what is dropped is kept on the token that follows it, because a method
shows the text of its receiver.
-/

namespace GoUml.Go

structure Token where
  kind : LexemeKind
  text : String
  /-- The first comment behind a token that a comment can be taken for. -/
  comment : Option String
  /-- The blanks and comments in front of a token in the parentheses behind `func`. -/
  gap : List Lexeme
  deriving DecidableEq

namespace Token

/-- Whether a comment behind the lexeme counts. -/
def mindsComments (l : Lexeme) : Bool :=
  (l.kind == .symbol && (l.text == "*" || l.text == "(" || l.text == "~")) ||
    (l.kind == .word && l.text == "package")

/-- The first comment before the next word, literal or symbol. -/
def nextComment? : List Lexeme → Option String
  | [] => none
  | l :: rest =>
    match l.kind with
    | .comment => some l.text
    | .blank | .newline => nextComment? rest
    | _ => none

/-- How deep the reader stands in the parentheses behind `func`. -/
inductive Nesting where
  | outside
  | afterFunc
  | inside (depth : Nat)
  deriving DecidableEq

namespace Nesting

def after (n : Nesting) (l : Lexeme) : Nesting :=
  match n, l.kind with
  | n, .newline => n
  | .inside d, .symbol =>
    if l.text == "(" then .inside (d + 1)
    else if l.text == ")" then (if d = 0 then .outside else .inside (d - 1))
    else .inside d
  | .inside d, _ => .inside d
  | .afterFunc, .symbol => if l.text == "(" then .inside 0 else .outside
  | _, .word => if l.text == "func" then .afterFunc else .outside
  | _, _ => .outside

def keepsGap : Nesting → Bool
  | .inside _ => true
  | _ => false

end Nesting

/-- The tokens of lexemes that stand behind `gap` at the given nesting. -/
def ofLexemesFrom (nesting : Nesting) (gap : List Lexeme) : List Lexeme → List Token
  | [] => []
  | l :: rest =>
    match l.kind with
    | .comment | .blank =>
      ofLexemesFrom nesting (if nesting.keepsGap then gap ++ [l] else gap) rest
    | _ =>
      ⟨l.kind, l.text, if mindsComments l then nextComment? rest else none, gap⟩ ::
        ofLexemesFrom (nesting.after l) [] rest

def ofLexemes (lexemes : List Lexeme) : List Token := ofLexemesFrom .outside [] lexemes

def ofText? (text : String) : Option (List Token) := (Lexeme.ofText? text).map ofLexemes

def isNewline (t : Token) : Bool := t.kind == .newline

def isWord (w : String) (t : Token) : Bool := t.kind == .word && t.text == w

def isSymbol (s : String) (t : Token) : Bool := t.kind == .symbol && t.text == s

/-- The text in front of a token. -/
def gapText (t : Token) : String := t.gap.foldr (fun l more => l.text ++ more) ""

/-- The comments in front of a token. -/
def gapComments (t : Token) : List String :=
  (t.gap.filter fun l => l.kind == .comment).map (·.text)

/-- The source text of neighbouring tokens, from the first to the last. -/
def sourceText : List Token → String
  | [] => ""
  | t :: rest => t.text ++ rest.foldr (fun t more => t.gapText ++ t.text ++ more) ""

end Token

end GoUml.Go
