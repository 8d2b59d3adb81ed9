import GoUml.Text.Basic
import GoUml.Text.Identifier

/-!
# Lexemes

A Go source text is cut into lexemes without losing a character: words, literals and symbols, and
between them line breaks, comments and blanks. Each lexeme is the longest one that starts where
it starts.
-/

namespace GoUml.Go

open Text

inductive LexemeKind where
  | word
  | number
  | quoted
  | rune
  | symbol
  | newline
  | comment
  | blank
  deriving DecidableEq

structure Lexeme where
  kind : LexemeKind
  text : String
  deriving DecidableEq

namespace Lexeme

def isHexDigit (c : Char) : Bool :=
  isAsciiDigit c || ('a' ≤ c && c ≤ 'f') || ('A' ≤ c && c ≤ 'F')

def isOctalDigit (c : Char) : Bool := '0' ≤ c && c ≤ '7'

def isBinaryDigit (c : Char) : Bool := c == '0' || c == '1'

/-- How many characters the digits in `p` take, when at most one underscore stands between
neighbours. -/
def digitsRest (p : Char → Bool) : List Char → Nat
  | '_' :: c :: rest => if p c then 2 + digitsRest p rest else 0
  | c :: rest => if p c then 1 + digitsRest p rest else 0
  | [] => 0

/-- The length of a run of digits, none when there is no digit. -/
def digits? (p : Char → Bool) : List Char → Option Nat
  | c :: rest => if p c then some (1 + digitsRest p rest) else none
  | [] => none

/-- The length of a run of digits that an underscore may precede. -/
def markedDigits? (p : Char → Bool) : List Char → Option Nat
  | '_' :: rest => (digits? p rest).map (· + 1)
  | cs => digits? p cs

/-! ### Numbers

A number is read as the longest of its spellings; a spelling answers with its length. -/

def longer : Option Nat → Option Nat → Option Nat
  | some a, some b => some (max a b)
  | some a, none => some a
  | none, b => b

/-- The length of an exponent that one of two letters opens. -/
def exponent? (lower upper : Char) : List Char → Option Nat
  | mark :: sign :: rest =>
    if mark == lower || mark == upper then
      if sign == '+' || sign == '-' then (digits? isAsciiDigit rest).map (· + 2)
      else (digits? isAsciiDigit (sign :: rest)).map (· + 1)
    else none
  | _ => none

/-- Adds the length of what `more` reads behind the first `n` characters. -/
def andThen (cs : List Char) (more : List Char → Option Nat) (n : Nat) : Option Nat :=
  (more (cs.drop n)).map (n + ·)

/-- Adds the length of what `more` reads, if it reads anything. -/
def andMaybe (cs : List Char) (more : List Char → Option Nat) (n : Nat) : Nat :=
  n + (more (cs.drop n)).getD 0

def integer? : List Char → Option Nat
  | '0' :: rest =>
    let based := match rest with
      | mark :: digits =>
        if mark == 'x' || mark == 'X' then (markedDigits? isHexDigit digits).map (· + 2)
        else if mark == 'b' || mark == 'B' then (markedDigits? isBinaryDigit digits).map (· + 2)
        else if mark == 'o' || mark == 'O' then (markedDigits? isOctalDigit digits).map (· + 2)
        else none
      | [] => none
    longer (some 1) (longer based ((markedDigits? isOctalDigit rest).map (· + 1)))
  | c :: rest => if isAsciiDigit c then some (1 + digitsRest isAsciiDigit rest) else none
  | [] => none

def point? : List Char → Option Nat
  | '.' :: _ => some 1
  | _ => none

def decimalFloat? (cs : List Char) : Option Nat :=
  let decimalExponent := exponent? 'e' 'E'
  match cs with
  | '.' :: rest =>
    (digits? isAsciiDigit rest).map fun n => andMaybe cs decimalExponent (n + 1)
  | _ =>
    (digits? isAsciiDigit cs).bind fun n =>
      match andThen cs point? n with
      | some m => some (andMaybe cs decimalExponent (andMaybe cs (digits? isAsciiDigit) m))
      | none => andThen cs decimalExponent n

def hexFloat? : List Char → Option Nat
  | '0' :: mark :: rest =>
    if mark == 'x' || mark == 'X' then
      let mantissa := match rest with
        | '.' :: more => (digits? isHexDigit more).map (· + 1)
        | _ => (markedDigits? isHexDigit rest).map fun n =>
          match andThen rest point? n with
          | some m => andMaybe rest (digits? isHexDigit) m
          | none => n
      (mantissa.bind fun n => andThen rest (exponent? 'p' 'P') n).map (· + 2)
    else none
  | _ => none

/-- The length of the number at the front, an imaginary unit behind it included. -/
def number? (cs : List Char) : Option Nat :=
  let real := longer (integer? cs) (longer (decimalFloat? cs) (hexFloat? cs))
  let imaginary (n : Option Nat) : Option Nat :=
    n.bind fun n => if (cs.drop n).head? = some 'i' then some (n + 1) else none
  longer real (longer (imaginary real) (imaginary (digits? isAsciiDigit cs)))

/-! ### Quoted text -/

/-- The length of an escape behind its backslash: hexadecimal digits behind `x`, `u` and `U`, else
any one character. -/
def escape? : List Char → Option Nat
  | 'x' :: a :: b :: rest =>
    if isHexDigit a && isHexDigit b then some (3 + (rest.takeWhile isHexDigit).length) else none
  | 'u' :: rest =>
    if rest.length ≥ 4 && (rest.take 4).all isHexDigit then some 5 else none
  | 'U' :: rest =>
    if rest.length ≥ 8 && (rest.take 8).all isHexDigit then some 9 else none
  | c :: _ => if c == 'x' then none else some 1
  | [] => none

/-- The length of an interpreted string behind its opening quote. The first argument counts the
characters of an escape that are still to pass. -/
def quotedRest? : Nat → List Char → Option Nat
  | _, [] => none
  | n + 1, _ :: rest => (quotedRest? n rest).map (· + 1)
  | 0, c :: rest =>
    if c == '"' then some 1
    else if c == '\n' then none
    else if c == '\\' then
      (escape? rest).bind fun n => (quotedRest? n rest).map (· + 1)
    else (quotedRest? 0 rest).map (· + 1)

/-- The length of a raw string behind its opening mark. -/
def rawRest? : List Char → Option Nat
  | [] => none
  | c :: rest => if c == '\x60' then some 1 else (rawRest? rest).map (· + 1)

def shortRuneEscapes : List Char := ['a', 'b', 'f', 'n', 'r', 't', 'v', '\\', '\'', '"']

/-- The length of the escape of a rune behind its backslash. -/
def runeEscape? : List Char → Option Nat
  | c :: rest =>
    if c == 'x' then
      if rest.length ≥ 2 && (rest.take 2).all isHexDigit then some 3 else none
    else if c == 'u' then
      if rest.length ≥ 4 && (rest.take 4).all isHexDigit then some 5 else none
    else if c == 'U' then
      if rest.length ≥ 8 && (rest.take 8).all isHexDigit then some 9 else none
    else if isOctalDigit c then
      if rest.length ≥ 2 && (rest.take 2).all isOctalDigit then some 3 else none
    else if shortRuneEscapes.contains c then some 1
    else none
  | [] => none

def closingRune? : List Char → Option Nat
  | '\'' :: _ => some 1
  | _ => none

/-- The length of a rune behind its opening quote. -/
def runeRest? : List Char → Option Nat
  | '\\' :: rest =>
    (runeEscape? rest).bind fun n => (andThen rest closingRune? n).map (· + 1)
  | '\'' :: _ => none
  | _ :: '\'' :: _ => some 2
  | _ => none

/-- The length of a comment behind its opening, up to and with the first closing. -/
def commentRest? : List Char → Option Nat
  | '*' :: '/' :: _ => some 2
  | _ :: rest => (commentRest? rest).map (· + 1)
  | [] => none

/-- The length of a comment: up to the end of the line, or up to its closing. What opens a comment
that nothing closes is a division and a star. -/
def comment? : List Char → Option Nat
  | '/' :: '/' :: rest => some (2 + (rest.takeWhile (· ≠ '\n')).length)
  | '/' :: '*' :: rest => (commentRest? rest).map (· + 2)
  | _ => none

/-! ### Cutting -/

/-- The symbols; of two that begin alike the longer stands first. -/
def symbols : List String :=
  ["<<=", ">>=", "&^=", "...",
   ":=", "++", "--", "+=", "-=", "*=", "/=", "%=", "&=", "|=", "^=", "<<", ">>", "&^", "==", "!=",
   "<=", ">=", "&&", "||", "<-",
   "(", ")", "\x7b", "\x7d", "[", "]", ",", ";", ":", ".", "=", "+", "-", "*", "/", "%", "&", "|",
   "^", "<", ">", "!", "~", "\x00"]

/-- Blanks other than a line break. -/
def isGap (c : Char) : Bool :=
  c == ' ' || c == '\t' || c == '\r' || c == '\x0b' || c == '\x0c'

def symbol? (cs : List Char) : Option Nat :=
  (symbols.find? fun s => (stripStart? s.toList cs).isSome).map String.length

/-- The kind and the length of the first lexeme; none when no lexeme starts here. -/
def first? : List Char → Option (LexemeKind × Nat)
  | [] => none
  | c :: rest =>
    let cs := c :: rest
    if c == '\n' then some (.newline, 1)
    else if isGap c then some (.blank, 1 + (rest.takeWhile isGap).length)
    else if isIdentifierStart c then
      some (.word, 1 + (rest.takeWhile isIdentifierRest).length)
    else if c == '"' then (quotedRest? 0 rest).map fun n => (.quoted, n + 1)
    else if c == '\x60' then (rawRest? rest).map fun n => (.quoted, n + 1)
    else if c == '\'' then (runeRest? rest).map fun n => (.rune, n + 1)
    else (comment? cs).map (.comment, ·)
      <|> (number? cs).map (.number, ·)
      <|> (symbol? cs).map (.symbol, ·)

/-- Cuts the text into at most `limit` lexemes. -/
def cutUpTo : Nat → List Char → Option (List Lexeme)
  | _, [] => some []
  | 0, _ :: _ => none
  | limit + 1, cs => do
    let (kind, n) ← first? cs
    let more ← cutUpTo limit (cs.drop n)
    return ⟨kind, String.ofList (cs.take n)⟩ :: more

/-- The lexemes of a text. Every lexeme has a character of its own, so there are at most as many
lexemes as characters. -/
def cut (cs : List Char) : Option (List Lexeme) := cutUpTo cs.length cs

/-- The lexemes of a source text, which a byte order mark may open. -/
def ofText? (text : String) : Option (List Lexeme) :=
  cut (match text.toList with
    | '\ufeff' :: rest => rest
    | cs => cs)

end Lexeme

end GoUml.Go
