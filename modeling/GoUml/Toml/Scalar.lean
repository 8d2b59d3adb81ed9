import GoUml.Json.Parser
import GoUml.Text.Basic
import GoUml.Toml.Basic

/-!
# TOML scalars

Quoted text, in one line or several, with or without escapes; and the words that write booleans,
numbers, dates and times. A word is read as a whole: every word has at most one reading.
-/

namespace GoUml.Toml

open Text

/-- A character that may stand for itself in a comment or between quotes. -/
def isPlain (c : Char) : Bool := c == '\t' || (' ' ≤ c && c != '\x7f')

def isSpace (c : Char) : Bool := c == ' ' || c == '\t'

/-- The text behind a line break. -/
def afterNewline? : List Char → Option (List Char)
  | '\n' :: rest => some rest
  | '\r' :: '\n' :: rest => some rest
  | _ => none

/-- The character that hexadecimal digits write, if it is one. -/
def scalarValue? (digits : List Char) : Option Char := do
  let n ← digits.foldlM (fun n c => return n * 16 + (← Json.hexDigit? c)) 0
  if Nat.isValidChar n then some (Char.ofNat n) else none

def shortEscape? (c : Char) : Option Char :=
  if c == '"' then some '"'
  else if c == '\\' then some '\\'
  else if c == 'b' then some '\x08'
  else if c == 't' then some '\t'
  else if c == 'n' then some '\n'
  else if c == 'f' then some '\x0c'
  else if c == 'r' then some '\r'
  else none

/-- The character that an escape stands for, behind its backslash, and the text after it. -/
def escape? : List Char → Option (Char × List Char)
  | [] => none
  | c :: rest =>
    let digits := if c == 'u' then 4 else 8
    if c == 'u' || c == 'U' then
      if rest.length < digits then none
      else (scalarValue? (rest.take digits)).map (·, rest.drop digits)
    else (shortEscape? c).map (·, rest)

/-- A text in one line behind its opening quote, and what follows the closing one. The limit counts
characters. -/
def lineUpTo (quote : Char) (escapes : Bool) : Nat → List Char → Option (List Char × List Char)
  | _, [] => none
  | 0, _ => none
  | limit + 1, c :: rest =>
    if c == quote then some ([], rest)
    else if escapes && c == '\\' then do
      let (escaped, rest) ← escape? rest
      let (text, after) ← lineUpTo quote escapes limit rest
      return (escaped :: text, after)
    else if isPlain c then do
      let (text, after) ← lineUpTo quote escapes limit rest
      return (c :: text, after)
    else none

/-- What follows a backslash at the end of a line, without the white space there. -/
def continued? (cs : List Char) : Option (List Char) := do
  let rest ← afterNewline? (cs.dropWhile isSpace)
  return blanksUpTo rest.length rest
where
  /-- Drops white space and line breaks in front. -/
  blanksUpTo : Nat → List Char → List Char
    | 0, cs => cs
    | limit + 1, cs =>
      match afterNewline? cs with
      | some rest => blanksUpTo limit rest
      | none =>
        match cs with
        | c :: rest => if isSpace c then blanksUpTo limit rest else cs
        | [] => []

/-- A text in several lines behind its three opening quotes, and what follows the closing ones. Up
to two quotes in front of the closing ones belong to the text, and a line break is a line feed. -/
def linesUpTo (quote : Char) (escapes : Bool) : Nat → List Char → Option (List Char × List Char)
  | _, [] => none
  | 0, _ => none
  | limit + 1, c :: rest =>
    if c == quote && rest.take 2 == [quote, quote] then
      let extra := min 2 ((rest.drop 2).takeWhile (· == quote)).length
      some (List.replicate extra quote, rest.drop (2 + extra))
    else if escapes && c == '\\' then
      match continued? rest with
      | some rest => linesUpTo quote escapes limit rest
      | none => do
        let (escaped, rest) ← escape? rest
        let (text, after) ← linesUpTo quote escapes limit rest
        return (escaped :: text, after)
    else match afterNewline? (c :: rest) with
      | some rest => do
        let (text, after) ← linesUpTo quote escapes limit rest
        return ('\n' :: text, after)
      | none =>
        if isPlain c then do
          let (text, after) ← linesUpTo quote escapes limit rest
          return (c :: text, after)
        else none

/-- A quoted text in one line. -/
def quotedLine? : List Char → Option (List Char × List Char)
  | '"' :: rest => lineUpTo '"' true rest.length rest
  | '\'' :: rest => lineUpTo '\'' false rest.length rest
  | _ => none

/-- A line break right behind three opening quotes does not count. -/
def quotedLines? (quote : Char) (escapes : Bool) (cs : List Char) :
    Option (List Char × List Char) :=
  let cs := (afterNewline? cs).getD cs
  linesUpTo quote escapes cs.length cs

/-- Any quoted text. -/
def quoted? : List Char → Option (List Char × List Char)
  | '"' :: '"' :: '"' :: rest => quotedLines? '"' true rest
  | '\'' :: '\'' :: '\'' :: rest => quotedLines? '\'' false rest
  | cs => quotedLine? cs

/-! ### Numbers -/

/-- The digits in `p` without the underscores between them; none unless an underscore always stands
between two digits. -/
def digits? (p : Char → Bool) : List Char → Option (List Char)
  | [c] => if p c then some [c] else none
  | c :: '_' :: rest => if p c then (digits? p rest).map (c :: ·) else none
  | c :: rest => if p c then (digits? p rest).map (c :: ·) else none
  | [] => none

/-- The number that digits write in a base. -/
def natOf (base : Nat) (digits : List Char) : Nat :=
  digits.foldl (fun n c => n * base + (Json.hexDigit? c).getD 0) 0

/-- Splits off a sign; whether the number is negative. -/
def signed : List Char → Bool × List Char
  | '-' :: rest => (true, rest)
  | '+' :: rest => (false, rest)
  | cs => (false, cs)

/-- Decimal digits without a needless zero in front. -/
def decimal? (cs : List Char) : Option (List Char) := do
  let digits ← digits? isAsciiDigit cs
  if digits.length > 1 && digits.head? = some '0' then none else some digits

/-- A digit of a base up to sixteen. -/
def isDigitOf (base : Nat) (c : Char) : Bool := (Json.hexDigit? c).any (· < base)

/-- An integer of 64 bits. Only a decimal one has a sign. -/
def integer? (cs : List Char) : Option Toml := do
  let n : Int ← match cs with
    | '0' :: 'x' :: rest => (digits? (isDigitOf 16) rest).map fun d => Int.ofNat (natOf 16 d)
    | '0' :: 'o' :: rest => (digits? (isDigitOf 8) rest).map fun d => Int.ofNat (natOf 8 d)
    | '0' :: 'b' :: rest => (digits? (isDigitOf 2) rest).map fun d => Int.ofNat (natOf 2 d)
    | _ =>
      let (negative, rest) := signed cs
      (decimal? rest).map fun d =>
        if negative then -Int.ofNat (natOf 10 d) else Int.ofNat (natOf 10 d)
  if Int64.minValue.toInt ≤ n && n ≤ Int64.maxValue.toInt then some (.integer n) else none

/-- Splits at the first character in `p`, which is dropped. -/
def cutAt? (p : Char → Bool) (cs : List Char) : Option (List Char × List Char) :=
  match cs.dropWhile fun c => !p c with
  | [] => none
  | _ :: rest => some (cs.takeWhile fun c => !p c, rest)

/-- Whether `mantissa · 10 ^ exponent` is beyond the largest number of double precision. -/
def overflows (mantissa : Nat) (exponent : Int) : Bool :=
  let length := (toString mantissa).length
  mantissa != 0 &&
    if exponent + length > 400 then true
    else if exponent < 0 then false
    else mantissa * Nat.pow 10 exponent.toNat ≥ Nat.pow 2 1024 - Nat.pow 2 970

def exponent? (cs : List Char) : Option Int := do
  let (negative, rest) := signed cs
  let n := natOf 10 (← digits? isAsciiDigit rest)
  return if negative then -Int.ofNat n else Int.ofNat n

/-- A number with a fraction, an exponent or both. One that is too large is refused. -/
def float? (cs : List Char) : Option Toml := do
  let (negative, rest) := signed cs
  if rest == "inf".toList || rest == "nan".toList then return .float (String.ofList cs)
  let (mantissa, exponent) ← match cutAt? (fun c => c == 'e' || c == 'E') rest with
    | some (mantissa, exponent) => (exponent? exponent).map (mantissa, some ·)
    | none => some (rest, none)
  let (whole, fraction) ← match cutAt? (· == '.') mantissa with
    | some (whole, fraction) =>
      (digits? isAsciiDigit fraction).bind fun fraction => (decimal? whole).map (·, fraction)
    | none => if exponent.isNone then none else (decimal? mantissa).map (·, [])
  let value := natOf 10 (whole ++ fraction)
  if !negative && overflows value (exponent.getD 0 - fraction.length) then none
  else return .float (String.ofList cs)

/-! ### Dates and times -/

/-- A number of exactly `n` digits in front, and what follows it. -/
def fixed? (n : Nat) (cs : List Char) : Option (Nat × List Char) :=
  let digits := cs.take n
  if digits.length = n && digits.all isAsciiDigit then some (natOf 10 digits, cs.drop n) else none

def char? (c : Char) : List Char → Option (List Char)
  | d :: rest => if c = d then some rest else none
  | [] => none

def isLeapYear (year : Nat) : Bool := year % 4 = 0 && (year % 100 ≠ 0 || year % 400 = 0)

def daysIn (year month : Nat) : Nat :=
  if month = 2 then (if isLeapYear year then 29 else 28)
  else if month = 4 || month = 6 || month = 9 || month = 11 then 30
  else 31

/-- What follows a date. -/
def afterDate? (cs : List Char) : Option (List Char) := do
  let (year, cs) ← fixed? 4 cs
  let (month, cs) ← fixed? 2 (← char? '-' cs)
  let (day, cs) ← fixed? 2 (← char? '-' cs)
  if 1 ≤ month && month ≤ 12 && 1 ≤ day && day ≤ daysIn year month then some cs else none

/-- What follows a time of day. A minute may have a leap second. -/
def afterTime? (cs : List Char) : Option (List Char) := do
  let (hour, cs) ← fixed? 2 cs
  let (minute, cs) ← fixed? 2 (← char? ':' cs)
  let (second, cs) ← fixed? 2 (← char? ':' cs)
  if hour ≤ 23 && minute ≤ 59 && second ≤ 60 then
    match cs with
    | '.' :: fraction =>
      let rest := fraction.dropWhile isAsciiDigit
      if rest.length < fraction.length then some rest else none
    | _ => some cs
  else none

/-- Whether the text is empty or an offset from universal time. -/
def isOffset : List Char → Bool
  | [] => true
  | ['Z'] => true
  | ['z'] => true
  | sign :: cs =>
    (sign == '+' || sign == '-') &&
      ((do
        let (hour, cs) ← fixed? 2 cs
        let (minute, cs) ← fixed? 2 (← char? ':' cs)
        return hour ≤ 23 && minute ≤ 59 && cs.isEmpty : Option Bool)).getD false

def isTimeMark (c : Char) : Bool := c == 'T' || c == 't' || c == ' '

/-- A date, a time, or both with or without an offset. -/
def datetime? (cs : List Char) : Option Toml :=
  let valid := match afterDate? cs with
    | some [] => true
    | some (mark :: time) => isTimeMark mark && (afterTime? time).any isOffset
    | none => (afterTime? cs).any List.isEmpty
  if valid then some (.datetime (String.ofList cs)) else none

def isWordChar (c : Char) : Bool :=
  isAsciiLetter c || isAsciiDigit c || c == '_' || c == '+' || c == '-' || c == '.' || c == ':'

/-- The value that a word writes. -/
def ofWord? (word : List Char) : Option Toml :=
  if word == "true".toList then some (.boolean true)
  else if word == "false".toList then some (.boolean false)
  else datetime? word <|> integer? word <|> float? word

/-- The word in front. A blank belongs to it when it divides a date from a time. -/
def takeWord (cs : List Char) : List Char × List Char :=
  let word := cs.takeWhile isWordChar
  let rest := cs.dropWhile isWordChar
  match rest with
  | ' ' :: c :: more =>
    if isAsciiDigit c && afterDate? word == some [] then
      (word ++ ' ' :: (c :: more).takeWhile isWordChar, (c :: more).dropWhile isWordChar)
    else (word, rest)
  | _ => (word, rest)

/-- A boolean, number, date or time, and what follows it. -/
def bare? (cs : List Char) : Option (Toml × List Char) :=
  let (word, rest) := takeWord cs
  (ofWord? word).map (·, rest)

end GoUml.Toml
