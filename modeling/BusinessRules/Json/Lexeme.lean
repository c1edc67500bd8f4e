import BusinessRules.Json.Document

/-!
# Lexemes of JSON text

The first stage of reading: brackets, separators, literals, numerals and strings, by the grammar
of the data format.

* `Quotation` — a string of the text: either characters, or the first fault among its escapes (an
  escape may name half of a surrogate pair, which is well-formed text but spells no character);
* `readQuotation?` — a string up to its closing mark;
* `readNumeral?` — a numeral;
* `Lexeme.scan?` — all lexemes of a text, or `none` where one cannot be read.
-/

namespace BusinessRules.Json

open Decimal

/-- Why an escape spells no character: it names one half of a surrogate pair, and the other half
does not follow. -/
inductive EscapeFault where
  /-- a second half by itself, or a first half followed by the escape of something else -/
  | loneSurrogate
  /-- a first half that no escape follows -/
  | unfinishedPair
  deriving DecidableEq, Repr

/-- A string of a JSON text. -/
inductive Quotation where
  | text (s : String)
  | faulty (fault : EscapeFault)
  deriving DecidableEq, Repr

/-- The text of a string, if it spells one. -/
def Quotation.text? : Quotation → Option String
  | .text s => some s
  | .faulty _ => none

/-- A unit of JSON text above the characters. -/
inductive Lexeme where
  | openBrace
  | closeBrace
  | openBracket
  | closeBracket
  | comma
  | colon
  | null
  | bool (b : Bool)
  | number (n : Numeral)
  | string (q : Quotation)
  deriving DecidableEq

/-! ## Strings -/

/-- The value of a hexadecimal digit of either case. -/
def hexValue? (c : Char) : Option Nat :=
  if '0' ≤ c ∧ c ≤ '9' then some (c.toNat - 48)
  else if 'a' ≤ c ∧ c ≤ 'f' then some (c.toNat - 87)
  else if 'A' ≤ c ∧ c ≤ 'F' then some (c.toNat - 55)
  else none

/-- The code that four hexadecimal digits name. -/
def hexCode? (a b c d : Char) : Option Nat :=
  match hexValue? a, hexValue? b, hexValue? c, hexValue? d with
  | some a, some b, some c, some d => some (((a * 16 + b) * 16 + c) * 16 + d)
  | _, _, _, _ => none

/-- The character of an escape that is one letter. -/
def letterEscape? : Char → Option Char
  | '"' => some '"'
  | '\\' => some '\\'
  | '/' => some '/'
  | 'b' => some '\x08'
  | 'f' => some '\x0c'
  | 'n' => some '\n'
  | 'r' => some '\r'
  | 't' => some '\t'
  | _ => none

/-- A code in the first half of the surrogates. -/
def isHighSurrogate (code : Nat) : Bool := 0xD800 ≤ code && code < 0xDC00

/-- A code in the second half of the surrogates. -/
def isLowSurrogate (code : Nat) : Bool := 0xDC00 ≤ code && code < 0xE000

/-- The character that a pair of surrogates names. -/
def pairedChar (high low : Nat) : Char :=
  Char.ofNat (0x10000 + (high - 0xD800) * 0x400 + (low - 0xDC00))

/-- A unit of a string: a character, or the code that a hexadecimal escape names. -/
inductive StringUnit where
  | char (c : Char)
  | code (n : Nat)

/-- The units of a string from behind its opening mark, in front of which stand those read so far
(newest first); what is left stands behind the closing mark. `none` if the mark never comes, a
control stands unescaped, or an escape has no meaning. -/
def readUnits? : List Char → List StringUnit → Option (List StringUnit × List Char)
  | [], _ => none
  | '"' :: rest, read => some (read.reverse, rest)
  | '\\' :: 'u' :: a :: b :: c :: d :: rest, read =>
    match hexCode? a b c d with
    | none => none
    | some code => readUnits? rest (.code code :: read)
  | '\\' :: c :: rest, read =>
    match letterEscape? c with
    | none => none
    | some escaped => readUnits? rest (.char escaped :: read)
  | c :: rest, read =>
    if c.toNat < 0x20 || c = '\\' then none else readUnits? rest (.char c :: read)

/-- The string that units spell, in front of which stand the characters spelled so far (newest
first). Two codes that are the halves of a surrogate pair spell one character; a half without the
other is a fault, and the first fault counts. -/
def Quotation.ofUnits : List StringUnit → List Char → Quotation
  | [], spelled => .text (String.ofList spelled.reverse)
  | .char c :: rest, spelled => ofUnits rest (c :: spelled)
  | .code first :: rest, spelled =>
    if isLowSurrogate first then .faulty .loneSurrogate
    else if isHighSurrogate first then
      match rest with
      | .code second :: rest =>
        if isLowSurrogate second then ofUnits rest (pairedChar first second :: spelled)
        else .faulty .loneSurrogate
      | _ => .faulty .unfinishedPair
    else ofUnits rest (Char.ofNat first :: spelled)

/-- A string from behind its opening mark; what is left stands behind the closing mark. -/
def readQuotation? (cs : List Char) : Option (Quotation × List Char) :=
  (readUnits? cs []).map fun (units, rest) => (Quotation.ofUnits units [], rest)

/-! ## Numerals -/

/-- The digits in front of a text, at least one, and the rest. -/
def readDigits? (cs : List Char) : Option (List Char × List Char) :=
  match cs.takeWhile Char.isDigit with
  | [] => none
  | d :: ds => some (d :: ds, cs.dropWhile Char.isDigit)

/-- The digits before the point: a zero by itself, or digits that start with another. -/
def readWhole? : List Char → Option (List Char × List Char)
  | '0' :: rest => some (['0'], rest)
  | cs => readDigits? cs

/-- The digits behind the point, none without a point. -/
def readFraction? : List Char → Option (List Char × List Char)
  | '.' :: rest => readDigits? rest
  | cs => some ([], cs)

/-- The exponent part, none without its letter. -/
def readExponent? : List Char → Option (Option Exponent × List Char)
  | c :: rest =>
    if c = 'e' ∨ c = 'E' then
      let (negative, digitsOn) :=
        match rest with
        | '-' :: more => (true, more)
        | '+' :: more => (false, more)
        | more => (false, more)
      (readDigits? digitsOn).map fun (ds, left) => (some ⟨negative, ds⟩, left)
    else some (none, c :: rest)
  | [] => some (none, [])

/-- A numeral in front of a text, and the rest. -/
def readNumeral? (cs : List Char) : Option (Numeral × List Char) := do
  let (negative, unsigned) :=
    match cs with
    | '-' :: rest => (true, rest)
    | rest => (false, rest)
  let (whole, afterWhole) ← readWhole? unsigned
  let (fraction, afterFraction) ← readFraction? afterWhole
  let (exponent, rest) ← readExponent? afterFraction
  return (⟨negative, whole, fraction, exponent⟩, rest)

/-! ## Scanning -/

/-- The four characters that may stand between lexemes. -/
def isSpace (c : Char) : Bool := c = ' ' || c = '\t' || c = '\n' || c = '\r'

/-- The lexeme that starts a text which starts with no space, and the rest. -/
def Lexeme.take? : List Char → Option (Lexeme × List Char)
  | '\x7b' :: rest => some (.openBrace, rest)
  | '\x7d' :: rest => some (.closeBrace, rest)
  | '[' :: rest => some (.openBracket, rest)
  | ']' :: rest => some (.closeBracket, rest)
  | ',' :: rest => some (.comma, rest)
  | ':' :: rest => some (.colon, rest)
  | '"' :: rest => (readQuotation? rest).map fun (q, left) => (.string q, left)
  | 'n' :: 'u' :: 'l' :: 'l' :: rest => some (.null, rest)
  | 't' :: 'r' :: 'u' :: 'e' :: rest => some (.bool true, rest)
  | 'f' :: 'a' :: 'l' :: 's' :: 'e' :: rest => some (.bool false, rest)
  | cs => (readNumeral? cs).map fun (n, left) => (.number n, left)

/-- The lexemes of a text behind those read so far (newest first). Each one takes at least one
character, so a step for every character is enough. -/
def Lexeme.scanOnto? : Nat → List Char → List Lexeme → Option (List Lexeme)
  | steps, cs, read =>
    match cs.dropWhile isSpace, steps with
    | [], _ => some read.reverse
    | _ :: _, 0 => none
    | c :: rest, steps + 1 =>
      match Lexeme.take? (c :: rest) with
      | none => none
      | some (lexeme, left) => Lexeme.scanOnto? steps left (lexeme :: read)

/-- The lexemes of a text; `none` where one cannot be read. -/
def Lexeme.scan? (text : String) : Option (List Lexeme) :=
  let cs := text.toList
  Lexeme.scanOnto? cs.length cs []

end BusinessRules.Json
