import BusinessRules.Expr.Symbol
import BusinessRules.Text.Blank

/-!
# Tokens of rule text

Model of `Token`, `tokenize` and `classify`. Parentheses always stand alone; everything else is
separated by blanks. No quoting is understood, so a literal never holds a blank.

* `Token` — parentheses, connectives and words;
* `Token.ofWord` — the token of a run of characters;
* `Token.scan` — the tokens of a text, in one pass over its characters.
-/

namespace BusinessRules

/-- A unit of rule text above the characters. -/
inductive Token where
  | openParen
  | closeParen
  | connective (op : Connective)
  | word (text : String)
  deriving DecidableEq, Repr

namespace Token

def text : Token → String
  | .openParen => "("
  | .closeParen => ")"
  | .connective op => op.symbol
  | .word w => w

/-- The token of a run of characters that holds no blank and no parenthesis (`classify`): the two
connectives are set apart, every other run is a word. -/
def ofWord (w : String) : Token :=
  match Connective.ofSymbol? w with
  | some op => .connective op
  | none => .word w

/-- The state of a pass: the tokens so far and the run of characters in hand, both newest
first. -/
structure Scan where
  tokens : List Token
  run : List Char

/-- Ends the run in hand; an empty one is no token. -/
def Scan.endRun (s : Scan) : Scan :=
  match s.run with
  | [] => s
  | c :: cs => ⟨ofWord (String.ofList (c :: cs).reverse) :: s.tokens, []⟩

/-- Ends the run in hand and adds a token. -/
def Scan.add (s : Scan) (token : Token) : Scan := ⟨token :: s.endRun.tokens, []⟩

/-- One character: a blank ends the run, a parenthesis ends it and stands alone, every other
character joins it. -/
def Scan.step (s : Scan) (c : Char) : Scan :=
  if Text.isBlank c then s.endRun
  else if c = '(' then s.add .openParen
  else if c = ')' then s.add .closeParen
  else ⟨s.tokens, c :: s.run⟩

/-- The tokens of a text (`tokenize`). -/
def scan (text : String) : List Token :=
  (text.toList.foldl Scan.step ⟨[], []⟩).endRun.tokens.reverse

example : (scan "(age > 30)AND(x = 'y')").map Token.text =
    ["(", "age", ">", "30", ")", "AND", "(", "x", "=", "'y'", ")"] := by decide +kernel

end Token

end BusinessRules
