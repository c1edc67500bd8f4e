import BusinessRules.Expr.Basic
import BusinessRules.Expr.ParseError
import BusinessRules.Expr.Token

/-!
# Parsing rule text

Model of `parse`, `parse_tokens`, `parse_comparison` and `reduce`. `AND` and `OR` bind equally and
group to the left: `a > 1 OR b > 1 AND c > 1` is `(a > 1 OR b > 1) AND c > 1`. The tokens are read
in one pass with two stacks, one of finished expressions and one of pending connectives and open
parentheses.

* `Stacks` — the state of the pass;
* `shift` — the pass over the tokens; its case of a word is `parse_comparison`;
* `reduce` — two finished expressions become one;
* `settle`, `closeParen`, `finish` — the reductions due before a connective,
  at a closing parenthesis and at the end;
* `Expr.ofTokens`, `Expr.parse` — the expression of a token list and of a text.
-/

namespace BusinessRules

namespace Parser

/-- A finished expression with its height. -/
structure Subtree where
  expr : Expr
  height : Nat
  deriving DecidableEq, Repr

/-- What waits for the expression to its right. -/
inductive Pending where
  | openParen
  | connective (op : Connective)
  deriving DecidableEq, Repr

/-- The state of a pass over tokens, both stacks with their top first. -/
structure Stacks where
  subtrees : List Subtree
  pending : List Pending
  deriving DecidableEq, Repr

/-- Joins the two topmost expressions, the upper one on the right. -/
def reduce (op : Connective) : List Subtree → Except ParseError (List Subtree)
  | right :: left :: rest =>
    let height := max left.height right.height + 1
    if maxDepth < height then .error .tooDeep
    else .ok (⟨.join op left.expr right.expr, height⟩ :: rest)
  | _ => .error (.missingOperand op)

/-- Carries out the pending connectives down to the next open parenthesis. -/
def settle : List Pending → List Subtree → Except ParseError Stacks
  | .connective op :: pending, subtrees =>
    match reduce op subtrees with
    | .error e => .error e
    | .ok reduced => settle pending reduced
  | pending, subtrees => .ok ⟨subtrees, pending⟩

/-- Carries out the pending connectives down to the next open parenthesis and takes it away. -/
def closeParen : List Pending → List Subtree → Except ParseError Stacks
  | [], _ => .error .unbalancedParentheses
  | .openParen :: pending, subtrees => .ok ⟨subtrees, pending⟩
  | .connective op :: pending, subtrees =>
    match reduce op subtrees with
    | .error e => .error e
    | .ok reduced => closeParen pending reduced

/-- Carries out all pending connectives; no parenthesis may be open. -/
def finish : List Pending → List Subtree → Except ParseError (List Subtree)
  | [], subtrees => .ok subtrees
  | .openParen :: _, _ => .error .unbalancedParentheses
  | .connective op :: pending, subtrees =>
    match reduce op subtrees with
    | .error e => .error e
    | .ok reduced => finish pending reduced

/-- The text of a comparison: its three words with a space between. -/
def comparisonText (field : String) (comparator : Comparator) (value : String) : String :=
  field ++ " " ++ comparator.symbol ++ " " ++ value

/-- The comparator that must follow a field (part of `parse_comparison`). -/
def comparatorAfter (field : String) : Token → Except ParseError Comparator
  | .word w =>
    match Comparator.ofSymbol? w with
    | some comparator => .ok comparator
    | none => .error (.unknownComparator field w)
  | token => .error (.unknownComparator field token.text)

/-- One pass over the tokens. A word starts a comparison and takes the two tokens behind it. -/
def shift : List Token → Stacks → Except ParseError Stacks
  | [], s => .ok s
  | .openParen :: rest, s => shift rest ⟨s.subtrees, .openParen :: s.pending⟩
  | .closeParen :: rest, s =>
    match closeParen s.pending s.subtrees with
    | .error e => .error e
    | .ok closed => shift rest closed
  | .connective op :: rest, s =>
    match settle s.pending s.subtrees with
    | .error e => .error e
    | .ok settled => shift rest ⟨settled.subtrees, .connective op :: settled.pending⟩
  | [.word field], _ => .error (.incompleteComparison field)
  | [.word field, symbol], _ =>
    match comparatorAfter field symbol with
    | .error e => .error e
    | .ok comparator => .error (.missingValue field comparator)
  | .word field :: symbol :: operand :: rest, s =>
    match comparatorAfter field symbol with
    | .error e => .error e
    | .ok comparator =>
      match operand with
      | .word value =>
        shift rest ⟨⟨.leaf (comparisonText field comparator value), 1⟩ :: s.subtrees, s.pending⟩
      | _ => .error (.missingValue field comparator)

end Parser

/-- The expression of a list of tokens (`parse_tokens`): exactly one must be left at the end. -/
def Expr.ofTokens (tokens : List Token) : Except ParseError Expr :=
  if tokens = [] then .error .empty
  else
    match Parser.shift tokens ⟨[], []⟩ with
    | .error e => .error e
    | .ok s =>
      match Parser.finish s.pending s.subtrees with
      | .error e => .error e
      | .ok [subtree] => .ok subtree.expr
      | .ok subtrees => .error (.malformed subtrees.length)

/-- The expression of a rule text (`parse`). -/
def Expr.parse (text : String) : Except ParseError Expr := Expr.ofTokens (Token.scan text)

end BusinessRules
