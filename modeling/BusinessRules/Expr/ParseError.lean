import BusinessRules.Decimal.Digits
import BusinessRules.Expr.Basic

/-!
# Errors of rule text

Model of `ParseError`, constructor by constructor.

* `ParseError` — why a rule text has no expression;
* `ParseError.message` — its wording.
-/

namespace BusinessRules

open Decimal (ofNat)

/-- Why a rule text is refused. -/
inductive ParseError where
  /-- no tokens at all -/
  | empty
  /-- more characters than the settings allow -/
  | tooLong (max actual : Nat)
  /-- a parenthesis without its partner -/
  | unbalancedParentheses
  /-- a field at the end of the text -/
  | incompleteComparison (field : String)
  /-- a field that no comparator follows -/
  | unknownComparator (field comparator : String)
  /-- a field and comparator that no word follows -/
  | missingValue (field : String) (comparator : Comparator)
  /-- a connective with fewer than two expressions to join -/
  | missingOperand (op : Connective)
  /-- not exactly one expression at the end -/
  | malformed (subtrees : Nat)
  /-- more levels than `maxDepth` -/
  | tooDeep
  deriving DecidableEq, Repr

def ParseError.message : ParseError → String
  | .empty => "Empty expression"
  | .tooLong max actual =>
    "Rule text exceeds maximum length of " ++ ofNat max ++ " characters (" ++ ofNat actual ++ ")"
  | .unbalancedParentheses => "Unbalanced parentheses"
  | .incompleteComparison field => "Incomplete comparison starting at '" ++ field ++ "'"
  | .unknownComparator field comparator =>
    "Unknown comparator '" ++ comparator ++ "' after field '" ++ field ++ "'"
  | .missingValue field comparator =>
    "Missing value after '" ++ field ++ " " ++ comparator.symbol ++ "'"
  | .missingOperand op => "Operator " ++ op.symbol ++ " is missing an operand"
  | .malformed subtrees =>
    "Malformed expression: " ++ ofNat subtrees ++ " subtrees left after parsing"
  | .tooDeep => "Expression nests deeper than " ++ ofNat maxDepth ++ " levels"

end BusinessRules
