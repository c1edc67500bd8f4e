import BusinessRules.Decimal.Digits
import BusinessRules.Evaluation.Literal
import BusinessRules.Expr.Basic
import BusinessRules.Json.Basic

/-!
# Errors of evaluation

Model of `EvaluationError`, constructor by constructor.

* `NodeKind`, `NodePart` — the kinds of stored nodes and the parts they need;
* `EvaluationError` — why a condition has no truth value, or a stored node no meaning;
* `EvaluationError.message` — its wording.
-/

namespace BusinessRules

/-- The two kinds of nodes of a stored expression. -/
inductive NodeKind where
  | operator
  | operand
  deriving DecidableEq, Repr

/-- The parts of a stored node, its kind apart. -/
inductive NodePart where
  | value
  | left
  | right
  deriving DecidableEq, Repr

def NodeKind.name : NodeKind → String
  | .operator => "operator"
  | .operand => "operand"

def NodePart.name : NodePart → String
  | .value => "value"
  | .left => "left"
  | .right => "right"

/-- Why a condition has no truth value, or a stored node no meaning. -/
inductive EvaluationError where
  /-- the record lacks the field -/
  | fieldNotFound (field : String)
  /-- the second word of a condition is no comparator -/
  | unsupportedComparator (symbol : String)
  /-- a node of unknown kind -/
  | unsupportedNodeType (kind : String)
  /-- an operator node whose symbol is no connective -/
  | unsupportedOperator (symbol : String)
  /-- a condition of fewer than three words -/
  | malformedCondition (condition : String)
  /-- a node without a part that its kind needs -/
  | malformedNode (kind : NodeKind) (part : NodePart)
  /-- a stored expression with more levels than `maxDepth` -/
  | tooDeep
  /-- an order asked for between values that have none -/
  | incompatibleTypes (field : String) (comparator : Comparator) (actual : Json.Kind)
      (expected : Literal.Kind)
  deriving DecidableEq, Repr

def EvaluationError.message : EvaluationError → String
  | .fieldNotFound field => "Field " ++ field ++ " not found in data"
  | .unsupportedComparator symbol => "Unsupported comparator: " ++ symbol
  | .unsupportedNodeType kind => "Unsupported node type: " ++ kind
  | .unsupportedOperator symbol => "Unsupported operator: " ++ symbol
  | .malformedCondition condition => "Malformed condition: '" ++ condition ++ "'"
  | .malformedNode kind part => "Malformed " ++ kind.name ++ " node: missing " ++ part.name
  | .tooDeep => "Stored AST nests deeper than " ++ Decimal.ofNat maxDepth ++ " levels"
  | .incompatibleTypes field comparator actual expected =>
    "Cannot compare " ++ actual.name ++ " with " ++ expected.name ++ " using '" ++
      comparator.symbol ++ "' on field " ++ field

end BusinessRules
