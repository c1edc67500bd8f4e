import BusinessRules.Evaluation.Condition

/-!
# Evaluation of expressions

Model of `evaluate`.

* `Expr.evaluate` — the truth value of an expression on a record. Both sides of a connective are
  evaluated, so an error on the right is reported even where the left side already decides.
-/

namespace BusinessRules

/-- The truth value of an expression on a record, or the error of its leftmost condition that has
none (`evaluate`). -/
def Expr.evaluate (record : Record) : Expr → Except EvaluationError Bool
  | .leaf condition => evaluateCondition record condition
  | .join op left right =>
    match left.evaluate record with
    | .error e => .error e
    | .ok x =>
      match right.evaluate record with
      | .error e => .error e
      | .ok y => .ok (op.apply x y)

end BusinessRules
