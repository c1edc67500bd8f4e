import BusinessRules.Expr.Parser

/-!
# Combining rules

Model of `combine` and `combine_nodes`. Several rules become one that holds when all of them hold: a
left fold under `AND`, the first rule leftmost. Each further rule adds a level.

* `CombineError` — why a list of rules has no combination;
* `Expr.combine` — the fold of expressions;
* `Expr.combineTexts` — the fold of parsed texts; the first text that does not parse decides.
-/

namespace BusinessRules

/-- Why a list of rules has no combination. -/
inductive CombineError where
  /-- there are no rules -/
  | noRules
  /-- a text does not parse, or the combination has too many levels -/
  | parse (e : ParseError)
  deriving DecidableEq, Repr

namespace Expr

/-- Joins further expressions to the right of one whose depth is given. -/
def conjoin : Expr → Nat → List Expr → Except CombineError Expr
  | e, _, [] => .ok e
  | e, depth, next :: rest =>
    let deeper := max depth next.depth + 1
    if maxDepth < deeper then .error (.parse .tooDeep)
    else conjoin (.join .and e next) deeper rest

/-- The left fold of expressions under `AND` (`combine_nodes`); a single one stays as it is. -/
def combine : List Expr → Except CombineError Expr
  | [] => .error .noRules
  | first :: rest => conjoin first first.depth rest

/-- The expressions of texts, or the error of the first text that has none. -/
def parseAll : List String → Except ParseError (List Expr)
  | [] => .ok []
  | text :: rest =>
    match parse text with
    | .error e => .error e
    | .ok e =>
      match parseAll rest with
      | .error e => .error e
      | .ok es => .ok (e :: es)

/-- The combination of rule texts (`combine`). -/
def combineTexts (texts : List String) : Except CombineError Expr :=
  match parseAll texts with
  | .error e => .error (.parse e)
  | .ok es => combine es

end Expr

end BusinessRules
