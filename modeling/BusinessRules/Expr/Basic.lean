import BusinessRules.Expr.Symbol

/-!
# Rule expressions

Model of `Node` with `depth` and `operand_count`, and of `to_rule_string`.

* `Expr` — comparisons joined by connectives; a leaf keeps the text of its comparison;
* `Expr.height` — levels from the root to the deepest leaf, by recursion;
* `Expr.depth` — the same, counted over a list of pending expressions without recursion;
* `Expr.leafCount` — the number of comparisons;
* `Expr.render` — fully parenthesized rule text.

No part of the library that builds an expression lets it grow beyond `maxDepth` levels.
-/

namespace BusinessRules

/-- The number of levels an expression, a stored expression and a converted value may have
(`MAX_DEPTH`). -/
def maxDepth : Nat := 256

/-- A rule expression (`Node`). -/
inductive Expr where
  | leaf (condition : String)
  | join (op : Connective) (left right : Expr)
  deriving DecidableEq, Repr

namespace Expr

/-- Levels from the root to the deepest leaf; a leaf by itself has one. -/
def height : Expr → Nat
  | .leaf _ => 1
  | .join _ left right => max left.height right.height + 1

def leafCount : Expr → Nat
  | .leaf _ => 1
  | .join _ left right => left.leafCount + right.leafCount

def size : Expr → Nat
  | .leaf _ => 1
  | .join _ left right => left.size + right.size + 1

/-- The expressions directly inside an expression. -/
def children : Expr → List Expr
  | .leaf _ => []
  | .join _ left right => [left, right]

def pendingSize : List (Expr × Nat) → Nat
  | [] => 0
  | (e, _) :: rest => e.size + pendingSize rest

/-- The children of an expression have one node less than it does. -/
theorem pendingSize_children (e : Expr) (level : Nat) :
    pendingSize (e.children.map (·, level)) + 1 = e.size := by
  cases e with
  | leaf condition => rfl
  | join op left right => simp [pendingSize, children, size]

theorem pendingSize_append (xs ys : List (Expr × Nat)) :
    pendingSize (xs ++ ys) = pendingSize xs + pendingSize ys := by
  induction xs with
  | nil => simp [pendingSize]
  | cons x rest ih => simp [pendingSize, ih, Nat.add_assoc]

/-- The deepest level among pending expressions and what is below them, at least `deepest`. -/
def deepestNode (pending : List (Expr × Nat)) (deepest : Nat) : Nat :=
  match pending with
  | [] => deepest
  | (e, level) :: rest =>
    deepestNode (e.children.map (·, level + 1) ++ rest) (max deepest level)
termination_by pendingSize pending
decreasing_by
  rw [pendingSize_append]
  have h := pendingSize_children e (level + 1)
  rw [pendingSize]
  omega

/-- Levels from the root to the deepest leaf, counted over a list of pending expressions
(`Node.depth`). -/
def depth (e : Expr) : Nat := deepestNode [(e, 1)] 0

/-- Rule text with parentheses around every join (`to_rule_string`). Conditions stand as they are.
-/
def render : Expr → String
  | .leaf condition => condition
  | .join op left right =>
    "(" ++ left.render ++ " " ++ op.symbol ++ " " ++ right.render ++ ")"

end Expr

end BusinessRules
