import BusinessRules.Store.Node

/-!
# Depth and nesting

`Expr.depth` and `Json.nesting` run over a list of pending parts, each with the level it stands on.
Both are shown equal to their recursive meaning.

* `Expr.reach`, `Json.reach` — the deepest level that pending parts lead to.

Principal results: `Expr.depth_eq_height`, `Json.nesting_eq_levels`, and `Expr.levels_toJson` (an
expression and its stored form have equally many levels).
-/

namespace BusinessRules

namespace Expr

theorem height_pos (e : Expr) : 0 < e.height := by
  cases e <;> simp [height]

/-- The deepest level that pending expressions lead to. -/
def reach : List (Expr × Nat) → Nat
  | [] => 0
  | (e, level) :: rest => max (level + e.height - 1) (reach rest)

theorem reach_append (xs ys : List (Expr × Nat)) :
    reach (xs ++ ys) = max (reach xs) (reach ys) := by
  induction xs with
  | nil => simp [reach]
  | cons x rest ih => simp only [List.cons_append, reach, ih]; omega

theorem reach_children (e : Expr) (level : Nat) :
    max level (reach (e.children.map (·, level + 1))) = level + e.height - 1 := by
  cases e with
  | leaf condition => simp [children, reach, height]
  | join op left right =>
    have hl := height_pos left
    have hr := height_pos right
    simp only [children, List.map_cons, List.map_nil, reach, height]
    omega

theorem deepestNode_eq_reach (pending : List (Expr × Nat)) (deepest : Nat) :
    deepestNode pending deepest = max deepest (reach pending) := by
  fun_induction deepestNode pending deepest with
  | case1 deepest => simp [reach]
  | case2 deepest e level rest ih =>
    have h := reach_children e level
    rw [ih, reach_append, reach]
    omega

/-- **The counter over pending expressions computes the recursive height.** -/
theorem depth_eq_height (e : Expr) : e.depth = e.height := by
  have h := height_pos e
  rw [depth, deepestNode_eq_reach, reach, reach]
  omega

end Expr

namespace Json

/-- The deepest level that so many nested containers lead to, the outermost on the given one. -/
def reachFrom (level containers : Nat) : Nat :=
  if containers = 0 then 0 else level + containers - 1

theorem reachFrom_max (level m n : Nat) :
    reachFrom level (max m n) = max (reachFrom level m) (reachFrom level n) := by
  unfold reachFrom
  split <;> split <;> split <;> omega

theorem reachFrom_succ (level containers : Nat) :
    max level (reachFrom (level + 1) containers) = reachFrom level (containers + 1) := by
  unfold reachFrom
  split <;> split <;> omega

/-- The deepest level of a container that pending values lead to. -/
def reach : List (Json × Nat) → Nat
  | [] => 0
  | (value, level) :: rest => max (reachFrom level value.levels) (reach rest)

theorem reach_append (xs ys : List (Json × Nat)) :
    reach (xs ++ ys) = max (reach xs) (reach ys) := by
  induction xs with
  | nil => simp [reach]
  | cons x rest ih => simp only [List.cons_append, reach, ih]; omega

theorem reach_items (items : List Json) (level : Nat) :
    reach (items.map (·, level)) = reachFrom level (itemLevels items) := by
  induction items with
  | nil => rfl
  | cons item rest ih => simp only [List.map_cons, reach, itemLevels, ih, reachFrom_max]

theorem reach_members (members : List (String × Json)) (level : Nat) :
    reach ((members.map (·.2)).map (·, level)) = reachFrom level (memberLevels members) := by
  induction members with
  | nil => rfl
  | cons member rest ih => simp only [List.map_cons, reach, memberLevels, ih, reachFrom_max]

/-- A value stands on its own level, if it is a container, and its children one below. -/
theorem reach_children (value : Json) (level : Nat) :
    max (if value.isContainer then level else 0) (reach (value.children.map (·, level + 1))) =
      reachFrom level value.levels := by
  cases value with
  | array items =>
    rw [children, reach_items, levels, ← reachFrom_succ]
    rfl
  | object members =>
    rw [children, reach_members, levels, ← reachFrom_succ]
    rfl
  | _ => rfl

theorem deepestContainer_eq_reach (pending : List (Json × Nat)) (deepest : Nat) :
    deepestContainer pending deepest = max deepest (reach pending) := by
  fun_induction deepestContainer pending deepest with
  | case1 deepest => simp [reach]
  | case2 deepest value level rest ih =>
    simp only [dite_eq_ite] at ih
    rw [ih, reach_append, reach, ← reach_children]
    split <;> omega

/-- **The counter over pending values computes the recursive nesting.** -/
theorem nesting_eq_levels (value : Json) : value.nesting = value.levels := by
  rw [nesting, deepestContainer_eq_reach, reach, reach, reachFrom]
  split <;> omega

end Json

/-- An expression and its stored form have equally many levels. -/
theorem Expr.levels_toJson (e : Expr) : e.toJson.levels = e.height := by
  induction e with
  | leaf condition => simp [toJson, Json.levels, Json.memberLevels, height]
  | join op left right ihl ihr =>
    simp only [toJson, Json.levels, Json.memberLevels, height, ihl, ihr]
    omega

end BusinessRules
