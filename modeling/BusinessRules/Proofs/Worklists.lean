import BusinessRules.Proofs.Depth

/-!
# Counting in rounds

A count without recursion keeps the parts that wait on a stack, each with the level it stands on.
A round takes the newest part off, counts its level if it is of the kind that counts, and puts its
children on, one level below; the count is over when nothing waits. Levels of expressions and the
nesting of values are both counted so, and both counts take as many rounds as there are parts.

* `Worklist`, `Worklist.round` — the state of a count, and one round;
* `Worklist.Ends` — a count that is over after so many rounds, with its result;
* `Worklist.Measured` — what one round takes off, and what it leaves as it is.

Principal results: `Worklist.Measured.round` and `Worklist.Measured.ends_iff` (one round, and all of
them), and `depth_and_nesting_counted`.
-/

namespace BusinessRules

/-- The state of a count: the parts that wait, the newest first, and the deepest level counted so
far. -/
structure Worklist (α : Type) where
  pending : List (α × Nat)
  deepest : Nat

namespace Worklist

variable {α : Type}

/-- The beginning of a count: the whole waits, on the first level. -/
def start (whole : α) : Worklist α := ⟨[(whole, 1)], 0⟩

/-- One round; `none` when nothing waits. The children are put on in their order, so that the last
of them is the next to be taken. -/
def round (children : α → List α) (counts : α → Bool) : Worklist α → Option (Worklist α)
  | ⟨[], _⟩ => none
  | ⟨(part, level) :: rest, deepest⟩ =>
    some ⟨((children part).map (·, level + 1)).reverse ++ rest,
      if counts part then max deepest level else deepest⟩

/-- After so many rounds nothing waits any more, and this is the deepest level counted. -/
inductive Ends (children : α → List α) (counts : α → Bool) : Nat → Worklist α → Nat → Prop where
  | done (deepest : Nat) : Ends children counts 0 ⟨[], deepest⟩ deepest
  | more {rounds result : Nat} {w next : Worklist α} (first : w.round children counts = some next)
      (others : Ends children counts rounds next result) :
      Ends children counts (rounds + 1) w result

/-- A weight of pending parts that every round makes one less, and a level that pending parts lead
to, which no round changes. -/
structure Measured (children : α → List α) (counts : α → Bool)
    (weight reach : List (α × Nat) → Nat) : Prop where
  weight_nil : weight [] = 0
  weight_append : ∀ xs ys, weight (xs ++ ys) = weight xs + weight ys
  weight_children : ∀ part level,
    weight ((children part).map (·, level + 1)) + 1 = weight [(part, level)]
  reach_nil : reach [] = 0
  reach_append : ∀ xs ys, reach (xs ++ ys) = max (reach xs) (reach ys)
  reach_children : ∀ part level,
    max (if counts part then level else 0) (reach ((children part).map (·, level + 1))) =
      reach [(part, level)]

namespace Measured

variable {children : α → List α} {counts : α → Bool} {weight reach : List (α × Nat) → Nat}

theorem weight_cons (h : Measured children counts weight reach) (x : α × Nat)
    (rest : List (α × Nat)) : weight (x :: rest) = weight [x] + weight rest :=
  h.weight_append [x] rest

theorem reach_cons (h : Measured children counts weight reach) (x : α × Nat)
    (rest : List (α × Nat)) : reach (x :: rest) = max (reach [x]) (reach rest) :=
  h.reach_append [x] rest

theorem weight_reverse (h : Measured children counts weight reach) (xs : List (α × Nat)) :
    weight xs.reverse = weight xs := by
  induction xs with
  | nil => rfl
  | cons x rest ih =>
    rw [List.reverse_cons, h.weight_append, ih, h.weight_cons x rest, Nat.add_comm]

theorem reach_reverse (h : Measured children counts weight reach) (xs : List (α × Nat)) :
    reach xs.reverse = reach xs := by
  induction xs with
  | nil => rfl
  | cons x rest ih =>
    rw [List.reverse_cons, h.reach_append, ih, h.reach_cons x rest, Nat.max_comm]

/-- **A round takes one off the weight and leaves the level that the count leads to.** -/
theorem round (h : Measured children counts weight reach) {w next : Worklist α}
    (hround : w.round children counts = some next) :
    weight w.pending = weight next.pending + 1 ∧
      max w.deepest (reach w.pending) = max next.deepest (reach next.pending) := by
  obtain ⟨pending, deepest⟩ := w
  cases pending with
  | nil => cases hround
  | cons waiting rest =>
    obtain ⟨part, level⟩ := waiting
    cases hround
    have hweight := h.weight_children part level
    have hreach := h.reach_children part level
    simp only [h.weight_cons (part, level) rest, h.reach_cons (part, level) rest,
      h.weight_append, h.reach_append, h.weight_reverse, h.reach_reverse, ← hweight, ← hreach]
    constructor
    · omega
    · split <;> omega

/-- **A count is over after as many rounds as the weight says**, neither sooner nor later, and its
result is the level that it led to from the beginning. -/
theorem ends_iff (h : Measured children counts weight reach) {w : Worklist α}
    {rounds result : Nat} :
    Ends children counts rounds w result ↔
      rounds = weight w.pending ∧ result = max w.deepest (reach w.pending) := by
  constructor
  · intro hends
    induction hends with
    | done deepest => simp [h.weight_nil, h.reach_nil]
    | more hfirst _ ih =>
      obtain ⟨hweight, hreach⟩ := h.round hfirst
      exact ⟨by rw [hweight, ih.1], by rw [hreach, ih.2]⟩
  · rintro ⟨rfl, rfl⟩
    -- the weight of what waits is also the number of rounds to come
    induction hweight : weight w.pending generalizing w with
    | zero =>
      obtain ⟨pending, deepest⟩ := w
      cases pending with
      | nil =>
        rw [h.reach_nil, Nat.max_zero]
        exact .done deepest
      | cons waiting rest =>
        obtain ⟨part, level⟩ := waiting
        have hone := h.weight_children part level
        have hcons := h.weight_cons (part, level) rest
        dsimp only at hweight
        omega
    | succ rounds ih =>
      cases hround : w.round children counts with
      | none =>
        obtain ⟨pending, deepest⟩ := w
        cases pending with
        | nil => rw [h.weight_nil] at hweight; cases hweight
        | cons waiting rest => cases hround
      | some next =>
        obtain ⟨htaken, hreach⟩ := h.round hround
        rw [hreach]
        exact .more hround (ih (by omega))

end Measured

end Worklist

/-! ## Expressions and values -/

/-- The count of levels goes by the number of nodes, and every node counts. -/
theorem Expr.measured :
    Worklist.Measured Expr.children (fun _ => true) Expr.pendingSize Expr.reach where
  weight_nil := rfl
  weight_append := Expr.pendingSize_append
  weight_children e level := Expr.pendingSize_children e (level + 1)
  reach_nil := rfl
  reach_append := Expr.reach_append
  reach_children e level := by
    rw [if_pos rfl, Expr.reach_children, Expr.reach, Expr.reach, Nat.max_zero]

/-- The count of nesting goes by the number of values, and only containers count. -/
theorem Json.measured :
    Worklist.Measured Json.children Json.isContainer Json.pendingSize Json.reach where
  weight_nil := rfl
  weight_append := Json.pendingSize_append
  weight_children v level := Json.pendingSize_children v (level + 1)
  reach_nil := rfl
  reach_append := Json.reach_append
  reach_children v level := by rw [Json.reach_children, Json.reach, Json.reach, Nat.max_zero]

/-- **Both counts compute what their definitions say.** The levels of an expression and the nesting
of a value, each counted in rounds over the parts that wait, end after one round for every node and
every value, with the recursive height and the recursive nesting; and a stored expression nests
exactly as deep as its expression has levels. -/
theorem depth_and_nesting_counted :
    (∀ e : Expr, e.depth = e.height ∧ ∀ rounds result,
      Worklist.Ends Expr.children (fun _ => true) rounds (.start e) result ↔
        rounds = e.size ∧ result = e.depth) ∧
    (∀ v : Json, v.nesting = v.levels ∧ ∀ rounds result,
      Worklist.Ends Json.children Json.isContainer rounds (.start v) result ↔
        rounds = v.size ∧ result = v.nesting) ∧
    ∀ e : Expr, e.toJson.nesting = e.depth := by
  refine ⟨fun e => ⟨e.depth_eq_height, fun rounds result => ?_⟩,
    fun v => ⟨v.nesting_eq_levels, fun rounds result => ?_⟩, fun e => ?_⟩
  · rw [Expr.measured.ends_iff, Expr.depth, Expr.deepestNode_eq_reach]
    rfl
  · rw [Json.measured.ends_iff, Json.nesting, Json.deepestContainer_eq_reach]
    rfl
  · rw [Json.nesting_eq_levels, Expr.levels_toJson, e.depth_eq_height]

end BusinessRules
