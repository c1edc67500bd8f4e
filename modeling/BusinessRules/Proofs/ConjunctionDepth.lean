import BusinessRules.Proofs.Combination

/-!
# The levels of a conjunction

A conjunction puts one join above each of its parts for every part that stands behind it, and one
more above every part but the first, which starts the fold. So the limit on levels can be told from
the depths of the parts, though joining counts them one after the other and stops early.

* `Expr.levelsWithin` — how deep each part of a conjunction ends.

Principal results: `Expr.depth_conjunction` (the depth of a conjunction in closed form),
`Expr.conjoin_append` (joining can be interrupted and resumed) and
`Expr.combine_eq_of_levelsWithin_and_append`.
-/

namespace BusinessRules

namespace Expr

/-- How deep each part of a conjunction ends: its own levels and the joins above it. -/
def levelsWithin (first : Expr) (rest : List Expr) : List Nat :=
  (first.depth + rest.length) :: rest.mapIdx fun i e => e.depth + (rest.length - i)

theorem depth_join (op : Connective) (left right : Expr) :
    (Expr.join op left right).depth = max left.depth right.depth + 1 := by
  simp only [depth_eq_height, height]

/-- The parts behind the second end as deep as without the first one. -/
theorem levelsWithin_cons (first next : Expr) (rest : List Expr) :
    levelsWithin first (next :: rest) =
      (first.depth + (rest.length + 1)) :: (next.depth + (rest.length + 1)) ::
        rest.mapIdx fun i e => e.depth + (rest.length - i) := by
  simp only [levelsWithin, List.mapIdx_cons, List.length_cons, Nat.sub_zero, Nat.add_sub_add_right]

/-- **A conjunction is as deep as the deepest of its parts ends.** -/
theorem depth_conjunction (first : Expr) (rest : List Expr) :
    (conjunction first rest).depth = (levelsWithin first rest).foldr max 0 := by
  induction rest generalizing first with
  | nil => simp [levelsWithin]
  | cons next rest ih =>
    -- the first two parts are the first part of the shorter conjunction, one join above both
    rw [conjunction_cons, ih, levelsWithin_cons, levelsWithin, depth_join]
    simp only [List.foldr_cons]
    omega

/-! ## Combining in stages -/

/-- Joining goes on from what has been joined so far as it would have without the interruption. -/
theorem conjoin_append (first : Expr) (rest more : List Expr) :
    conjoin first first.depth (rest ++ more) =
      match conjoin first first.depth rest with
      | .error e => .error e
      | .ok joined => conjoin joined joined.depth more := by
  induction rest generalizing first with
  | nil => rfl
  | cons next rest ih =>
    rw [List.cons_append, conjoin, conjoin, ← depth_join .and]
    by_cases hdeep : maxDepth < (Expr.join .and first next).depth
    · simp only [if_pos hdeep]
    · simp only [if_neg hdeep]
      exact ih (.join .and first next)

theorem combine_append {front : List Expr} (hne : front ≠ []) (back : List Expr) :
    combine (front ++ back) =
      match combine front with
      | .error e => .error e
      | .ok joined => combine (joined :: back) := by
  cases front with
  | nil => exact absurd rfl hne
  | cons first rest => exact conjoin_append first rest back

/-- **Combining has an exact limit and can be resumed.** Expressions within the limit on levels
combine to their conjunction, which is as deep as the deepest of them ends in it, if that is within
the limit as well; otherwise they have too many levels. And a list of expressions, whatever their
depths, combines as the combination of a front part followed by the rest does; an error of the front
part is the error of the whole. -/
theorem combine_eq_of_levelsWithin_and_append :
    (∀ (first : Expr) (rest : List Expr), (∀ e ∈ first :: rest, e.depth ≤ maxDepth) →
      let deepest := (levelsWithin first rest).foldr max 0
      (conjunction first rest).depth = deepest ∧
        combine (first :: rest) =
          if deepest ≤ maxDepth then .ok (conjunction first rest) else .error (.parse .tooDeep)) ∧
      ∀ front back : List Expr, front ≠ [] →
        combine (front ++ back) =
          match combine front with
          | .error e => .error e
          | .ok joined => combine (joined :: back) := by
  refine ⟨fun first rest hall => ⟨depth_conjunction first rest, ?_⟩, fun front back hne =>
    combine_append hne back⟩
  rw [← depth_conjunction]
  exact combine_cons (hall first (List.mem_cons_self ..)) rest

theorem combine_eq_of_levelsWithin_and_append_order :
    let small := Expr.leaf "a > 1"
    let tall := conjunction small (List.replicate 254 small)
    combine [small, small, tall] = .ok (.join .and (.join .and small small) tall) ∧
      (Expr.join .and (.join .and small small) tall).depth = maxDepth ∧
      combine [tall, small, small] = .error (.parse .tooDeep) ∧
      combine [.join .and tall small, small] = .error (.parse .tooDeep) := by
  intro small tall
  have hsmall : small.depth = 1 := by rw [depth_eq_height]; rfl
  have htall : tall.depth = 255 := by rw [depth_eq_height, height_conjunction_replicate]; rfl
  -- the tall one is fine at the end, where one join is above it, and not in front of two
  have hlast : (levelsWithin small [small, tall]).foldr max 0 = maxDepth := by
    simp [levelsWithin, hsmall, htall, maxDepth]
  have hfirst : (levelsWithin tall [small, small]).foldr max 0 = maxDepth + 1 := by
    simp [levelsWithin, hsmall, htall, maxDepth]
  have hpair : (levelsWithin tall [small]).foldr max 0 = maxDepth := by
    simp [levelsWithin, hsmall, htall, maxDepth]
  obtain ⟨hlimit, hresumed⟩ := combine_eq_of_levelsWithin_and_append
  obtain ⟨hdepth, hok⟩ := hlimit small [small, tall] (by simp [hsmall, htall, maxDepth])
  obtain ⟨-, hdeep⟩ := hlimit tall [small, small] (by simp [hsmall, htall, maxDepth])
  obtain ⟨-, hstage⟩ := hlimit tall [small] (by simp [hsmall, htall, maxDepth])
  have hwhole := hresumed [tall, small] [small] (by simp)
  rw [hlast, if_pos (Nat.le_refl _)] at hok
  rw [hfirst, if_neg (Nat.not_succ_le_self _)] at hdeep
  rw [hpair, if_pos (Nat.le_refl _)] at hstage
  rw [hstage, List.cons_append, List.cons_append, List.nil_append, hdeep] at hwhole
  exact ⟨hok, hdepth.trans hlast, hdeep, hwhole.symm⟩

end Expr

end BusinessRules
