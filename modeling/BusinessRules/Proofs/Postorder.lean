import BusinessRules.Proofs.Grammar

/-!
# The parser as a stack machine

The parser holds connectives back on a second stack. Carrying items out in reading order needs one
stack only, and the expression that comes of them is the one whose postorder they are.

* `build` — items carried out on a stack of finished expressions;
* `builtFrom` — the items that a stack of finished expressions came of;
* `Settled` — no connective waits above the innermost open parenthesis.

Principal results: `build_postorder` (the postorder of an expression builds it, up to `maxDepth`
levels) and `build_eq_ok` (what is built has the items as its postorder).
-/

namespace BusinessRules

open BusinessRules.Grammar BusinessRules.Parser

/-- An expression on the stack. -/
def Parser.Subtree.ofExpr (e : Expr) : Subtree := ⟨e, e.height⟩

namespace Grammar

/-! ## Items on a stack -/

/-- One item: a comparison is put on the stack, a connective joins the two topmost expressions. -/
def Item.apply : Item → List Subtree → Except ParseError (List Subtree)
  | .leaf condition, subtrees => .ok (⟨.leaf condition, 1⟩ :: subtrees)
  | .join op, subtrees => reduce op subtrees

/-- Items one after the other. -/
def build : List Item → List Subtree → Except ParseError (List Subtree)
  | [], subtrees => .ok subtrees
  | item :: rest, subtrees => item.apply subtrees >>= build rest

theorem build_append (xs ys : List Item) (subtrees : List Subtree) :
    build (xs ++ ys) subtrees = build xs subtrees >>= build ys := by
  induction xs generalizing subtrees with
  | nil => rfl
  | cons x rest ih =>
    simp only [List.cons_append, build]
    cases x.apply subtrees with
    | error e => rfl
    | ok applied => exact ih applied

theorem build_singleton (item : Item) (subtrees : List Subtree) :
    build [item] subtrees = item.apply subtrees := by
  rw [build]
  cases item.apply subtrees <;> rfl

theorem reduce_ofExpr (op : Connective) (x y : Expr) (subtrees : List Subtree) :
    reduce op (.ofExpr y :: .ofExpr x :: subtrees) =
      if maxDepth < (Expr.join op x y).height then .error .tooDeep
      else .ok (.ofExpr (.join op x y) :: subtrees) := rfl

/-- **The postorder of an expression builds it**, unless it has too many levels. -/
theorem build_postorder (e : Expr) (subtrees : List Subtree) :
    build e.postorder subtrees =
      if maxDepth < e.height then .error .tooDeep else .ok (.ofExpr e :: subtrees) := by
  induction e generalizing subtrees with
  | leaf condition => rfl
  | join op left right ihl ihr =>
    rw [Expr.postorder, build_append, build_append, ihl]
    have hheight : (Expr.join op left right).height = max left.height right.height + 1 := rfl
    by_cases hl : maxDepth < left.height
    · rw [if_pos hl, if_pos (by omega)]
      rfl
    · rw [if_neg hl]
      show build right.postorder (.ofExpr left :: subtrees) >>= build [.join op] = _
      rw [ihr]
      by_cases hr : maxDepth < right.height
      · rw [if_pos hr, if_pos (by omega)]
        rfl
      · rw [if_neg hr]
        show build [.join op] (.ofExpr right :: .ofExpr left :: subtrees) = _
        rw [build_singleton, Item.apply, reduce_ofExpr]

/-- The items that a stack was built from, the deepest expression first. -/
def builtFrom (subtrees : List Subtree) : List Item :=
  subtrees.reverse.flatMap (·.expr.postorder)

theorem builtFrom_cons (t : Subtree) (subtrees : List Subtree) :
    builtFrom (t :: subtrees) = builtFrom subtrees ++ t.expr.postorder := by
  simp [builtFrom]

theorem builtFrom_apply {item : Item} {subtrees applied : List Subtree}
    (h : item.apply subtrees = .ok applied) : builtFrom applied = builtFrom subtrees ++ [item] := by
  cases item with
  | leaf condition =>
    cases h
    rw [builtFrom_cons, Expr.postorder]
  | join op =>
    simp only [Item.apply, reduce] at h
    split at h
    · split at h
      · cases h
      · cases h
        simp only [builtFrom_cons, Expr.postorder, List.append_assoc]
    · cases h

/-- **What items build has them as its postorder.** -/
theorem build_eq_ok {items : List Item} {subtrees built : List Subtree}
    (h : build items subtrees = .ok built) : builtFrom built = builtFrom subtrees ++ items := by
  induction items generalizing subtrees with
  | nil =>
    cases h
    rw [List.append_nil]
  | cons item rest ih =>
    rw [build] at h
    cases happly : item.apply subtrees with
    | error e => rw [happly] at h; cases h
    | ok applied =>
      rw [happly] at h
      rw [ih h, builtFrom_apply happly, List.append_assoc, List.singleton_append]

/-! ## Both stacks -/

/-- The innermost open group has no connective pending. -/
def Settled (pending : List Pending) : Prop := ∀ op rest, pending ≠ .connective op :: rest

theorem settle_of_settled {pending : List Pending} (h : Settled pending) (subtrees : List Subtree) :
    settle pending subtrees = .ok ⟨subtrees, pending⟩ := by
  unfold settle
  split
  · exact absurd rfl (h _ _)
  · rfl

/-- Closing a parenthesis carries out what is pending inside it first. -/
theorem closeParen_eq (pending : List Pending) (subtrees : List Subtree) :
    closeParen pending subtrees =
      settle pending subtrees >>= fun s => closeParen s.pending s.subtrees := by
  fun_induction closeParen pending subtrees with
  | case1 subtrees => rfl
  | case2 subtrees pending => rfl
  | case3 subtrees op pending e he => simp only [settle, he, bind, Except.bind]
  | case4 subtrees op pending reduced hred ih => simp only [settle, hred, ih]

theorem finish_eq (pending : List Pending) (subtrees : List Subtree) :
    finish pending subtrees =
      settle pending subtrees >>= fun s => finish s.pending s.subtrees := by
  fun_induction finish pending subtrees with
  | case1 subtrees => rfl
  | case2 subtrees pending => rfl
  | case3 subtrees op pending e he => simp only [settle, he, bind, Except.bind]
  | case4 subtrees op pending reduced hred ih => simp only [settle, hred, ih]

end Grammar

end BusinessRules
