import BusinessRules.Proofs.Decoding
import BusinessRules.Proofs.StoredRules

/-!
# The limit on levels

Levels are counted in three ways: parsing keeps the depth of every subtree beside it, combining adds
them up along the fold, and decoding looks at the nesting of a value before it reads it. All three
keep the limit, so what is stored can always be read back.

* `StoredRule.Shallow` — a rule that stores an expression within the limit;
* `Command.KeepsDepth` — an operation that brings no expression beyond the limit with it.

Principal results: `Ledger.shallow_run` (stored rules keep the limit) and
`Engine.run_keeps_maxDepth`.
-/

namespace BusinessRules

/-! ## Stored rules -/

/-- A rule that stores an expression within the limit on levels. -/
def StoredRule.Shallow (r : StoredRule) : Prop := ∃ e : Expr, r.ast = e.toJson ∧ e.depth ≤ maxDepth

/-- What is stored within the limit is read back as what was stored. -/
theorem StoredRule.Shallow.exists_expr {r : StoredRule} (h : r.Shallow) :
    ∃ e : Expr, r.ast = e.toJson ∧ r.expr = .ok e ∧ e.depth ≤ maxDepth := by
  obtain ⟨e, hast, hdepth⟩ := h
  refine ⟨e, hast, ?_, hdepth⟩
  rw [StoredRule.expr, hast, Expr.ofJson_toJson, if_pos hdepth]

/-- An operation that brings no expression beyond the limit on levels with it. -/
def Command.KeepsDepth : Command → Prop
  | .insert _ _ e => e.depth ≤ maxDepth
  | _ => True

namespace Ledger

/-- Whatever an operation stores keeps the limit, unless it came from outside. -/
theorem Stores.depth_le {ledger : Ledger} {command : Command} {name text : String} {e : Expr}
    (h : ledger.Stores command name text e) (hdepth : command.KeepsDepth) :
    e.depth ≤ maxDepth := by
  cases h with
  | created parsed => exact Expr.depth_le_of_parse (parse_eq_ok_iff.1 parsed).2
  | combined joined fits => exact (legal_of_combineStored joined).depth_le
  | inserted => exact hdepth

/-- **Every run keeps the limit on levels in all stored rules.** -/
theorem shallow_run {ledger : Ledger} (h : ∀ r ∈ ledger.catalogue.rules, r.Shallow)
    {commands : List Command} (hdepth : ∀ command ∈ commands, command.KeepsDepth) :
    ∀ r ∈ (ledger.run commands).2.catalogue.rules, r.Shallow := by
  induction commands generalizing ledger with
  | nil => exact h
  | cons command rest ih =>
    obtain ⟨hcommand, hrest⟩ := List.forall_mem_cons.1 hdepth
    have hnext : ∀ r ∈ (ledger.perform command).2.catalogue.rules, r.Shallow :=
      forall_rules_perform h fun name text e hstores => ⟨e, rfl, hstores.depth_le hcommand⟩
    exact ih hnext hrest

end Ledger

/-! ## Engines -/

/-- **Nothing has more levels than the limit.** Every expression that is parsed, combined from texts
or from expressions within the limit, or read from a value keeps the limit, and the last has no more
levels than its value nests. So does every expression that an engine parses or combines after any
run, and if the run stored no deeper expression from outside, every stored rule is read back as the
expression that was stored. -/
theorem Engine.run_keeps_maxDepth (settings : Settings) (commands : List Command) :
    let engine := ((Engine.new settings).run commands).2
    (∀ text e, Expr.parse text = .ok e → e.depth ≤ maxDepth) ∧
      (∀ texts e, Expr.combineTexts texts = .ok e → e.depth ≤ maxDepth) ∧
      (∀ es e, (∀ d ∈ es, d.depth ≤ maxDepth) → Expr.combine es = .ok e → e.depth ≤ maxDepth) ∧
      (∀ v e, Expr.ofJson v = .ok e → e.depth ≤ v.nesting ∧ e.depth ≤ maxDepth) ∧
      (∀ text e, (engine.parse text).1 = .ok e → e.depth ≤ maxDepth) ∧
      (∀ texts e, (engine.combine texts).1 = .ok e → e.depth ≤ maxDepth) ∧
      ((∀ command ∈ commands, command.KeepsDepth) →
        ∀ r ∈ engine.listRules, ∃ e : Expr,
          r.ast = e.toJson ∧ r.expr = .ok e ∧ e.depth ≤ maxDepth) := by
  intro engine
  have hrun : Agrees ((Engine.new settings).run commands) _ := agrees_run_new settings commands
  have hempty : ∀ r ∈ Catalogue.empty.rules, r.Shallow := fun _ hr => nomatch hr
  refine ⟨fun text e => Expr.depth_le_of_parse,
    fun texts e h => (Expr.Legal.of_combineTexts h).depth_le, fun es e hes h => ?_,
    fun v e => Expr.depth_le_of_ofJson, fun text e h => ?_, fun texts e h => ?_,
    fun hdepth r hr => ?_⟩
  · obtain ⟨first, rest, -, -, hdepth⟩ := (Expr.combine_eq_ok hes).1 h
    exact hdepth
  · rw [(agrees_parse hrun.faithful text).answer] at h
    exact Expr.depth_le_of_parse (Ledger.parse_eq_ok_iff.1 h).2
  · rw [(agrees_combine hrun.faithful texts).answer] at h
    exact (Expr.Legal.of_combineTexts (Ledger.combine_eq_ok_iff.1 h).2).depth_le
  · have hstored : r ∈ engine.ledger.catalogue.rules := hr
    rw [hrun.ledger] at hstored
    exact (Ledger.shallow_run hempty hdepth r hstored).exists_expr

end BusinessRules
