import BusinessRules.Proofs.StoredRules
import Mathlib.Tactic.Common

/-!
# Combined rules keep their meaning

A combined rule is evaluated by an expression that was joined from the texts of other rules when it
was stored. It means what those rules meant at that time, whatever happens to them later.

* `allTrue` — the verdict on several things that each have one.

Principal results: `Expr.evaluate_conjunction` (a conjunction asks all its parts),
`Ledger.Sound.allTrue_evaluateRule` (a combination asks all its rules), `Ledger.get_run` (an id
keeps its rule until it is deleted) and `Engine.combineRules_keeps_meaning`.
-/

namespace BusinessRules

/-! ## Several verdicts -/

section Verdicts

variable {α ε : Type} {verdict : α → Except ε Bool} {xs : List α}

/-- Whether the verdicts on all members of a list are true. Every member is asked, in the order of
the list, until one has an error instead of a verdict. -/
def allTrue (verdict : α → Except ε Bool) : List α → Except ε Bool
  | [] => .ok true
  | x :: rest =>
    match verdict x with
    | .error e => .error e
    | .ok b => (allTrue verdict rest).map (b && ·)

theorem allTrue_eq_ok_true : allTrue verdict xs = .ok true ↔ ∀ x ∈ xs, verdict x = .ok true := by
  induction xs with
  | nil => simp [allTrue]
  | cons x rest ih =>
    rw [List.forall_mem_cons, ← ih, allTrue]
    cases verdict x with
    | error e => simp
    | ok b => cases allTrue verdict rest <;> simp [Except.map]

theorem exists_allTrue_eq_ok :
    (∃ b, allTrue verdict xs = .ok b) ↔ ∀ x ∈ xs, ∃ b, verdict x = .ok b := by
  induction xs with
  | nil => simp [allTrue]
  | cons x rest ih =>
    rw [List.forall_mem_cons, ← ih, allTrue]
    cases verdict x with
    | error e => simp
    | ok b => cases allTrue verdict rest <;> simp [Except.map]

theorem allTrue_eq_ok_false :
    allTrue verdict xs = .ok false ↔
      (∀ x ∈ xs, ∃ b, verdict x = .ok b) ∧ ∃ x ∈ xs, verdict x = .ok false := by
  constructor
  · intro h
    have hall := exists_allTrue_eq_ok.1 ⟨false, h⟩
    refine ⟨hall, Classical.byContradiction fun hnone => ?_⟩
    have htrue : allTrue verdict xs = .ok true := by
      refine allTrue_eq_ok_true.2 fun x hx => ?_
      obtain ⟨b, hb⟩ := hall x hx
      cases b with
      | false => exact absurd ⟨x, hx, hb⟩ hnone
      | true => exact hb
    rw [h] at htrue
    cases htrue
  · rintro ⟨hall, x, hx, hfalse⟩
    obtain ⟨b, hb⟩ := exists_allTrue_eq_ok.2 hall
    cases b with
    | false => exact hb
    | true =>
      rw [allTrue_eq_ok_true.1 hb x hx] at hfalse
      cases hfalse

/-- The error is that of the first member that has one. -/
theorem allTrue_eq_error {e : ε} : allTrue verdict xs = .error e ↔ FirstError verdict xs e := by
  induction xs with
  | nil => simp [allTrue]
  | cons x rest ih =>
    rw [firstError_cons, ← ih, allTrue]
    cases verdict x with
    | error found => simp
    | ok b => cases allTrue verdict rest <;> simp [Except.map]

end Verdicts

/-- **A conjunction asks all its parts**, from left to right. -/
theorem Expr.evaluate_conjunction (first : Expr) (rest : List Expr) (record : Record) :
    (conjunction first rest).evaluate record = allTrue (·.evaluate record) (first :: rest) := by
  -- the fold joins the next part to all before it, so the first two verdicts become one
  induction rest generalizing first with
  | nil =>
    rw [conjunction_nil, allTrue]
    cases first.evaluate record with
    | error e => rfl
    | ok b => simp [allTrue, Except.map]
  | cons next rest ih =>
    rw [conjunction_cons, ih]
    simp only [allTrue, evaluate]
    cases first.evaluate record with
    | error e => rfl
    | ok x =>
      cases next.evaluate record with
      | error e => rfl
      | ok y =>
        cases allTrue (·.evaluate record) rest with
        | error e => rfl
        | ok z => simp [Except.map, Connective.apply, Bool.and_assoc]

/-! ## How long a rule stays -/

namespace Catalogue

theorem get_insert {c : Catalogue} {id : Nat} {r : StoredRule} (h : c.get id = .ok r)
    (name text : String) (e : Expr) : (c.insert name text e).2.get id = .ok r := by
  rw [get_eq_ok_iff_get?, get?] at h ⊢
  simp [insert, h]

theorem get_erase {c : Catalogue} {id : Nat} {r : StoredRule} (h : c.get id = .ok r) {other : Nat}
    (hne : other ≠ id) : (c.erase other).2.get id = .ok r := by
  unfold erase
  cases c.get other with
  | error e => exact h
  | ok s =>
    rw [get_eq_ok_iff_get?, get?] at h ⊢
    have hsame : (fun a : StoredRule => decide (decide (a.id ≠ other) = true ∧
        decide (a.id = id) = true)) = fun a => decide (a.id = id) := by
      funext a
      by_cases ha : a.id = id
      · simp [ha, hne.symm]
      · simp [ha]
    rw [List.find?_filter, hsame, h]

end Catalogue

namespace Ledger

/-- An id keeps its rule in every operation but its own deletion. -/
theorem get_perform {ledger : Ledger} {id : Nat} {r : StoredRule}
    (h : ledger.catalogue.get id = .ok r) {command : Command} (hkept : command ≠ .delete id) :
    (ledger.perform command).2.catalogue.get id = .ok r := by
  obtain hsame | ⟨name, text, e, -, hinsert⟩ | ⟨other, s, rfl, -, herase⟩ :=
    ledger.perform_cases command
  · rw [hsame]
    exact h
  · rw [hinsert]
    exact Catalogue.get_insert h name text e
  · rw [herase]
    exact Catalogue.get_erase h fun heq => hkept (congrArg Command.delete heq)

/-- **An id keeps its rule until it is deleted.** -/
theorem get_run {ledger : Ledger} {id : Nat} {r : StoredRule}
    (h : ledger.catalogue.get id = .ok r) {commands : List Command}
    (hkept : ∀ command ∈ commands, command ≠ .delete id) :
    (ledger.run commands).2.catalogue.get id = .ok r := by
  induction commands generalizing ledger with
  | nil => exact h
  | cons command rest ih =>
    obtain ⟨hcommand, hrest⟩ := List.forall_mem_cons.1 hkept
    exact ih (get_perform h hcommand) hrest

/-! ## What is combined -/

/-- The expressions of the texts of stored rules give the verdicts of the rules. -/
theorem Sound.allTrue_of_parseAll {ledger : Ledger} (h : ledger.Sound) {ids : List Nat}
    {rules : List StoredRule} (hrules : ledger.catalogue.getMany ids = .ok rules) {es : List Expr}
    (hes : ledger.parseAll (rules.map (·.text)) = .ok es) (record : Record) :
    allTrue (ledger.evaluateRule · record) ids =
      (allTrue (·.evaluate record) es).mapError .evaluation := by
  induction ids generalizing rules es with
  | nil =>
    cases hrules
    cases hes
    rfl
  | cons id rest ih =>
    obtain ⟨r, others, hget, hmany, rfl⟩ := Catalogue.getMany_cons_eq_ok.1 hrules
    obtain ⟨e, es, htext, hrest, rfl⟩ := parseAll_cons_eq_ok.1 hes
    obtain ⟨hr, rfl⟩ := Catalogue.get_eq_ok hget
    have hfirst : ledger.evaluateRule r.id record = (e.evaluate record).mapError .evaluation := by
      rw [h.evaluateRule_eq hr, evaluateText, htext]
    simp only [allTrue, hfirst, ih hmany hrest]
    cases e.evaluate record with
    | error err => rfl
    | ok b => cases allTrue (·.evaluate record) es <;> rfl

/-- **A combination asks all its rules**, in the order of the ids. -/
theorem Sound.allTrue_evaluateRule {ledger : Ledger} (h : ledger.Sound) {ids : List Nat} {e : Expr}
    (hcombine : ledger.combineStored ids = .ok e) (record : Record) :
    allTrue (ledger.evaluateRule · record) ids = (e.evaluate record).mapError .evaluation := by
  obtain ⟨rules, es, hrules, hes, hjoined⟩ := combineStored_eq_ok.1 hcombine
  have hdepth : ∀ e ∈ es, e.depth ≤ maxDepth := fun e he => (legal_of_parseAll hes e he).depth_le
  obtain ⟨first, rest, rfl, rfl, -⟩ := (Expr.combine_eq_ok hdepth).1 hjoined
  rw [h.allTrue_of_parseAll hrules hes, Expr.evaluate_conjunction]

/-- A combination stores the joined expression, and its rendered text. -/
theorem Sound.get_combineRules {ledger : Ledger} (h : ledger.Sound) {ids : List Nat} {name : String}
    {k : Nat} (hk : (ledger.combineRules ids name).1 = .ok k) :
    ∃ e, ledger.combineStored ids = .ok e ∧
      (ledger.combineRules ids name).2.catalogue.get k = .ok ⟨k, name, e.render, e.toJson⟩ := by
  have hown : (Command.combineRules ids name).IsOwn := trivial
  have hordered : (ledger.combineRules ids name).2.catalogue.Ordered := (h.perform hown).ordered
  unfold Ledger.combineRules at hk hordered ⊢
  cases hcombine : ledger.combineStored ids with
  | error e =>
    rw [hcombine] at hk
    cases hk
  | ok e =>
    refine ⟨e, rfl, ?_⟩
    cases hcheck : ledger.checkLength e.render with
    | error err =>
      simp only [hcombine, hcheck] at hk
      cases hk
    | ok _ =>
      simp only [hcombine, hcheck] at hk hordered ⊢
      cases hk
      exact hordered.get_eq_ok_iff.2 ⟨Catalogue.mem_rules_insert.2 (.inr rfl), rfl⟩

end Ledger

/-! ## Engines -/

/-- **A combined rule keeps its meaning.** After any run of own operations, let ids be combined
under the id `k`. As long as `k` is not deleted, its text is the preview of the combination, and on
every record it is true if all the combined rules were true when they were combined, false if all
had a truth value and one was false, and fails with the first error among them in the order of the
ids otherwise. -/
theorem Engine.combineRules_keeps_meaning (settings : Settings) {commands later : List Command}
    {ids : List Nat} {name : String} {k : Nat} (hown : ∀ command ∈ commands, command.IsOwn)
    (hcombine : (((Engine.new settings).run commands).2.combineRules ids name).1 = .ok k)
    (hkept : ∀ command ∈ later, command ≠ .delete k) :
    let before := ((Engine.new settings).run commands).2
    let after := ((before.combineRules ids name).2.run later).2
    (∃ r, after.getRule k = .ok r ∧ (before.previewCombined ids).1 = .ok r.text) ∧
      ∀ record,
        (after.evaluateRule k record = .ok true ↔
          ∀ id ∈ ids, before.evaluateRule id record = .ok true) ∧
        (after.evaluateRule k record = .ok false ↔
          (∀ id ∈ ids, ∃ b, before.evaluateRule id record = .ok b) ∧
            ∃ id ∈ ids, before.evaluateRule id record = .ok false) ∧
        ∀ e, after.evaluateRule k record = .error e ↔
          ∃ front id back, ids = front ++ id :: back ∧
            (∀ other ∈ front, ∃ b, before.evaluateRule other record = .ok b) ∧
            before.evaluateRule id record = .error e := by
  intro before after
  have hbefore : Agrees ((Engine.new settings).run commands) _ := agrees_run_new settings commands
  have hsound : before.ledger.Sound :=
    hbefore.ledger ▸ ((Ledger.sound_empty settings.maxRuleLength.toNat).run hown).1
  have hcombined := agrees_combineRules hbefore.faithful ids name
  obtain ⟨e, hjoined, hget⟩ := hsound.get_combineRules (hcombined.answer.symm.trans hcombine)
  have hafter := agrees_run hcombined.faithful later
  rw [hcombined.ledger] at hafter
  have hstored : after.ledger.catalogue.get k = .ok ⟨k, name, e.render, e.toJson⟩ := by
    rw [hafter.ledger]
    exact Ledger.get_run hget hkept
  have hverdict : ∀ record, after.evaluateRule k record =
      allTrue (before.evaluateRule · record) ids := by
    intro record
    calc after.evaluateRule k record = after.ledger.evaluateRule k record := rfl
      _ = evaluateStored e.toJson record := by rw [Ledger.evaluateRule, hstored]
      _ = (e.evaluate record).mapError .evaluation :=
        evaluateStored_toJson (Ledger.legal_of_combineStored hjoined).depth_le record
      _ = allTrue (before.ledger.evaluateRule · record) ids :=
        (hsound.allTrue_evaluateRule hjoined record).symm
  refine ⟨⟨_, hstored, ?_⟩, fun record => ?_⟩
  · have hpreview := (agrees_previewCombined hbefore.faithful ids).answer
    rw [hpreview]
    show before.ledger.previewCombined ids = .ok e.render
    rw [Ledger.previewCombined, hjoined]
    rfl
  · rw [hverdict record]
    exact ⟨allTrue_eq_ok_true, allTrue_eq_ok_false, fun _ => allTrue_eq_error⟩

theorem Engine.combineRules_keeps_meaning_replaced :
    let commands : List Command := [.create "adult" "age > 17", .create "active" "state = on"]
    let later : List Command := [.delete 1, .create "adult" "age > 99", .delete 2,
      .insert "active" "state = on" (.leaf "state = off")]
    let before := ((Engine.new {}).run commands).2
    let after := ((before.combineRules [2, 1, 2] "both").2.run later).2
    let twenty : WideInt := ⟨20, by decide, by decide⟩
    let adult : Record := ⟨[("age", .number (.integer twenty)), ("state", .string "on")]⟩
    let ageless : Record := ⟨[("state", .string "on")]⟩
    (∃ r, after.getRule 3 = .ok r ∧ (before.previewCombined [2, 1, 2]).1 = .ok r.text) ∧
      after.evaluateRule 3 adult = .ok true ∧
      after.evaluateRule 3 ageless = .error (.evaluation (.fieldNotFound "age")) := by
  intro commands later before after twenty adult ageless
  have hown : ∀ command ∈ commands, command.IsOwn := by decide
  have hcombine : (before.combineRules [2, 1, 2] "both").1 = .ok 3 := by decide +kernel
  have hkept : ∀ command ∈ later, command ≠ .delete 3 := by simp [later]
  obtain ⟨htext, hverdict⟩ := combineRules_keeps_meaning {} hown hcombine hkept
  have hadult : ∀ id ∈ [2, 1, 2], before.evaluateRule id adult = .ok true := by decide +kernel
  have hactive : before.evaluateRule 2 ageless = .ok true := by decide +kernel
  have hage : before.evaluateRule 1 ageless = .error (.evaluation (.fieldNotFound "age")) := by
    decide +kernel
  refine ⟨htext, (hverdict adult).1.2 hadult, ((hverdict ageless).2.2 _).2 ?_⟩
  exact ⟨[2], 1, [2], rfl, List.forall_mem_cons.2 ⟨⟨true, hactive⟩, fun _ hid => nomatch hid⟩, hage⟩

end BusinessRules
