import BusinessRules.Proofs.Ledger

/-!
# What a run depends on and what it leaves behind

A run of an engine starts from its settings and is given operations. Neither the capacity of the
cache nor the operations that fail or only read make a difference to the others.

* `Command.isChange` — an operation that can change the stored rules;
* `isLasting` — such an operation with an answer that is no error.

Principal results: `Engine.run_eq_of_maxRuleLength_eq` (the capacity of the cache cannot be seen) and
`Engine.run_lasting` (a run without its failed and its reading operations gives the same answers and
the same rules).
-/

namespace BusinessRules

/-! ## The capacity of the cache -/

/-- **The cache cannot be seen.** Two engines with the same length limit give the same answers to
the same operations and hold the same rules afterwards, however much their caches remember. -/
theorem Engine.run_eq_of_maxRuleLength_eq {one other : Settings}
    (h : one.maxRuleLength = other.maxRuleLength) (commands : List Command) :
    ((Engine.new one).run commands).1 = ((Engine.new other).run commands).1 ∧
      ((Engine.new one).run commands).2.catalogue =
        ((Engine.new other).run commands).2.catalogue := by
  -- the caches may differ after every operation; both engines agree with one ledger
  have hone := agrees_run_new one commands
  have hother := agrees_run_new other commands
  rw [h] at hone
  refine ⟨hone.answer.trans hother.answer.symm, ?_⟩
  exact congrArg Ledger.catalogue (hone.ledger.trans hother.ledger.symm)

theorem Engine.run_eq_of_maxRuleLength_eq_uncached :
    let commands : List Command := [.create "first" "a > 1", .parse "b = x", .parse "b =",
      .combineRules [1, 1] "twice", .evaluateText "a > 1" ⟨[]⟩, .preview [2, 1]]
    let nothing : Settings := { cacheCapacity := 0 }
    let single : Settings := { cacheCapacity := 1 }
    ((Engine.new nothing).run commands).2.cache.size = 0 ∧
      ((Engine.new single).run commands).2.cache.size = 1 ∧
      ((Engine.new nothing).run commands).1 = ((Engine.new single).run commands).1 ∧
      ((Engine.new nothing).run commands).2.catalogue =
        ((Engine.new single).run commands).2.catalogue := by
  intro commands nothing single
  have hlimit : nothing.maxRuleLength = single.maxRuleLength := rfl
  have hsame := run_eq_of_maxRuleLength_eq hlimit commands
  exact ⟨by decide +kernel, by decide +kernel, hsame⟩

/-! ## Operations that leave no trace -/

/-- An operation that can change the stored rules: the creating, deleting and combining ones, and
storing an expression under a text of choice. -/
def Command.isChange : Command → Bool
  | .create .. | .delete _ | .combineRules .. | .insert .. => true
  | .parse _ | .combine _ | .get _ | .list | .evaluate .. | .evaluateText .. | .preview _ => false

/-- An operation that can change the stored rules, with an answer that is no error. -/
def isLasting (step : Command × Except Error Answer) : Bool := step.1.isChange && step.2.isOk

namespace Ledger

/-- **A failed operation changes nothing.** -/
theorem perform_of_error {ledger : Ledger} {command : Command} {e : Error}
    (h : (ledger.perform command).1 = .error e) : (ledger.perform command).2 = ledger := by
  obtain hsame | ⟨name, text, stored, -, hinsert⟩ | ⟨ruleId, r, -, -, herase⟩ :=
    ledger.perform_cases command
  · exact hsame
  · rw [hinsert] at h
    cases h
  · rw [herase] at h
    cases h

theorem perform_of_isChange_eq_false (ledger : Ledger) {command : Command}
    (h : command.isChange = false) : (ledger.perform command).2 = ledger := by
  cases command with
  | create | delete | combineRules | insert => cases h
  | parse | combine | get | list | evaluate | evaluateText | preview => rfl

/-- An operation that fails or only reads leaves the ledger as it is. -/
theorem perform_of_not_lasting {ledger : Ledger} {command : Command}
    (h : isLasting (command, (ledger.perform command).1) = false) :
    (ledger.perform command).2 = ledger := by
  rcases Bool.and_eq_false_iff.1 h with hchange | hanswer
  · exact perform_of_isChange_eq_false ledger hchange
  · cases herror : (ledger.perform command).1 with
    | error e => exact perform_of_error herror
    | ok answer =>
      rw [herror] at hanswer
      cases hanswer

/-- The lasting operations of a run, on their own, give the answers they gave in the run, and lead
to the same ledger. -/
theorem run_filter_lasting (ledger : Ledger) (commands : List Command) :
    let kept := (commands.zip (ledger.run commands).1).filter isLasting
    ledger.run (kept.map (·.1)) = (kept.map (·.2), (ledger.run commands).2) := by
  induction commands generalizing ledger with
  | nil => rfl
  | cons command rest ih =>
    have hrest := ih (ledger.perform command).2
    simp only [run, List.zip_cons_cons, List.filter_cons]
    cases hlasting : isLasting (command, (ledger.perform command).1) with
    | true =>
      simp only [if_pos, List.map_cons, run, hrest]
    | false =>
      rw [perform_of_not_lasting hlasting] at hrest ⊢
      simpa using hrest

end Ledger

/-- **Failed and reading operations leave no trace.** Take the operations of a run out that failed
or that only read. Each of the others gives the same answer as in the whole run, ids included, and
the run ends with the same rules and the same next id. -/
theorem Engine.run_lasting (settings : Settings) (commands : List Command) :
    let full := (Engine.new settings).run commands
    let kept := (commands.zip full.1).filter isLasting
    let short := (Engine.new settings).run (kept.map (·.1))
    short.1 = kept.map (·.2) ∧ short.2.catalogue = full.2.catalogue := by
  intro full kept short
  have hfull : Agrees full _ := agrees_run_new settings commands
  have hshort : Agrees short _ := agrees_run_new settings (kept.map (·.1))
  have hkept := Ledger.run_filter_lasting ⟨settings.maxRuleLength.toNat, .empty⟩ commands
  rw [← hfull.answer] at hkept
  rw [hkept] at hshort
  exact ⟨hshort.answer, congrArg Ledger.catalogue (hshort.ledger.trans hfull.ledger.symm)⟩

end BusinessRules
