import BusinessRules.Host.Session
import BusinessRules.Proofs.StoredRules
import Mathlib.Tactic.Common

/-!
# Sessions

A session has one engine at a time. Initialization puts a new one in its place or, if its argument
gives no settings, leaves everything as it is. The calls that need no engine take nothing but the
length limit from the session, and answer as every engine with that limit does. Evaluation of a
stored rule can be awaited; it looks for the engine and converts the data in the other order.

Principal results: `Session.run_append`, `Session.run_initEngine` (what initialization forgets and
what it keeps), `Session.parseRule_and_combine_agree` (calls without an engine and with one) and
`Session.evaluateRuleAsync_eq_iff` (when awaited and direct evaluation agree).
-/

namespace BusinessRules

namespace Session

/-! ## Runs -/

theorem run_cons (s : Session) (call : Call) (rest : List Call) :
    s.run (call :: rest) =
      ((s.perform call).1 :: ((s.perform call).2.run rest).1, ((s.perform call).2.run rest).2) :=
  rfl

theorem run_append (s : Session) (xs ys : List Call) :
    s.run (xs ++ ys) = ((s.run xs).1 ++ ((s.run xs).2.run ys).1, ((s.run xs).2.run ys).2) := by
  induction xs generalizing s with
  | nil => rfl
  | cons call rest ih => simp only [List.cons_append, run_cons, ih]

theorem length_run (s : Session) (calls : List Call) : (s.run calls).1.length = calls.length := by
  induction calls generalizing s with
  | nil => rfl
  | cons call rest ih => simp only [run_cons, List.length_cons, ih]

/-- Later calls are answered by the session that the earlier ones leave behind. -/
theorem drop_run_append (s : Session) (xs ys : List Call) :
    (s.run (xs ++ ys)).1.drop xs.length = ((s.run xs).2.run ys).1 := by
  rw [run_append, ← s.length_run xs, List.drop_left]

/-! ## Initialization -/

section Initialization

variable {config : Option (List (HostKey × HostValue))}

/-- Whether initialization succeeds, and what with, depends on its argument alone. -/
theorem perform_initEngine_of_ok {settings : Settings} (h : settingsOf config = .ok settings)
    (s : Session) : s.perform (.initEngine config) = (.ok .null, ⟨some (.new settings)⟩) := by
  rw [perform, initEngine, h]
  rfl

theorem perform_initEngine_of_error {e : HostError} (h : settingsOf config = .error e)
    (s : Session) : s.perform (.initEngine config) = (.error e, s) := by
  rw [perform, initEngine, h]
  rfl

/-- The first rule that is stored in a new engine has the id one. -/
theorem perform_createRule_new (settings : Settings) {name text : String} {v : HostValue}
    (h : (perform ⟨some (.new settings)⟩ (.createRule name text)).1 = .ok v) : v = .integer 1 := by
  have hagrees : Agrees ((Engine.new settings).createRule name text) _ :=
    Engine.agrees_createRule (ParseCache.faithful_empty _) name text
  have hcall : (perform ⟨some (.new settings)⟩ (.createRule name text)).1 =
      ((((Engine.new settings).createRule name text).1).mapError .engine).map idValue := rfl
  rw [hcall, hagrees.answer, Ledger.createRule] at h
  cases hparse : (Engine.new settings).ledger.parse text with
  | error e => rw [hparse] at h; cases h
  | ok e =>
    rw [hparse] at h
    cases h
    rfl

end Initialization

/-- **A new engine knows nothing of what was before it, and a failed initialization loses nothing.**
After any two histories, an initialization that succeeds after the one succeeds after the other, all
later calls are answered alike, and both sessions end alike: the engine is one without rules, with
the settings of the argument, and its first rule will have the id one. An initialization that fails
leaves the session as it is, and its error is the only trace of it. -/
theorem run_initEngine (one other later : List Call)
    (config : Option (List (HostKey × HostValue))) :
    let init := Call.initEngine config
    let before := (fresh.run one).2
    let after := (before.perform init).2
    (∀ v, (before.perform init).1 = .ok v →
      (fresh.run (one ++ init :: later)).1.drop one.length =
          (fresh.run (other ++ init :: later)).1.drop other.length ∧
        (fresh.run (one ++ init :: later)).2 = (fresh.run (other ++ init :: later)).2 ∧
        (∃ settings, settingsOf config = .ok settings ∧ after = ⟨some (.new settings)⟩) ∧
        ∀ name text ruleId, (after.perform (.createRule name text)).1 = .ok ruleId →
          ruleId = .integer 1) ∧
      ∀ e, (before.perform init).1 = .error e →
        settingsOf config = .error e ∧ after = before ∧
          fresh.run (one ++ init :: later) =
            ((fresh.run one).1 ++ .error e :: (before.run later).1, (before.run later).2) := by
  intro init before after
  cases hconfig : settingsOf config with
  | error fault =>
    have hinit : before.perform init = (.error fault, before) :=
      perform_initEngine_of_error hconfig before
    refine ⟨fun v h => ?_, fun e h => ?_⟩
    · rw [hinit] at h
      cases h
    · rw [hinit] at h
      cases h
      exact ⟨rfl, congrArg Prod.snd hinit, by rw [run_append, run_cons, hinit]⟩
  | ok settings =>
    have hinit : ∀ s : Session, s.perform init = (.ok .null, ⟨some (.new settings)⟩) :=
      perform_initEngine_of_ok hconfig
    have hafter : after = ⟨some (.new settings)⟩ := congrArg Prod.snd (hinit before)
    -- whatever the history, later calls start from the same new engine
    refine ⟨fun v h => ⟨?_, ?_, ⟨settings, rfl, hafter⟩, fun name text ruleId hid => ?_⟩,
      fun e h => ?_⟩
    · rw [drop_run_append, drop_run_append, run_cons, run_cons, hinit, hinit]
    · rw [run_append, run_append, run_cons, run_cons, hinit, hinit]
    · rw [hafter] at hid
      exact perform_createRule_new settings hid
    · rw [hinit] at h
      cases h

theorem run_initEngine_limit :
    let limit (n : Int) : Call := .initEngine (some [(.text "max_rule_length", .integer n)])
    let one : List Call := [.initEngine none, .createRule "adult" "age > 17"]
    let later : List Call := [.createRule "young" "age < 17", .createRule "old" "age > 170"]
    (fresh.run (one ++ limit 8 :: later)).1.drop 2 =
        [.ok .null, .ok (.integer 1), .error (.engine (.parse (.tooLong 8 9)))] ∧
      (fresh.run (one ++ limit 0 :: later)).1 = [.ok .null, .ok (.integer 1),
        .error (.engine (.configuration .zeroLength)), .ok (.integer 2), .ok (.integer 3)] := by
  intro limit one later
  have hshort : settingsOf (some [(.text "max_rule_length", .integer 8)]) =
      .ok { maxRuleLength := 8 } := by decide +kernel
  have hzero : settingsOf (some [(.text "max_rule_length", .integer 0)]) =
      .error (.engine (.configuration .zeroLength)) := by decide +kernel
  have hnew := perform_initEngine_of_ok hshort
  have hkept := perform_initEngine_of_error hzero
  constructor
  · have hsame := ((run_initEngine one [] later _).1 .null (by rw [hnew])).1
    refine hsame.trans ?_
    rw [List.nil_append, run_cons, hnew]
    rfl
  · rw [((run_initEngine one [] later _).2 _ (by rw [hkept])).2.2]
    rfl

/-! ## Calls that need no engine -/

theorem checkLengths_eq_ok {settings : Settings} {texts : List String} :
    checkLengths settings texts = .ok () ↔
      ∀ text ∈ texts, text.length ≤ settings.maxRuleLength.toNat := by
  induction texts with
  | nil => simp [checkLengths]
  | cons text rest ih =>
    have hlength : settings.checkLength text = .ok () ↔
        text.length ≤ settings.maxRuleLength.toNat :=
      @Ledger.checkLength_eq_ok (Engine.new settings).ledger text
    rw [List.forall_mem_cons, ← hlength, ← ih, checkLengths]
    cases settings.checkLength text <;> simp

/-- Texts combine if all keep the limit in force and they would combine without one. -/
theorem combine_eq_ok {s : Session} {texts : List String} {e : Expr} :
    s.combine texts = .ok e ↔
      (∀ text ∈ texts, text.length ≤ s.settings.maxRuleLength.toNat) ∧
        Expr.combineTexts texts = .ok e := by
  rw [← checkLengths_eq_ok, combine]
  cases checkLengths s.settings texts with
  | error err => simp
  | ok _ => simp [mapError_eq_ok]

section Awaited

variable {s : Session} {data : HostValue}

theorem evaluateRuleAsync_of_engine {engine : Engine} (h : s.engine = some engine) (ruleId : Nat) :
    s.evaluateRuleAsync ruleId data = s.evaluateRule ruleId data := by
  rw [evaluateRuleAsync, evaluateRule, h]
  cases recordOf data with
  | error fault => rfl
  | ok record => simp only [ask, h]

theorem evaluateRuleAsync_of_record {record : Record} (h : recordOf data = .ok record)
    (ruleId : Nat) : s.evaluateRuleAsync ruleId data = s.evaluateRule ruleId data := by
  rw [evaluateRuleAsync, evaluateRule, h]
  cases hengine : s.engine with
  | none => simp only [ask, hengine]
  | some engine => simp only [ask, hengine]

theorem evaluateRule_of_error {fault : HostError} (h : recordOf data = .error fault)
    (ruleId : Nat) : s.evaluateRule ruleId data = .error fault := by
  rw [evaluateRule, h]

theorem evaluateRuleAsync_of_uninitialized (h : s.engine = none) (ruleId : Nat) :
    s.evaluateRuleAsync ruleId data = .error .uninitialized := by
  rw [evaluateRuleAsync, h]

/-- Data that is no record has a wrong type or a wrong value. -/
theorem category_of_recordOf {fault : HostError} (h : recordOf data = .error fault) :
    fault.category = .type ∨ fault.category = .value := by
  unfold recordOf at h
  split at h
  · rename_i e he
    cases h
    rw [convert, mapError_eq_error] at he
    obtain ⟨cause, -, rfl⟩ := he
    cases cause with
    | keyType | valueType => exact .inl rfl
    | tooDeep | integerTooWide | notFinite => exact .inr rfl
  · split at h
    · cases h
      exact .inl rfl
    · cases h

end Awaited

/-- **Awaited evaluation is direct evaluation**, in every session, initialized or not, and for every
rule and all data, unless there is no engine and the data is no record either. Then both calls fail,
each with the fault that it meets first: the direct one with that of the data, the awaited one with
the missing engine. -/
theorem evaluateRuleAsync_eq_iff (s : Session) (ruleId : Nat) (data : HostValue) :
    let direct := s.perform (.evaluateRule ruleId data)
    let awaited := s.perform (.evaluateRuleAsync ruleId data)
    (awaited = direct ↔ s.engine ≠ none ∨ ∃ record, recordOf data = .ok record) ∧
      ∀ fault, s.engine = none → recordOf data = .error fault →
        direct = (.error fault, s) ∧ awaited = (.error .uninitialized, s) ∧
          (fault.category = .type ∨ fault.category = .value) ∧
          HostError.uninitialized.category = .runtime := by
  intro direct awaited
  have hfaults : ∀ fault, s.engine = none → recordOf data = .error fault →
      direct = (.error fault, s) ∧ awaited = (.error .uninitialized, s) := by
    intro fault hnone hfault
    constructor
    · show ((s.evaluateRule ruleId data).map HostValue.bool, s) = _
      rw [evaluateRule_of_error hfault]
      rfl
    · show ((s.evaluateRuleAsync ruleId data).map HostValue.bool, s) = _
      rw [evaluateRuleAsync_of_uninitialized hnone]
      rfl
  have hsame : s.evaluateRuleAsync ruleId data = s.evaluateRule ruleId data → awaited = direct :=
    fun h => congrArg (fun result => (result.map HostValue.bool, s)) h
  refine ⟨⟨fun hagree => ?_, ?_⟩, fun fault hnone hfault => ?_⟩
  · cases hengine : s.engine with
    | some engine => exact .inl nofun
    | none =>
      cases hrecord : recordOf data with
      | ok record => exact .inr ⟨record, rfl⟩
      | error fault =>
        -- the fault of the data is never that of the missing engine
        obtain ⟨hdirect, hawaited⟩ := hfaults fault hengine hrecord
        rw [hdirect, hawaited] at hagree
        cases hagree
        rcases category_of_recordOf hrecord with h | h <;> cases h
  · rintro (hengine | ⟨record, hrecord⟩)
    · obtain ⟨engine, hengine⟩ := Option.ne_none_iff_exists'.1 hengine
      exact hsame (evaluateRuleAsync_of_engine hengine ruleId)
    · exact hsame (evaluateRuleAsync_of_record hrecord ruleId)
  · obtain ⟨hdirect, hawaited⟩ := hfaults fault hnone hfault
    exact ⟨hdirect, hawaited, category_of_recordOf hfault, rfl⟩

theorem evaluateRuleAsync_eq_iff_stored :
    let s := (fresh.run [.initEngine none, .createRule "adult" "age > 17"]).2
    let data : HostValue := .dict [(.text "age", .integer 35)]
    (s.perform (.evaluateRule 1 data)).1 = .ok (.bool true) ∧
      s.perform (.evaluateRuleAsync 1 data) = s.perform (.evaluateRule 1 data) ∧
      s.perform (.evaluateRuleAsync 2 .null) = s.perform (.evaluateRule 2 .null) ∧
      fresh.perform (.evaluateRule 1 .null) = (.error .notRecord, fresh) := by
  intro s data
  have hengine : s.engine ≠ none := nofun
  have hverdict : s.evaluateRule 1 data = .ok true := by decide +kernel
  have hdirect : (s.perform (.evaluateRule 1 data)).1 = (s.evaluateRule 1 data).map .bool := rfl
  rw [hverdict] at hdirect
  exact ⟨hdirect, (evaluateRuleAsync_eq_iff s 1 data).1.2 (.inl hengine),
    (evaluateRuleAsync_eq_iff s 2 .null).1.2 (.inl hengine),
    ((evaluateRuleAsync_eq_iff fresh 1 .null).2 .notRecord rfl rfl).1⟩

/-- Without an engine, data that is no record is a wrong type for the one call and no reason to fail
yet for the other. -/
theorem evaluateRule_ne_evaluateRuleAsync :
    (fresh.perform (.evaluateRule 1 (.integer 5))).1 = .error .notRecord ∧
      (fresh.perform (.evaluateRuleAsync 1 (.integer 5))).1 = .error .uninitialized ∧
      HostError.notRecord.category ≠ HostError.uninitialized.category ∧
      HostError.notRecord.message ≠ HostError.uninitialized.message :=
  ⟨by rfl, by rfl, by decide, by decide⟩

end Session

end BusinessRules
