import BusinessRules.Proofs.Catalogue
import BusinessRules.Proofs.Combination
import BusinessRules.Proofs.Ledger
import BusinessRules.Proofs.StoredForm

/-!
# Stored rules agree with their texts

Two operations store rules: `createRule` keeps the text that was parsed, `combineRules` keeps the
rendered text of an expression that was joined and never parsed. In both cases the text keeps the
length limit and parses to the stored expression.

* `Command.IsOwn` — an operation other than storing an expression under a text of choice;
* `StoredRule.Agreed` — a rule whose text and stored expression agree;
* `Ledger.Sound` — the stored rules are in order and agree with their texts.

Principal results: `Ledger.forall_rules_perform` (what an operation keeps true of all stored rules),
`Ledger.Sound.perform` and `Ledger.Sound.run` (every operation keeps the ledger sound) and
`Engine.listRules_agree_of_run` (what this means for evaluation and combination).
-/

namespace BusinessRules

/-- An operation other than storing an expression under a text that need not be its own. -/
def Command.IsOwn : Command → Prop
  | .insert .. => False
  | _ => True

instance : DecidablePred Command.IsOwn := fun command =>
  match command with
  | .insert .. => isFalse id
  | .parse _ | .combine _ | .create .. | .get _ | .list | .delete _ | .evaluate .. |
    .evaluateText .. | .preview _ | .combineRules .. => isTrue trivial

/-- A rule whose text keeps the limit and parses to the stored expression. -/
def StoredRule.Agreed (limit : Nat) (r : StoredRule) : Prop :=
  r.text.length ≤ limit ∧ ∃ e, Expr.parse r.text = .ok e ∧ r.ast = e.toJson

namespace Ledger

/-! ## Texts -/

theorem checkLength_eq_ok {ledger : Ledger} {text : String} :
    ledger.checkLength text = .ok () ↔ text.length ≤ ledger.limit := by
  unfold checkLength
  split
  · rename_i h
    exact ⟨fun hok => (nomatch hok), fun hle => by omega⟩
  · rename_i h
    exact ⟨fun _ => by omega, fun _ => rfl⟩

theorem parse_eq_ok_iff {ledger : Ledger} {text : String} {e : Expr} :
    ledger.parse text = .ok e ↔ text.length ≤ ledger.limit ∧ Expr.parse text = .ok e := by
  unfold parse
  cases hcheck : ledger.checkLength text with
  | error err =>
    refine ⟨fun h => (nomatch h), ?_⟩
    rintro ⟨hle, -⟩
    rw [checkLength_eq_ok.2 hle] at hcheck
    cases hcheck
  | ok u =>
    have hle := checkLength_eq_ok.1 hcheck
    cases hparse : Expr.parse text with
    | error err => exact ⟨fun h => (nomatch h), fun h => nomatch h.2⟩
    | ok found =>
      refine ⟨fun h => ⟨hle, ?_⟩, fun h => ?_⟩
      · cases h
        rfl
      · cases h.2
        rfl

theorem parseAll_cons_eq_ok {ledger : Ledger} {text : String} {rest : List String}
    {es : List Expr} :
    ledger.parseAll (text :: rest) = .ok es ↔
      ∃ e others, ledger.parse text = .ok e ∧ ledger.parseAll rest = .ok others ∧
        es = e :: others := by
  rw [parseAll]
  cases ledger.parse text with
  | error err => simp
  | ok e => simp [map_eq_ok]

/-- Texts are read with their lengths checked on the way or all at once. -/
theorem parseAll_eq_ok_iff {ledger : Ledger} {texts : List String} {es : List Expr} :
    ledger.parseAll texts = .ok es ↔
      (∀ text ∈ texts, text.length ≤ ledger.limit) ∧ Expr.parseAll texts = .ok es := by
  induction texts generalizing es with
  | nil => simp [parseAll, Expr.parseAll]
  | cons text rest ih =>
    rw [parseAll_cons_eq_ok, Expr.parseAll_cons_eq_ok, List.forall_mem_cons]
    simp only [parse_eq_ok_iff, ih]
    constructor
    · rintro ⟨e, others, ⟨hlength, hparse⟩, ⟨hlengths, hrest⟩, rfl⟩
      exact ⟨⟨hlength, hlengths⟩, e, others, hparse, hrest, rfl⟩
    · rintro ⟨⟨hlength, hlengths⟩, e, others, hparse, hrest, rfl⟩
      exact ⟨e, others, ⟨hlength, hparse⟩, ⟨hlengths, hrest⟩, rfl⟩

theorem combine_eq_ok {ledger : Ledger} {texts : List String} {e : Expr} :
    ledger.combine texts = .ok e ↔
      ∃ es, ledger.parseAll texts = .ok es ∧ Expr.combine es = .ok e := by
  rw [combine]
  cases ledger.parseAll texts with
  | error err => simp
  | ok es => simp [mapError_eq_ok]

/-- Texts combine if all keep the limit and they would combine without one. -/
theorem combine_eq_ok_iff {ledger : Ledger} {texts : List String} {e : Expr} :
    ledger.combine texts = .ok e ↔
      (∀ text ∈ texts, text.length ≤ ledger.limit) ∧ Expr.combineTexts texts = .ok e := by
  rw [combine_eq_ok, Expr.combineTexts_eq_ok]
  simp only [parseAll_eq_ok_iff, and_assoc, exists_and_left]

/-- A combination succeeds if every rule is there, every text parses and the levels suffice. -/
theorem combineStored_eq_ok {ledger : Ledger} {ids : List Nat} {e : Expr} :
    ledger.combineStored ids = .ok e ↔
      ∃ rules es, ledger.catalogue.getMany ids = .ok rules ∧
        ledger.parseAll (rules.map (·.text)) = .ok es ∧ Expr.combine es = .ok e := by
  unfold combineStored
  cases ledger.catalogue.getMany ids with
  | error err => simp
  | ok rules => simp [combine_eq_ok]

theorem legal_of_parseAll {ledger : Ledger} {texts : List String} {es : List Expr}
    (h : ledger.parseAll texts = .ok es) : ∀ e ∈ es, e.Legal :=
  .of_parseAll (parseAll_eq_ok_iff.1 h).2

theorem legal_of_combineStored {ledger : Ledger} {ids : List Nat} {e : Expr}
    (h : ledger.combineStored ids = .ok e) : e.Legal := by
  obtain ⟨rules, es, -, hes, hcombine⟩ := combineStored_eq_ok.1 h
  exact .of_combine (legal_of_parseAll hes) hcombine

/-! ## One operation -/

theorem perform_limit (ledger : Ledger) (command : Command) :
    (ledger.perform command).2.limit = ledger.limit := by
  obtain hsame | ⟨name, text, e, -, hinsert⟩ | ⟨ruleId, r, -, -, herase⟩ :=
    ledger.perform_cases command
  · rw [hsame]
  · rw [hinsert]
    rfl
  · rw [herase]
    rfl

theorem ordered_perform {ledger : Ledger} (h : ledger.catalogue.Ordered) (command : Command) :
    (ledger.perform command).2.catalogue.Ordered := by
  obtain hsame | ⟨name, text, e, -, hinsert⟩ | ⟨ruleId, r, -, -, herase⟩ :=
    ledger.perform_cases command
  · rw [hsame]
    exact h
  · rw [hinsert]
    exact h.insert name text e
  · rw [herase]
    exact h.erase ruleId

/-- What holds of all stored rules and of what an operation stores holds of all rules afterwards. -/
theorem forall_rules_perform {ledger : Ledger} {P : StoredRule → Prop}
    (h : ∀ r ∈ ledger.catalogue.rules, P r) {command : Command}
    (hnew : ∀ name text e, ledger.Stores command name text e →
      P ⟨ledger.catalogue.nextId, name, text, e.toJson⟩) :
    ∀ r ∈ (ledger.perform command).2.catalogue.rules, P r := by
  intro r hr
  obtain hsame | ⟨name, text, e, hstores, hinsert⟩ | ⟨ruleId, found, -, -, herase⟩ :=
    ledger.perform_cases command
  · rw [hsame] at hr
    exact h r hr
  · rw [hinsert] at hr
    rcases Catalogue.mem_rules_insert.1 hr with hr | rfl
    · exact h r hr
    · exact hnew name text e hstores
  · rw [herase] at hr
    exact h r (Catalogue.mem_rules_erase.1 hr).1

/-! ## Soundness -/

/-- The stored rules are in the order of their ids, and their texts agree with their expressions. -/
structure Sound (ledger : Ledger) : Prop where
  ordered : ledger.catalogue.Ordered
  agreed : ∀ r ∈ ledger.catalogue.rules, r.Agreed ledger.limit

theorem sound_empty (limit : Nat) : Sound ⟨limit, .empty⟩ :=
  ⟨Catalogue.ordered_empty, fun _ hr => nomatch hr⟩

/-- **Every operation of its own keeps a ledger sound**, whether it succeeds or not. -/
theorem Sound.perform {ledger : Ledger} (h : ledger.Sound) {command : Command}
    (hown : command.IsOwn) : (ledger.perform command).2.Sound := by
  refine ⟨ordered_perform h.ordered command, ?_⟩
  rw [perform_limit]
  refine forall_rules_perform h.agreed fun name text e hstores => ?_
  cases hstores with
  | created hparse =>
    obtain ⟨hlength, hparse⟩ := parse_eq_ok_iff.1 hparse
    exact ⟨hlength, e, hparse, rfl⟩
  | combined hjoined hfits =>
    -- the stored text was never parsed: it is the rendering of a legal expression
    exact ⟨checkLength_eq_ok.1 hfits, e, (legal_of_combineStored hjoined).parse_render, rfl⟩
  | inserted => exact hown.elim

/-- Every run of own operations keeps a ledger sound, and its limit. -/
theorem Sound.run {ledger : Ledger} (h : ledger.Sound) {commands : List Command}
    (hown : ∀ command ∈ commands, command.IsOwn) :
    (ledger.run commands).2.Sound ∧ (ledger.run commands).2.limit = ledger.limit := by
  induction commands generalizing ledger with
  | nil => exact ⟨h, rfl⟩
  | cons command rest ih =>
    have hnext := h.perform (hown command (List.mem_cons_self ..))
    obtain ⟨hsound, hlimit⟩ := ih hnext fun c hc => hown c (List.mem_cons_of_mem _ hc)
    exact ⟨hsound, hlimit.trans (perform_limit ledger command)⟩

/-! ## What agreement means -/

theorem Sound.parse_text {ledger : Ledger} (h : ledger.Sound) {r : StoredRule}
    (hr : r ∈ ledger.catalogue.rules) :
    ∃ e, ledger.parse r.text = .ok e ∧ Expr.parse r.text = .ok e ∧ r.ast = e.toJson := by
  obtain ⟨hlength, e, hparse, hast⟩ := h.agreed r hr
  exact ⟨e, parse_eq_ok_iff.2 ⟨hlength, hparse⟩, hparse, hast⟩

/-- A stored rule and its text have the same truth value, or fail alike. -/
theorem Sound.evaluateRule_eq {ledger : Ledger} (h : ledger.Sound) {r : StoredRule}
    (hr : r ∈ ledger.catalogue.rules) (record : Record) :
    ledger.evaluateRule r.id record = ledger.evaluateText r.text record := by
  obtain ⟨e, htext, hparse, hast⟩ := h.parse_text hr
  rw [evaluateRule, h.ordered.get_eq_ok_iff.2 ⟨hr, rfl⟩, evaluateText, htext]
  dsimp only
  rw [hast, evaluateStored_toJson (Expr.depth_le_of_parse hparse)]

/-- A stored rule on its own combines to its expression. -/
theorem Sound.combineStored_singleton {ledger : Ledger} (h : ledger.Sound) {r : StoredRule}
    (hr : r ∈ ledger.catalogue.rules) {e : Expr} (hparse : Expr.parse r.text = .ok e) :
    ledger.combineStored [r.id] = .ok e := by
  obtain ⟨hlength, -⟩ := h.agreed r hr
  have htext := parse_eq_ok_iff.2 ⟨hlength, hparse⟩
  have hmany : ledger.catalogue.getMany [r.id] = .ok [r] := by
    rw [Catalogue.getMany, h.ordered.get_eq_ok_iff.2 ⟨hr, rfl⟩]
    rfl
  have hall : ledger.parseAll [r.text] = .ok [e] := by
    rw [parseAll, htext]
    rfl
  exact combineStored_eq_ok.2 ⟨[r], [e], hmany, hall, rfl⟩

end Ledger

/-! ## Engines -/

/-- **Stored rules agree with their texts.** After any run of own operations, whatever their
outcomes, every stored rule has a text that keeps the length limit and parses to the stored
expression. So a rule evaluates as its text does, errors included, and its text can be previewed. -/
theorem Engine.listRules_agree_of_run (settings : Settings) (commands : List Command)
    (hown : ∀ command ∈ commands, command.IsOwn) :
    let engine := ((Engine.new settings).run commands).2
    ∀ r ∈ engine.listRules, engine.getRule r.id = .ok r ∧
      r.text.length ≤ settings.maxRuleLength.toNat ∧
      ∃ e, Expr.parse r.text = .ok e ∧ r.ast = e.toJson ∧
        (∀ record, engine.evaluateRule r.id record = (engine.evaluateText r.text record).1) ∧
        (engine.previewCombined [r.id]).1 = .ok e.render := by
  intro engine r hr
  -- the invariant is carried by the ledger; the engine only has to agree with it at the end
  have hrun : Agrees ((Engine.new settings).run commands) _ :=
    agrees_run (ParseCache.faithful_empty _) commands
  obtain ⟨hsound, hlimit⟩ := (Ledger.sound_empty settings.maxRuleLength.toNat).run hown
  have hledger : engine.ledger = ((Engine.new settings).ledger.run commands).2 := hrun.ledger
  have hsound : engine.ledger.Sound := hledger ▸ hsound
  have hlimit : engine.ledger.limit = settings.maxRuleLength.toNat := hledger ▸ hlimit
  obtain ⟨hlength, e, hparse, hast⟩ := hsound.agreed r hr
  refine ⟨hsound.ordered.get_eq_ok_iff.2 ⟨hr, rfl⟩, hlimit ▸ hlength, e, hparse, hast, ?_, ?_⟩
  · intro record
    have htext := agrees_evaluateText hrun.faithful r.text record
    rw [htext.answer]
    exact hsound.evaluateRule_eq hr record
  · have hpreview := agrees_previewCombined hrun.faithful [r.id]
    rw [hpreview.answer]
    show engine.ledger.previewCombined [r.id] = .ok e.render
    rw [Ledger.previewCombined, hsound.combineStored_singleton hr hparse]
    rfl

theorem Engine.listRules_agree_of_run_combined :
    let commands : List Command := [.create "first" "a > 1 OR b = x", .create "second" "c != 2",
      .create "broken" "c !=", .combineRules [1, 2, 1] "both", .delete 1]
    let engine := ((Engine.new {}).run commands).2
    let text := "(((a > 1 OR b = x) AND c != 2) AND (a > 1 OR b = x))"
    engine.listRules.map (·.text) = ["c != 2", text] ∧
      (engine.previewCombined [3]).1 = .ok text ∧
      ∀ record, engine.evaluateRule 3 record = (engine.evaluateText text record).1 := by
  intro commands engine text
  have hrules : engine.listRules.map (fun r => (r.id, r.text)) = [(2, "c != 2"), (3, text)] := by
    decide +kernel
  have htexts := congrArg (List.map Prod.snd) hrules
  rw [List.map_map] at htexts
  have hmem : (3, text) ∈ engine.listRules.map (fun r => (r.id, r.text)) := by
    rw [hrules]
    exact List.mem_cons_of_mem _ (List.mem_cons_self ..)
  obtain ⟨r, hr, hpair⟩ := List.mem_map.1 hmem
  obtain ⟨hid, htext⟩ := Prod.mk.inj hpair
  obtain ⟨-, -, e, hparse, -, hevaluate, hpreview⟩ :=
    listRules_agree_of_run {} commands (by decide) r hr
  have hrender : (Expr.parse text).toOption.map Expr.render = some text := by
    decide +kernel
  rw [← htext, hparse] at hrender
  rw [hid, htext] at hevaluate
  rw [hid] at hpreview
  refine ⟨htexts, ?_, hevaluate⟩
  rw [hpreview, ← htext, Option.some.inj hrender]

end BusinessRules
