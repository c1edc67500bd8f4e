import BusinessRules.Engine
import BusinessRules.Proofs.CacheRuns

/-!
# The engine without its cache

What an engine answers depends on its length limit and its stored rules alone; the cache only
saves parsing.

* `Ledger` — the limit and the stored rules, with the operations of an engine that parses every
  text anew;
* `Ledger.Stores` — what an operation stores if it stores something;
* `Engine.ledger` — the ledger of an engine;
* `Agrees` — an engine's result is that of its ledger.

Principal results: `Ledger.perform_cases` (everything an operation can do to a ledger),
`Engine.agrees_perform` and `Engine.agrees_run` (engine and ledger give the same answers and end with
the same rules).
-/

namespace BusinessRules

/-! ## The ledger -/

/-- What the answers of an engine depend on. -/
structure Ledger where
  /-- the number of characters a rule text may have -/
  limit : Nat
  catalogue : Catalogue

namespace Ledger

/-- Refuses a text of more characters than the limit. -/
def checkLength (ledger : Ledger) (text : String) : Except ParseError Unit :=
  if ledger.limit < text.length then .error (.tooLong ledger.limit text.length) else .ok ()

/-- The expression of a text that keeps the length limit. -/
def parse (ledger : Ledger) (text : String) : Except Error Expr :=
  match ledger.checkLength text with
  | .error e => .error (.parse e)
  | .ok _ => (Expr.parse text).mapError .parse

def parseAll (ledger : Ledger) : List String → Except Error (List Expr)
  | [] => .ok []
  | text :: rest =>
    match ledger.parse text with
    | .error e => .error e
    | .ok e => (ledger.parseAll rest).map (e :: ·)

/-- The combination of texts. -/
def combine (ledger : Ledger) (texts : List String) : Except Error Expr :=
  match ledger.parseAll texts with
  | .error e => .error e
  | .ok es => (Expr.combine es).mapError .ofCombine

/-- The truth value of a text on a record. -/
def evaluateText (ledger : Ledger) (text : String) (record : Record) : Except Error Bool :=
  match ledger.parse text with
  | .error e => .error e
  | .ok e => (e.evaluate record).mapError .evaluation

/-- Stores an expression under a text, and returns its id. -/
def insert (ledger : Ledger) (name text : String) (e : Expr) : Nat × Ledger :=
  let (id, catalogue) := ledger.catalogue.insert name text e
  (id, { ledger with catalogue := catalogue })

def createRule (ledger : Ledger) (name text : String) : Except Error Nat × Ledger :=
  match ledger.parse text with
  | .error e => (.error e, ledger)
  | .ok e => (ledger.insert name text e).map .ok id

def deleteRule (ledger : Ledger) (id : Nat) : Except Error Unit × Ledger :=
  ((ledger.catalogue.erase id).1.map fun _ => (),
    { ledger with catalogue := (ledger.catalogue.erase id).2 })

def evaluateRule (ledger : Ledger) (id : Nat) (record : Record) : Except Error Bool :=
  match ledger.catalogue.get id with
  | .error e => .error e
  | .ok r => evaluateStored r.ast record

def combineStored (ledger : Ledger) (ids : List Nat) : Except Error Expr :=
  match ledger.catalogue.getMany ids with
  | .error e => .error e
  | .ok rules => ledger.combine (rules.map (·.text))

def previewCombined (ledger : Ledger) (ids : List Nat) : Except Error String :=
  (ledger.combineStored ids).map Expr.render

def combineRules (ledger : Ledger) (ids : List Nat) (name : String) : Except Error Nat × Ledger :=
  match ledger.combineStored ids with
  | .error e => (.error e, ledger)
  | .ok e =>
    match ledger.checkLength e.render with
    | .error err => (.error (.parse err), ledger)
    | .ok _ => (ledger.insert name e.render e).map .ok id

/-- Carries out an operation. -/
def perform (ledger : Ledger) : Command → Except Error Answer × Ledger
  | .parse text => ((ledger.parse text).map .expr, ledger)
  | .combine texts => ((ledger.combine texts).map .expr, ledger)
  | .create name text => (ledger.createRule name text).map (Except.map .id) id
  | .get ruleId => ((ledger.catalogue.get ruleId).map .rule, ledger)
  | .list => (.ok (.rules ledger.catalogue.rules), ledger)
  | .delete ruleId => (ledger.deleteRule ruleId).map (Except.map fun _ => .done) id
  | .evaluate ruleId record => ((ledger.evaluateRule ruleId record).map .verdict, ledger)
  | .evaluateText text record => ((ledger.evaluateText text record).map .verdict, ledger)
  | .preview ids => ((ledger.previewCombined ids).map .text, ledger)
  | .combineRules ids name => (ledger.combineRules ids name).map (Except.map .id) id
  | .insert name text e => (ledger.insert name text e).map (.ok ∘ .id) id

def run (ledger : Ledger) : List Command → List (Except Error Answer) × Ledger
  | [] => ([], ledger)
  | command :: rest =>
    ((ledger.perform command).1 :: ((ledger.perform command).2.run rest).1,
      ((ledger.perform command).2.run rest).2)

/-- What an operation stores: a text and the expression it parses to, the rendering of a combination
and the combined expression, or any text and any expression. -/
inductive Stores (ledger : Ledger) : Command → String → String → Expr → Prop where
  | created {name text : String} {e : Expr} (parsed : ledger.parse text = .ok e) :
      Stores ledger (.create name text) name text e
  | combined {ids : List Nat} {name : String} {e : Expr} (joined : ledger.combineStored ids = .ok e)
      (fits : ledger.checkLength e.render = .ok ()) :
      Stores ledger (.combineRules ids name) name e.render e
  | inserted {name text : String} {e : Expr} : Stores ledger (.insert name text e) name text e

/-- What an operation does to a ledger: nothing, or it stores one expression under the next id, or
it deletes a rule that is there. Only an operation that succeeds does either. -/
theorem perform_cases (ledger : Ledger) (command : Command) :
    (ledger.perform command).2 = ledger ∨
      (∃ name text e, ledger.Stores command name text e ∧ ledger.perform command =
        (.ok (.id ledger.catalogue.nextId), (ledger.insert name text e).2)) ∨
      ∃ ruleId r, command = .delete ruleId ∧ ledger.catalogue.get ruleId = .ok r ∧
        ledger.perform command = (.ok .done, (ledger.deleteRule ruleId).2) := by
  cases command with
  | create name text =>
    have hperform : ledger.perform (.create name text) =
        (ledger.createRule name text).map (Except.map .id) id := rfl
    rw [hperform, createRule]
    cases hparse : ledger.parse text with
    | error err => exact .inl rfl
    | ok e => exact .inr (.inl ⟨name, text, e, .created hparse, rfl⟩)
  | delete ruleId =>
    have hperform : ledger.perform (.delete ruleId) =
        (ledger.deleteRule ruleId).map (Except.map fun _ => .done) id := rfl
    cases hget : ledger.catalogue.get ruleId with
    | error err =>
      left
      rw [hperform, deleteRule, Catalogue.erase, hget]
      rfl
    | ok r =>
      refine .inr (.inr ⟨ruleId, r, rfl, hget, ?_⟩)
      rw [hperform, deleteRule, Catalogue.erase, hget]
      rfl
  | combineRules ids name =>
    have hperform : ledger.perform (.combineRules ids name) =
        (ledger.combineRules ids name).map (Except.map .id) id := rfl
    rw [hperform, combineRules]
    cases hjoined : ledger.combineStored ids with
    | error err => exact .inl rfl
    | ok e =>
      dsimp only
      cases hfits : ledger.checkLength e.render with
      | error err => exact .inl rfl
      | ok _ => exact .inr (.inl ⟨name, e.render, e, .combined hjoined hfits, rfl⟩)
  | insert name text e => exact .inr (.inl ⟨name, text, e, .inserted, rfl⟩)
  | parse | combine | get | list | evaluate | evaluateText | preview => exact .inl rfl

end Ledger

/-! ## Engine and ledger -/

/-- The ledger of an engine. -/
def Engine.ledger (engine : Engine) : Ledger :=
  ⟨engine.settings.maxRuleLength.toNat, engine.catalogue⟩

/-- A result of an engine, with the state behind it, is the one of its ledger. -/
structure Agrees {α : Type} (got : α × Engine) (want : α × Ledger) : Prop where
  answer : got.1 = want.1
  ledger : got.2.ledger = want.2
  faithful : got.2.cache.Faithful

theorem Agrees.map {α β : Type} {got : α × Engine} {want : α × Ledger} (h : Agrees got want)
    (f : α → β) : Agrees (got.map f id) (want.map f id) :=
  ⟨congrArg f h.answer, h.ledger, h.faithful⟩

/-- What a result that only reads the ledger looks like. -/
theorem Agrees.reading {α : Type} {got : α × Engine} {answer : α} {ledger : Ledger}
    (h : Agrees got (answer, ledger)) :
    ∃ next : Engine, got = (answer, next) ∧ next.ledger = ledger ∧ next.cache.Faithful :=
  ⟨got.2, Prod.ext h.answer rfl, h.ledger, h.faithful⟩

namespace Engine

theorem agrees_parse {engine : Engine} (h : engine.cache.Faithful) (text : String) :
    Agrees (engine.parse text) (engine.ledger.parse text, engine.ledger) := by
  have hcheck : engine.ledger.checkLength text = engine.settings.checkLength text := rfl
  have hcache := ParseCache.parse_of_faithful h text
  unfold Engine.parse Ledger.parse
  rw [hcheck]
  cases engine.settings.checkLength text with
  | error e => exact ⟨rfl, rfl, h⟩
  | ok _ =>
    generalize engine.cache.parse text = got at hcache ⊢
    obtain ⟨result, cache⟩ := got
    obtain ⟨hparse, hfaithful⟩ := hcache
    rw [← hparse]
    cases result with
    | error e => exact ⟨rfl, rfl, hfaithful⟩
    | ok e => exact ⟨rfl, rfl, hfaithful⟩

theorem agrees_parseAll {engine : Engine} (h : engine.cache.Faithful) (texts : List String) :
    Agrees (engine.parseAll texts) (engine.ledger.parseAll texts, engine.ledger) := by
  -- the rest is read by the engine that the first text leaves behind
  induction texts generalizing engine with
  | nil => exact ⟨rfl, rfl, h⟩
  | cons text rest ih =>
    obtain ⟨next, hgot, hledger, hfaithful⟩ := (agrees_parse h text).reading
    simp only [Engine.parseAll, Ledger.parseAll]
    rw [hgot]
    cases engine.ledger.parse text with
    | error e => exact ⟨rfl, hledger, hfaithful⟩
    | ok e =>
      obtain ⟨last, hgot', hledger', hfaithful'⟩ := (ih hfaithful).reading
      dsimp only
      rw [hgot', hledger]
      rw [hledger] at hledger'
      cases engine.ledger.parseAll rest with
      | error err => exact ⟨rfl, hledger', hfaithful'⟩
      | ok es => exact ⟨rfl, hledger', hfaithful'⟩

theorem agrees_combine {engine : Engine} (h : engine.cache.Faithful) (texts : List String) :
    Agrees (engine.combine texts) (engine.ledger.combine texts, engine.ledger) := by
  obtain ⟨next, hgot, hledger, hfaithful⟩ := (agrees_parseAll h texts).reading
  unfold Engine.combine Ledger.combine
  rw [hgot]
  cases engine.ledger.parseAll texts with
  | error e => exact ⟨rfl, hledger, hfaithful⟩
  | ok es =>
    dsimp only
    cases Expr.combine es with
    | error e => exact ⟨rfl, hledger, hfaithful⟩
    | ok e => exact ⟨rfl, hledger, hfaithful⟩

theorem agrees_evaluateText {engine : Engine} (h : engine.cache.Faithful) (text : String)
    (record : Record) :
    Agrees (engine.evaluateText text record)
      (engine.ledger.evaluateText text record, engine.ledger) := by
  obtain ⟨next, hgot, hledger, hfaithful⟩ := (agrees_parse h text).reading
  unfold Engine.evaluateText Ledger.evaluateText
  rw [hgot]
  cases engine.ledger.parse text with
  | error e => exact ⟨rfl, hledger, hfaithful⟩
  | ok e =>
    dsimp only
    cases e.evaluate record with
    | error err => exact ⟨rfl, hledger, hfaithful⟩
    | ok verdict => exact ⟨rfl, hledger, hfaithful⟩

/-! ### Stored rules -/

theorem agrees_insert {engine : Engine} (h : engine.cache.Faithful) (name text : String)
    (e : Expr) : Agrees (engine.insert name text e) (engine.ledger.insert name text e) :=
  ⟨rfl, rfl, h⟩

theorem agrees_createRule {engine : Engine} (h : engine.cache.Faithful) (name text : String) :
    Agrees (engine.createRule name text) (engine.ledger.createRule name text) := by
  obtain ⟨next, hgot, hledger, hfaithful⟩ := (agrees_parse h text).reading
  unfold Engine.createRule Ledger.createRule
  rw [hgot]
  cases engine.ledger.parse text with
  | error e => exact ⟨rfl, hledger, hfaithful⟩
  | ok e =>
    rw [← hledger]
    exact (agrees_insert hfaithful name text e).map _

theorem agrees_deleteRule {engine : Engine} (h : engine.cache.Faithful) (id : Nat) :
    Agrees (engine.deleteRule id) (engine.ledger.deleteRule id) := by
  have hcatalogue : engine.ledger.catalogue = engine.catalogue := rfl
  unfold Engine.deleteRule Ledger.deleteRule
  rw [hcatalogue]
  generalize engine.catalogue.erase id = got
  obtain ⟨result, catalogue⟩ := got
  cases result with
  | error e => exact ⟨rfl, rfl, h⟩
  | ok _ => exact ⟨rfl, rfl, h⟩

theorem agrees_combineStored {engine : Engine} (h : engine.cache.Faithful) (ids : List Nat) :
    Agrees (engine.combineStored ids) (engine.ledger.combineStored ids, engine.ledger) := by
  have hcatalogue : engine.ledger.catalogue = engine.catalogue := rfl
  unfold Engine.combineStored Ledger.combineStored
  rw [hcatalogue]
  cases engine.catalogue.getMany ids with
  | error e => exact ⟨rfl, rfl, h⟩
  | ok rules => exact agrees_combine h (rules.map (·.text))

theorem agrees_previewCombined {engine : Engine} (h : engine.cache.Faithful) (ids : List Nat) :
    Agrees (engine.previewCombined ids)
      (engine.ledger.previewCombined ids, engine.ledger) := by
  obtain ⟨next, hgot, hledger, hfaithful⟩ := (agrees_combineStored h ids).reading
  unfold Engine.previewCombined Ledger.previewCombined
  rw [hgot]
  cases engine.ledger.combineStored ids with
  | error e => exact ⟨rfl, hledger, hfaithful⟩
  | ok e => exact ⟨rfl, hledger, hfaithful⟩

theorem agrees_combineRules {engine : Engine} (h : engine.cache.Faithful) (ids : List Nat)
    (name : String) :
    Agrees (engine.combineRules ids name) (engine.ledger.combineRules ids name) := by
  obtain ⟨next, hgot, hledger, hfaithful⟩ := (agrees_combineStored h ids).reading
  unfold Engine.combineRules Ledger.combineRules
  rw [hgot]
  cases engine.ledger.combineStored ids with
  | error e => exact ⟨rfl, hledger, hfaithful⟩
  | ok e =>
    have hcheck : next.ledger.checkLength e.render = next.settings.checkLength e.render := rfl
    dsimp only
    rw [← hledger, hcheck]
    cases next.settings.checkLength e.render with
    | error err => exact ⟨rfl, rfl, hfaithful⟩
    | ok _ => exact (agrees_insert hfaithful name e.render e).map _

/-! ### Operations and runs -/

/-- **Engine and ledger answer alike**, and the cache stays faithful. -/
theorem agrees_perform {engine : Engine} (h : engine.cache.Faithful) (command : Command) :
    Agrees (engine.perform command) (engine.ledger.perform command) := by
  cases command with
  | parse text => exact (agrees_parse h text).map _
  | combine texts => exact (agrees_combine h texts).map _
  | create name text => exact (agrees_createRule h name text).map _
  | get ruleId => exact ⟨rfl, rfl, h⟩
  | list => exact ⟨rfl, rfl, h⟩
  | delete ruleId => exact (agrees_deleteRule h ruleId).map _
  | evaluate ruleId record => exact ⟨rfl, rfl, h⟩
  | evaluateText text record => exact (agrees_evaluateText h text record).map _
  | preview ids => exact (agrees_previewCombined h ids).map _
  | combineRules ids name => exact (agrees_combineRules h ids name).map _
  | insert name text e => exact (agrees_insert h name text e).map _

/-- A run of an engine gives the answers of its ledger and ends with the ledger's rules. -/
theorem agrees_run {engine : Engine} (h : engine.cache.Faithful) (commands : List Command) :
    Agrees (engine.run commands) (engine.ledger.run commands) := by
  induction commands generalizing engine with
  | nil => exact ⟨rfl, rfl, h⟩
  | cons command rest ih =>
    obtain ⟨hanswer, hledger, hfaithful⟩ := agrees_perform h command
    have hrest := ih hfaithful
    rw [hledger] at hrest
    refine ⟨?_, hrest.ledger, hrest.faithful⟩
    show (engine.perform command).1 :: ((engine.perform command).2.run rest).1 = _
    rw [hanswer, hrest.answer]
    rfl

/-- A run of a fresh engine is a run of an empty ledger. -/
theorem agrees_run_new (settings : Settings) (commands : List Command) :
    Agrees ((Engine.new settings).run commands)
      (Ledger.run ⟨settings.maxRuleLength.toNat, .empty⟩ commands) :=
  agrees_run (ParseCache.faithful_empty _) commands

end Engine

end BusinessRules
