import BusinessRules.Cache
import BusinessRules.Store.Catalogue

/-!
# The engine

Model of `RuleEngine`: settings, stored rules and a parse cache in one state. Every operation
returns its result and the state afterwards. Operations are taken one at a time; the locks that
order concurrent ones are left out.

* `Engine` — the state;
* `Engine.parse`, `Engine.combine` — expressions of texts, within the length limit and through the
  cache;
* `Engine.createRule`, `Engine.deleteRule`, `Engine.combineRules` — changes of the stored rules;
* `Engine.evaluateRule`, `Engine.evaluateText` — truth values;
* `Engine.previewCombined` — the text that a combination would have;
* `Command`, `Answer`, `Engine.perform`, `Engine.run` — the operations as data, one and many.
-/

namespace BusinessRules

/-- The state of an engine (`RuleEngine`). -/
structure Engine where
  settings : Settings
  catalogue : Catalogue
  cache : ParseCache

namespace Engine

def new (settings : Settings) : Engine :=
  ⟨settings, .empty, .empty settings.cacheCapacity.toNat⟩

/-! ## Texts -/

/-- The expression of a text that keeps the length limit, through the cache (`RuleEngine.parse`). -/
def parse (engine : Engine) (text : String) : Except Error Expr × Engine :=
  match engine.settings.checkLength text with
  | .error e => (.error (.parse e), engine)
  | .ok _ =>
    match engine.cache.parse text with
    | (.error e, cache) => (.error (.parse e), { engine with cache := cache })
    | (.ok e, cache) => (.ok e, { engine with cache := cache })

/-- The expressions of texts; the first text without one ends the reading. -/
def parseAll (engine : Engine) : List String → Except Error (List Expr) × Engine
  | [] => (.ok [], engine)
  | text :: rest =>
    match engine.parse text with
    | (.error e, engine) => (.error e, engine)
    | (.ok e, engine) =>
      match engine.parseAll rest with
      | (.error err, engine) => (.error err, engine)
      | (.ok es, engine) => (.ok (e :: es), engine)

/-- The combination of texts (`RuleEngine.combine`). -/
def combine (engine : Engine) (texts : List String) : Except Error Expr × Engine :=
  match engine.parseAll texts with
  | (.error e, engine) => (.error e, engine)
  | (.ok es, engine) =>
    match Expr.combine es with
    | .error e => (.error (.ofCombine e), engine)
    | .ok e => (.ok e, engine)

/-- The truth value of a text on a record (`evaluate_text`). -/
def evaluateText (engine : Engine) (text : String) (record : Record) :
    Except Error Bool × Engine :=
  match engine.parse text with
  | (.error e, engine) => (.error e, engine)
  | (.ok e, engine) =>
    match e.evaluate record with
    | .error err => (.error (.evaluation err), engine)
    | .ok verdict => (.ok verdict, engine)

/-! ## Stored rules -/

/-- Stores an expression under a text that need not be its own, and returns its id. -/
def insert (engine : Engine) (name text : String) (e : Expr) : Nat × Engine :=
  let (id, catalogue) := engine.catalogue.insert name text e
  (id, { engine with catalogue := catalogue })

/-- Parses a text and stores it as a rule (`create_rule`); the id is returned. -/
def createRule (engine : Engine) (name text : String) : Except Error Nat × Engine :=
  match engine.parse text with
  | (.error e, engine) => (.error e, engine)
  | (.ok e, engine) =>
    let (id, engine) := engine.insert name text e
    (.ok id, engine)

/-- The rule of an id (`get_rule`). -/
def getRule (engine : Engine) (id : Nat) : Except Error StoredRule := engine.catalogue.get id

/-- All rules in the order of their ids (`list_rules`). -/
def listRules (engine : Engine) : List StoredRule := engine.catalogue.rules

/-- Removes the rule of an id (`delete_rule`). -/
def deleteRule (engine : Engine) (id : Nat) : Except Error Unit × Engine :=
  match engine.catalogue.erase id with
  | (.error e, catalogue) => (.error e, { engine with catalogue := catalogue })
  | (.ok _, catalogue) => (.ok (), { engine with catalogue := catalogue })

/-- The truth value of the rule of an id on a record, by its stored expression (`evaluate_rule`). -/
def evaluateRule (engine : Engine) (id : Nat) (record : Record) : Except Error Bool :=
  match engine.getRule id with
  | .error e => .error e
  | .ok r => evaluateStored r.ast record

/-! ## Combinations of stored rules -/

/-- The combination of the texts of stored rules, in the order of the ids (`combine_stored`). -/
def combineStored (engine : Engine) (ids : List Nat) : Except Error Expr × Engine :=
  match engine.catalogue.getMany ids with
  | .error e => (.error e, engine)
  | .ok rules => engine.combine (rules.map (·.text))

/-- The text of the combination of stored rules (`preview_combined`). -/
def previewCombined (engine : Engine) (ids : List Nat) : Except Error String × Engine :=
  match engine.combineStored ids with
  | (.error e, engine) => (.error e, engine)
  | (.ok e, engine) => (.ok e.render, engine)

/-- Stores the combination of stored rules as a new rule, whose id is returned (`combine_rules`).
Its text must itself keep the length limit, so that the rule can be combined again. -/
def combineRules (engine : Engine) (ids : List Nat) (name : String) : Except Error Nat × Engine :=
  match engine.combineStored ids with
  | (.error e, engine) => (.error e, engine)
  | (.ok e, engine) =>
    match engine.settings.checkLength e.render with
    | .error err => (.error (.parse err), engine)
    | .ok _ =>
      let (id, engine) := engine.insert name e.render e
      (.ok id, engine)

end Engine

/-! ## Operations as data -/

/-- An operation on an engine. -/
inductive Command where
  | parse (text : String)
  | combine (texts : List String)
  | create (name text : String)
  | get (id : Nat)
  | list
  | delete (id : Nat)
  | evaluate (id : Nat) (record : Record)
  | evaluateText (text : String) (record : Record)
  | preview (ids : List Nat)
  | combineRules (ids : List Nat) (name : String)
  | insert (name text : String) (e : Expr)

/-- The result of an operation that succeeds. -/
inductive Answer where
  | expr (e : Expr)
  | id (id : Nat)
  | rule (r : StoredRule)
  | rules (rs : List StoredRule)
  | text (s : String)
  | verdict (b : Bool)
  | done

namespace Engine

/-- Carries out an operation. -/
def perform (engine : Engine) : Command → Except Error Answer × Engine
  | .parse text => (engine.parse text).map (Except.map .expr) id
  | .combine texts => (engine.combine texts).map (Except.map .expr) id
  | .create name text => (engine.createRule name text).map (Except.map .id) id
  | .get ruleId => ((engine.getRule ruleId).map .rule, engine)
  | .list => (.ok (.rules engine.listRules), engine)
  | .delete ruleId => (engine.deleteRule ruleId).map (Except.map fun _ => .done) id
  | .evaluate ruleId record => ((engine.evaluateRule ruleId record).map .verdict, engine)
  | .evaluateText text record => (engine.evaluateText text record).map (Except.map .verdict) id
  | .preview ids => (engine.previewCombined ids).map (Except.map .text) id
  | .combineRules ids name => (engine.combineRules ids name).map (Except.map .id) id
  | .insert name text e => (engine.insert name text e).map (.ok ∘ .id) id

def run (engine : Engine) : List Command → List (Except Error Answer) × Engine
  | [] => ([], engine)
  | command :: rest =>
    let (answer, next) := engine.perform command
    let (answers, last) := next.run rest
    (answer :: answers, last)

end Engine

end BusinessRules
