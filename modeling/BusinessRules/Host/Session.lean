import BusinessRules.Engine
import BusinessRules.Host.Value

/-!
# Host sessions

A program that embeds the engine works with one shared engine, which it initializes first and may
initialize again, and with a few calls that need none. Model of `init_engine`,
`is_engine_initialized`, `create_rule`, `list_rules`, `get_rule`, `delete_rule`, `evaluate_rule`,
`evaluate_rule_async`, `combine_rules` and `preview_combined_rules`, and of `parse_rule`,
`evaluate_ast`, `combine` and `ast_to_string`, one call for each.

* `HostError` — why a call fails, with `HostError.category` and `HostError.message`;
* `Session` — the shared engine, if it has been initialized;
* `Call`, `Session.perform`, `Session.run` — the calls as data, one and many.

Records are converted before expressions are. A call that fails leaves the session as it is, apart
from the parse cache.
-/

namespace BusinessRules

/-- Why a call fails. -/
inductive HostError where
  /-- an argument has no JSON form -/
  | conversion (e : ConversionError)
  /-- data that is no dictionary -/
  | notRecord
  /-- no engine yet -/
  | uninitialized
  | engine (e : Error)
  deriving DecidableEq

namespace HostError

/-- The categories of errors that a host tells apart. -/
inductive Category where
  | value
  | type
  | key
  | runtime
  deriving DecidableEq, Repr

/-- The category of an error. A missing rule is a missing key. -/
def category : HostError → Category
  | .conversion (.keyType _) => .type
  | .conversion (.valueType _) => .type
  | .conversion _ => .value
  | .notRecord => .type
  | .uninitialized => .runtime
  | .engine (.ruleNotFound _) => .key
  | .engine _ => .value

def message : HostError → String
  | .conversion e => e.message
  | .notRecord => "data must be a dict"
  | .uninitialized => "Engine not initialized. Call init_engine() first."
  | .engine e => e.message

end HostError

/-- The shared engine of a host, if it has been initialized. -/
structure Session where
  engine : Option Engine

/-- A call of a host. -/
inductive Call where
  | parseRule (text : String)
  | evaluateAst (ast data : HostValue)
  | combine (texts : List String)
  | astToString (ast : HostValue)
  | initEngine (config : Option (List (HostKey × HostValue)))
  | isEngineInitialized
  | createRule (name text : String)
  | listRules
  | getRule (id : Nat)
  | deleteRule (id : Nat)
  | evaluateRule (id : Nat) (data : HostValue)
  | evaluateRuleAsync (id : Nat) (data : HostValue)
  | combineRules (ids : List Nat) (name : String)
  | previewCombinedRules (ids : List Nat)

namespace Session

/-- A session in which no engine has been initialized. -/
def fresh : Session := ⟨none⟩

/-- The settings in force (`current_config`): those of the shared engine, or the defaults without
one. -/
def settings (s : Session) : Settings :=
  match s.engine with
  | none => {}
  | some engine => engine.settings

/-! ## Conversions -/

/-- The JSON form of an argument. -/
def convert (v : HostValue) : Except HostError Json := v.toJson.mapError .conversion

/-- The record that an argument holds: it must be a dictionary. -/
def recordOf (data : HostValue) : Except HostError Record :=
  match convert data with
  | .error e => .error e
  | .ok value =>
    match Record.ofJson? value with
    | none => .error .notRecord
    | some record => .ok record

/-- The expression that an argument holds. -/
def exprOf (ast : HostValue) : Except HostError Expr :=
  match convert ast with
  | .error e => .error e
  | .ok value => (Expr.ofJson value).mapError .engine

/-! ## Calls that need no engine -/

/-- The expression of a text that keeps the length limit in force (`parse_rule`). -/
def parseRule (s : Session) (text : String) : Except HostError Expr :=
  match s.settings.checkLength text with
  | .error e => .error (.engine (.parse e))
  | .ok _ => (Expr.parse text).mapError fun e => .engine (.parse e)

/-- Checks the lengths of texts; the first that is too long decides. -/
def checkLengths (settings : Settings) : List String → Except ParseError Unit
  | [] => .ok ()
  | text :: rest =>
    match settings.checkLength text with
    | .error e => .error e
    | .ok _ => checkLengths settings rest

/-- The combination of texts. All lengths are checked before any text is parsed. -/
def combine (s : Session) (texts : List String) : Except HostError Expr :=
  match checkLengths s.settings texts with
  | .error e => .error (.engine (.parse e))
  | .ok _ => (Expr.combineTexts texts).mapError fun e => .engine (.ofCombine e)

/-- The truth value of an expression on data (`evaluate_ast`). The data is converted first. -/
def evaluateAst (ast data : HostValue) : Except HostError Bool :=
  match recordOf data with
  | .error e => .error e
  | .ok record =>
    match convert ast with
    | .error e => .error e
    | .ok value => (evaluateStored value record).mapError .engine

/-- The settings that the entries of a dictionary give, or the defaults without one. The dictionary
is written as JSON text first and read as settings from there. -/
def settingsOf : Option (List (HostKey × HostValue)) → Except HostError Settings
  | none => .ok {}
  | some entries =>
    match convert (.dict entries) with
    | .error e => .error e
    | .ok value =>
      (Settings.ofText value.print).mapError fun fault => .engine (.configuration fault)

/-- Replaces the shared engine by one without rules (`init_engine`). If no settings can be read from
the argument the engine stays as it is. -/
def initEngine (s : Session) (config : Option (List (HostKey × HostValue))) :
    Except HostError Unit × Session :=
  match settingsOf config with
  | .error e => (.error e, s)
  | .ok settings => (.ok (), ⟨some (.new settings)⟩)

/-! ## Calls on the shared engine -/

/-- Carries out an operation on the shared engine. -/
def onEngine {α : Type} (s : Session) (operation : Engine → Except Error α × Engine) :
    Except HostError α × Session :=
  match s.engine with
  | none => (.error .uninitialized, s)
  | some engine =>
    let (result, next) := operation engine
    (result.mapError .engine, ⟨some next⟩)

/-- Asks the shared engine. -/
def ask {α : Type} (s : Session) (question : Engine → Except Error α) : Except HostError α :=
  match s.engine with
  | none => .error .uninitialized
  | some engine => (question engine).mapError .engine

/-- The truth value of a stored rule on data (`evaluate_rule`). The data is converted before the
engine is looked for. -/
def evaluateRule (s : Session) (id : Nat) (data : HostValue) : Except HostError Bool :=
  match recordOf data with
  | .error e => .error e
  | .ok record => s.ask fun engine => engine.evaluateRule id record

/-- The truth value of a stored rule on data, as its awaited result (`evaluate_rule_async`). The
engine is looked for before the data is converted. -/
def evaluateRuleAsync (s : Session) (id : Nat) (data : HostValue) : Except HostError Bool :=
  match s.engine with
  | none => .error .uninitialized
  | some engine =>
    match recordOf data with
    | .error e => .error e
    | .ok record => (engine.evaluateRule id record).mapError .engine

/-! ## Calls as data -/

def exprValue (e : Expr) : HostValue := .ofJson e.toJson

/-- A stored rule as a dictionary. The two timestamps, which are readings of a clock, are left out. -/
def ruleValue (r : StoredRule) : HostValue :=
  .dict [(.text "id", .integer r.id), (.text "name", .text r.name),
    (.text "rule_string", .text r.text), (.text "ast_json", .ofJson r.ast)]

def idValue (id : Nat) : HostValue := .integer id

/-- Carries out a call. -/
def perform (s : Session) : Call → Except HostError HostValue × Session
  | .parseRule text => ((s.parseRule text).map exprValue, s)
  | .evaluateAst ast data => ((evaluateAst ast data).map .bool, s)
  | .combine texts => ((s.combine texts).map exprValue, s)
  | .astToString ast => ((exprOf ast).map fun e => .text e.render, s)
  | .initEngine config => (s.initEngine config).map (Except.map fun _ => .null) id
  | .isEngineInitialized => (.ok (.bool s.engine.isSome), s)
  | .createRule name text =>
    (s.onEngine (·.createRule name text)).map (Except.map idValue) id
  | .listRules =>
    ((s.ask (fun engine => .ok engine.listRules)).map fun rules =>
      .sequence (rules.map ruleValue), s)
  | .getRule ruleId => ((s.ask (·.getRule ruleId)).map ruleValue, s)
  | .deleteRule ruleId => (s.onEngine (·.deleteRule ruleId)).map (Except.map fun _ => .null) id
  | .evaluateRule ruleId data => ((s.evaluateRule ruleId data).map .bool, s)
  | .evaluateRuleAsync ruleId data => ((s.evaluateRuleAsync ruleId data).map .bool, s)
  | .combineRules ids name => (s.onEngine (·.combineRules ids name)).map (Except.map idValue) id
  | .previewCombinedRules ids =>
    (s.onEngine (·.previewCombined ids)).map (Except.map .text) id

def run (s : Session) : List Call → List (Except HostError HostValue) × Session
  | [] => ([], s)
  | call :: rest =>
    let (result, next) := s.perform call
    let (results, last) := next.run rest
    (result :: results, last)

end Session

end BusinessRules
