import BusinessRules.Evaluation.Basic
import BusinessRules.Expr.Combine
import BusinessRules.Settings
import BusinessRules.Store.Node

/-!
# Errors of the engine

Model of `RuleEngineError` and of the two functions that read a stored value, `Node.from_json` and
`evaluate_json`.

* `Error` — why an operation of the engine fails, with the wording `Error.message`;
* `FirstError` — the error that a list has when its members are asked in order;
* `Expr.ofJson` — the expression that a stored value denotes, within `maxDepth` levels;
* `Expr.ofJsonOfAnyDepth` — the same without the limit, every fault reported as one of decoding.
-/

namespace BusinessRules

/-- Why an operation of the engine fails (`RuleEngineError`). -/
inductive Error where
  | parse (e : ParseError)
  | evaluation (e : EvaluationError)
  /-- a combination of no rules -/
  | noRules
  | ruleNotFound (id : Nat)
  | deserialization (e : DecodeError)
  | configuration (fault : SettingsFault)
  deriving DecidableEq

def Error.message : Error → String
  | .parse e => "Parse error: " ++ e.message
  | .evaluation e => "Evaluation error: " ++ e.message
  | .noRules => "No rules provided"
  | .ruleNotFound id => "Rule not found: " ++ Decimal.ofNat id
  | .deserialization e => "Deserialization error: " ++ e.message
  | .configuration fault => "Invalid configuration: " ++ fault.message

section Outcomes

variable {α β ε ε' : Type} {x : Except ε α}

/-- An error in other words is still an error, and an answer still the same answer. -/
theorem mapError_eq_ok {f : ε → ε'} {a : α} : x.mapError f = .ok a ↔ x = .ok a := by
  cases x with
  | error e => constructor <;> intro h <;> cases h
  | ok b => constructor <;> intro h <;> cases h <;> rfl

theorem mapError_eq_error {f : ε → ε'} {e : ε'} :
    x.mapError f = .error e ↔ ∃ cause, x = .error cause ∧ e = f cause := by
  cases x with
  | error cause =>
    constructor
    · intro h
      cases h
      exact ⟨cause, rfl, rfl⟩
    · rintro ⟨_, h, rfl⟩
      cases h
      rfl
  | ok a =>
    constructor
    · intro h
      cases h
    · rintro ⟨_, h, -⟩
      cases h

theorem map_eq_ok {f : α → β} {b : β} : x.map f = .ok b ↔ ∃ a, x = .ok a ∧ b = f a := by
  cases x with
  | error e => simp [Except.map]
  | ok a => simp [Except.map, eq_comm]

theorem map_eq_error {f : α → β} {e : ε} : x.map f = .error e ↔ x = .error e := by
  cases x with
  | error e => simp [Except.map]
  | ok a => simp [Except.map]

end Outcomes

/-- Asked in order, a list has this error for the first of its members that has one. -/
def FirstError {α β ε : Type} (ask : α → Except ε β) (xs : List α) (e : ε) : Prop :=
  ∃ front x back, xs = front ++ x :: back ∧ (∀ y ∈ front, ∃ b, ask y = .ok b) ∧
    ask x = .error e

section FirstError

variable {α β ε : Type} {ask : α → Except ε β} {x : α} {rest xs ys : List α} {e : ε}

@[simp] theorem not_firstError_nil : ¬ FirstError ask [] e := by
  rintro ⟨front, x, back, hsplit, -⟩
  cases front <;> cases hsplit

theorem firstError_cons :
    FirstError ask (x :: rest) e ↔
      ask x = .error e ∨ (∃ b, ask x = .ok b) ∧ FirstError ask rest e := by
  constructor
  · rintro ⟨front, y, back, hsplit, hfront, hy⟩
    cases front with
    | nil =>
      cases hsplit
      exact .inl hy
    | cons first others =>
      cases hsplit
      obtain ⟨hfirst, hothers⟩ := List.forall_mem_cons.1 hfront
      exact .inr ⟨hfirst, others, y, back, rfl, hothers, hy⟩
  · rintro (hx | ⟨hx, front, y, back, rfl, hfront, hy⟩)
    · exact ⟨[], x, rest, rfl, fun _ h => (nomatch h), hx⟩
    · exact ⟨x :: front, y, back, rfl, List.forall_mem_cons.2 ⟨hx, hfront⟩, hy⟩

theorem forall_or_firstError (ask : α → Except ε β) (xs : List α) :
    (∀ x ∈ xs, ∃ b, ask x = .ok b) ∨ ∃ e, FirstError ask xs e := by
  induction xs with
  | nil => exact .inl fun _ hx => nomatch hx
  | cons x rest ih =>
    cases hx : ask x with
    | error e => exact .inr ⟨e, firstError_cons.2 (.inl hx)⟩
    | ok b =>
      rcases ih with hall | ⟨e, hrest⟩
      · exact .inl (List.forall_mem_cons.2 ⟨⟨b, hx⟩, hall⟩)
      · exact .inr ⟨e, firstError_cons.2 (.inr ⟨⟨b, hx⟩, hrest⟩)⟩

/-- The second of two lists is asked if the first has no error. -/
theorem firstError_append :
    FirstError ask (xs ++ ys) e ↔
      FirstError ask xs e ∨ (∀ x ∈ xs, ∃ b, ask x = .ok b) ∧ FirstError ask ys e := by
  induction xs with
  | nil => simp
  | cons x rest ih =>
    rw [List.cons_append, firstError_cons, ih, firstError_cons, List.forall_mem_cons]
    constructor
    · rintro (hx | ⟨hx, hrest | ⟨hrest, hys⟩⟩)
      · exact .inl (.inl hx)
      · exact .inl (.inr ⟨hx, hrest⟩)
      · exact .inr ⟨⟨hx, hrest⟩, hys⟩
    · rintro ((hx | ⟨hx, hrest⟩) | ⟨⟨hx, hrest⟩, hys⟩)
      · exact .inl hx
      · exact .inr ⟨hx, .inl hrest⟩
      · exact .inr ⟨hx, .inr ⟨hrest, hys⟩⟩

end FirstError

/-- A failed combination as an error of the engine. -/
def Error.ofCombine : CombineError → Error
  | .noRules => .noRules
  | .parse e => .parse e

namespace Expr

/-- The expression that a value denotes (`Node.from_json`). A value that nests deeper than
`maxDepth` levels is refused before anything else is looked at; after that a wrong shape is an error
of decoding, and a shape without meaning an error of evaluation. -/
def ofJson (value : Json) : Except Error Expr :=
  if maxDepth < value.nesting then .error (.evaluation .tooDeep)
  else
    match decode value with
    | .error (.shape fault) => .error (.deserialization (.shape fault))
    | .error (.meaning e) => .error (.evaluation e)
    | .ok e => .ok e

/-- The expression that a value of any depth denotes; every fault is one of decoding. -/
def ofJsonOfAnyDepth (value : Json) : Except Error Expr :=
  match decode value with
  | .error e => .error (.deserialization e)
  | .ok e => .ok e

end Expr

/-- The truth value of a stored expression on a record (`evaluate_json`). -/
def evaluateStored (value : Json) (record : Record) : Except Error Bool :=
  match Expr.ofJson value with
  | .error e => .error e
  | .ok e =>
    match e.evaluate record with
    | .error e => .error (.evaluation e)
    | .ok verdict => .ok verdict

end BusinessRules
