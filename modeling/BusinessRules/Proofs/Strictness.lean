import BusinessRules.Error
import BusinessRules.Proofs.ConditionText
import BusinessRules.Proofs.RoundTrip

/-!
# Strict evaluation

An expression has a truth value on a record exactly if each of its comparisons has one; otherwise it
has the error of the leftmost comparison without, even where the others decide. A comparison of rule
text lacks a truth value for two reasons only: its field is absent, or an order is asked for between
sides that have none.

* `Expr.truth` — the truth value of an expression whose comparisons have given ones;
* `Comparable` — a value and a literal that have an order;
* `Unanswerable` — why a comparison of rule text has no truth value;
* `Expr.FirstUnanswerable` — the error of the leftmost comparison without one.

Principal results: `Expr.evaluate_eq_ok_iff` and `Expr.evaluate_eq_error_iff` (any expression),
`evaluateCondition_eq_error_iff` (one comparison) and `Expr.evaluate_of_parse`.
-/

namespace BusinessRules

open BusinessRules.Parser (comparisonText)

/-! ## Expressions -/

namespace Expr

/-- The truth value of an expression whose comparisons have the given ones: `AND` is conjunction and
`OR` disjunction. -/
def truth (holds : String → Bool) : Expr → Bool
  | .leaf condition => holds condition
  | .join .and left right => left.truth holds && right.truth holds
  | .join .or left right => left.truth holds || right.truth holds

/-- Evaluation joins truth values as conjunction and disjunction do. -/
theorem truth_join (holds : String → Bool) (op : Connective) (left right : Expr) :
    (join op left right).truth holds = op.apply (left.truth holds) (right.truth holds) := by
  cases op <;> rfl

/-- Comparisons that have truth values have them by their texts. -/
theorem evaluate_of_forall {record : Record} {holds : String → Bool} {e : Expr}
    (h : ∀ condition ∈ e.conditions, evaluateCondition record condition = .ok (holds condition)) :
    e.evaluate record = .ok (e.truth holds) := by
  induction e with
  | leaf condition => exact h condition (List.mem_singleton_self _)
  | join op left right ihl ihr =>
    obtain ⟨hleft, hright⟩ := List.forall_mem_append.1 h
    rw [evaluate, ihl hleft, ihr hright, truth_join]

section Joins

variable {record : Record} {op : Connective} {left right : Expr}

theorem exists_evaluate_join_eq_ok :
    (∃ b, (join op left right).evaluate record = .ok b) ↔
      (∃ x, left.evaluate record = .ok x) ∧ ∃ y, right.evaluate record = .ok y := by
  rw [evaluate]
  cases left.evaluate record with
  | error e => simp
  | ok x => cases right.evaluate record <;> simp

theorem evaluate_join_eq_error {err : EvaluationError} :
    (join op left right).evaluate record = .error err ↔
      left.evaluate record = .error err ∨
        (∃ x, left.evaluate record = .ok x) ∧ right.evaluate record = .error err := by
  rw [evaluate]
  cases left.evaluate record with
  | error e => simp
  | ok x => cases right.evaluate record <;> simp

end Joins

theorem exists_evaluate_eq_ok {record : Record} {e : Expr} :
    (∃ b, e.evaluate record = .ok b) ↔
      ∀ condition ∈ e.conditions, ∃ b, evaluateCondition record condition = .ok b := by
  induction e with
  | leaf condition => simp [conditions, evaluate]
  | join op left right ihl ihr =>
    rw [exists_evaluate_join_eq_ok, ihl, ihr, conditions, List.forall_mem_append]

/-- **An expression has a truth value exactly if all its comparisons have.** -/
theorem evaluate_eq_ok_iff {record : Record} {e : Expr} {b : Bool} :
    e.evaluate record = .ok b ↔
      ∃ holds : String → Bool, (∀ condition ∈ e.conditions,
        evaluateCondition record condition = .ok (holds condition)) ∧ b = e.truth holds := by
  constructor
  · intro h
    let holds : String → Bool := fun condition =>
      (evaluateCondition record condition).toOption.getD false
    have hall : ∀ condition ∈ e.conditions,
        evaluateCondition record condition = .ok (holds condition) := by
      intro condition hc
      obtain ⟨x, hx⟩ := exists_evaluate_eq_ok.1 ⟨b, h⟩ condition hc
      simp [holds, hx, Except.toOption]
    rw [evaluate_of_forall hall] at h
    cases h
    exact ⟨holds, hall, rfl⟩
  · rintro ⟨holds, hall, rfl⟩
    exact evaluate_of_forall hall

/-- **The leftmost comparison without a truth value decides**, whatever the others say. -/
theorem evaluate_eq_error_iff {record : Record} {e : Expr} {err : EvaluationError} :
    e.evaluate record = .error err ↔ FirstError (evaluateCondition record) e.conditions err := by
  induction e with
  | leaf condition => simp [conditions, evaluate, firstError_cons]
  | join op left right ihl ihr =>
    rw [evaluate_join_eq_error, ihl, ihr, exists_evaluate_eq_ok, conditions, firstError_append]

end Expr

/-! ## Comparisons -/

/-- A value and a literal that have an order: a number and an integer, or a string and a text. -/
def Comparable : Json → Literal → Prop
  | .number _, .integer _ => True
  | .string _, .text _ => True
  | _, _ => False

theorem relation?_eq_none_iff {actual : Json} {expected : Literal} :
    relation? actual expected = none ↔ ¬ Comparable actual expected := by
  cases actual <;> cases expected <;> simp [relation?, Comparable]

/-- Only an order can be asked for in vain. -/
theorem evaluateComparison_eq_error_iff {field : String} {comparator : Comparator} {actual : Json}
    {expected : Literal} {e : EvaluationError} :
    evaluateComparison field comparator actual expected = .error e ↔
      comparator.isOrdering = true ∧ ¬ Comparable actual expected ∧
        e = .incompatibleTypes field comparator actual.kind expected.kind := by
  rw [← relation?_eq_none_iff]
  unfold evaluateComparison
  cases relation? actual expected with
  | some o => simp
  | none => cases comparator <;> simp [Comparator.isOrdering, eq_comm]

/-- Why a comparison of rule text has no truth value on a record. -/
inductive Unanswerable (record : Record) (field : String) (comparator : Comparator)
    (literal : Literal) : EvaluationError → Prop where
  | absent (no_field : record.field? field = none) :
      Unanswerable record field comparator literal (.fieldNotFound field)
  | unordered {actual : Json} (present : record.field? field = some actual)
      (ordering : comparator.isOrdering = true) (incomparable : ¬ Comparable actual literal) :
      Unanswerable record field comparator literal
        (.incompatibleTypes field comparator actual.kind literal.kind)

/-- **A comparison of two words has a truth value unless it is unanswerable.** -/
theorem evaluateCondition_eq_error_iff {record : Record} {field value : String}
    (hf : IsWord field) (hv : IsWord value) {comparator : Comparator} {e : EvaluationError} :
    evaluateCondition record (comparisonText field comparator value) = .error e ↔
      Unanswerable record field comparator (.ofRaw value) e := by
  have hsplit := Condition.split?_of_scan (scan_comparisonText hf hv comparator)
  have hsymbol : Comparator.ofSymbol? comparator.symbol = some comparator :=
    Comparator.ofSymbol?_eq_some.2 rfl
  cases hfield : record.field? field with
  | none =>
    simp only [evaluateCondition, hsplit, hfield, Except.error.injEq]
    constructor
    · rintro rfl
      exact .absent hfield
    · intro h
      cases h with
      | absent => rfl
      | unordered present => rw [hfield] at present; cases present
  | some actual =>
    simp only [evaluateCondition, hsplit, hfield, hsymbol, evaluateComparison_eq_error_iff]
    constructor
    · rintro ⟨hordering, hincomparable, rfl⟩
      exact .unordered hfield hordering hincomparable
    · intro h
      cases h with
      | absent no_field => rw [hfield] at no_field; cases no_field
      | unordered present ordering incomparable =>
        rw [hfield] at present
        cases present
        exact ⟨ordering, incomparable, rfl⟩

namespace Expr

/-! ## Parsed expressions -/

/-- The error of the leftmost comparison without a truth value on a record, where every comparison
is one of words. -/
def FirstUnanswerable (e : Expr) (record : Record) (err : EvaluationError) : Prop :=
  ∃ front field comparator value back,
    e.conditions = front ++ comparisonText field comparator value :: back ∧
      IsWord field ∧ IsWord value ∧
      (∀ condition ∈ front, ∃ b, evaluateCondition record condition = .ok b) ∧
      Unanswerable record field comparator (.ofRaw value) err

theorem evaluate_eq_error_iff_of_canonical {e : Expr}
    (h : ∀ condition ∈ e.conditions, Canonical condition) {record : Record}
    {err : EvaluationError} :
    e.evaluate record = .error err ↔ e.FirstUnanswerable record err := by
  rw [evaluate_eq_error_iff]
  constructor
  · rintro ⟨front, condition, back, hsplit, hfront, hcondition⟩
    have hmem : condition ∈ e.conditions := by simp [hsplit]
    obtain ⟨field, comparator, value, hf, hv, rfl⟩ := h condition hmem
    exact ⟨front, field, comparator, value, back, hsplit, hf, hv, hfront,
      (evaluateCondition_eq_error_iff hf hv).1 hcondition⟩
  · rintro ⟨front, field, comparator, value, back, hsplit, hf, hv, hfront, hunanswerable⟩
    exact ⟨front, _, back, hsplit, hfront,
      (evaluateCondition_eq_error_iff hf hv).2 hunanswerable⟩

/-- **Evaluation of a parsed expression is strict and fails in two ways only.** On every record it
has a truth value exactly if each of its comparisons has one, and then the one that these give;
otherwise it has the error of the leftmost comparison without. That comparison names a field that
the record lacks, or asks for the order between a value and a literal that have none. A malformed
condition and an unknown comparator are never reported. -/
theorem evaluate_of_parse {text : String} {e : Expr} (h : parse text = .ok e) (record : Record) :
    (∀ b, e.evaluate record = .ok b ↔
        ∃ holds : String → Bool, (∀ condition ∈ e.conditions,
          evaluateCondition record condition = .ok (holds condition)) ∧ b = e.truth holds) ∧
      (∀ err, e.evaluate record = .error err ↔ e.FirstUnanswerable record err) ∧
      ∀ err, e.evaluate record = .error err →
        (∀ condition, err ≠ .malformedCondition condition) ∧
          ∀ symbol, err ≠ .unsupportedComparator symbol := by
  have herror : ∀ err, e.evaluate record = .error err ↔ e.FirstUnanswerable record err :=
    fun err => evaluate_eq_error_iff_of_canonical fun _ hc => canonical_of_parse h hc
  refine ⟨fun b => evaluate_eq_ok_iff, herror, fun err herr => ?_⟩
  obtain ⟨_, _, _, _, _, -, -, -, -, hunanswerable⟩ := (herror err).1 herr
  cases hunanswerable with
  | absent | unordered => exact ⟨fun _ => nofun, fun _ => nofun⟩

theorem evaluate_of_parse_undecided :
    let e : Expr := .join .or (.leaf "a > 1") (.leaf "b < x")
    let five : Json := .number (.integer ⟨5, by decide, by decide⟩)
    let record : Record := ⟨[("a", five), ("b", five)]⟩
    parse "a > 1 OR (b <\t\u3000x)" = .ok e ∧
      evaluateCondition record "a > 1" = .ok true ∧
      e.evaluate record = .error (.incompatibleTypes "b" .less .number .string) := by
  intro e five record
  have hparse : parse "a > 1 OR (b <\t\u3000x)" = .ok e := by rfl
  have hleft : evaluateCondition record "a > 1" = .ok true := by rfl
  have hliteral : Literal.ofRaw "x" = .text "x" := by decide +kernel
  have hpresent : record.field? "b" = some five := by rfl
  have hright : Unanswerable record "b" .less (.ofRaw "x")
      (.incompatibleTypes "b" .less five.kind (Literal.ofRaw "x").kind) :=
    .unordered hpresent rfl (by simp [hliteral, five, Comparable])
  refine ⟨hparse, hleft, ((evaluate_of_parse hparse record).2.1 _).2 ?_⟩
  exact ⟨["a > 1"], "b", .less, "x", [], rfl, by decide, by decide,
    List.forall_mem_singleton.2 ⟨true, hleft⟩, hright⟩

end Expr

end BusinessRules
