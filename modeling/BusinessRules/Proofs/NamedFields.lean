import BusinessRules.Proofs.ConditionWords
import BusinessRules.Proofs.Strictness

/-!
# The fields that an expression names

A condition names one field, its first word, and an expression those of its conditions. Nothing
else of a record is read: not when the expression has a truth value, and not when it has none.

* `Condition.name?` — the field that a condition names;
* `Expr.names` — the fields that an expression names;
* `Record.AgreesOn` — records in which fields are present alike and have the same values.

Principal results: `evaluateCondition_congr` and `evaluateCondition_eq_fieldNotFound` (one
condition), `Expr.evaluate_congr` and `Expr.mem_names_of_fieldNotFound` (an expression) and
`Expr.evaluate_reads_names`.
-/

namespace BusinessRules

open Text

/-! ## One condition -/

/-- The field that a condition names: its first word, whether or not the rest is well formed. -/
def Condition.name? (text : String) : Option String :=
  (words text.toList).head?.map String.ofList

theorem Condition.Spaced.name?_eq {c : Condition} {text : String} (h : c.Spaced text) :
    Condition.name? text = some c.field := by
  rw [Condition.name?, h.words_eq, List.head?_cons, Option.map_some, String.ofList_toList]

/-- Two records agree on names: a field of such a name is absent from both, or present in both with
one value. -/
def Record.AgreesOn (names : List String) (r s : Record) : Prop :=
  ∀ name ∈ names, r.field? name = s.field? name

/-- Parts of a condition have the same truth value where their field has the same value. -/
theorem Condition.evaluate_congr {c : Condition} {r s : Record}
    (h : r.field? c.field = s.field? c.field) : c.evaluate r = c.evaluate s := by
  unfold Condition.evaluate
  rw [h]

/-- **A condition reads the field that it names and no other.** -/
theorem evaluateCondition_congr {text : String} {r s : Record}
    (h : r.AgreesOn (Condition.name? text).toList s) :
    evaluateCondition r text = evaluateCondition s text := by
  rcases few_words_or_spaced text with hfew | ⟨c, hspaced⟩
  · rw [evaluateCondition_of_few_words hfew, evaluateCondition_of_few_words hfew]
  · rw [evaluateCondition_of_spaced hspaced, evaluateCondition_of_spaced hspaced]
    apply Condition.evaluate_congr
    apply h
    simp [hspaced.name?_eq]

theorem Condition.evaluate_eq_fieldNotFound_iff {c : Condition} {record : Record} {name : String} :
    c.evaluate record = .error (.fieldNotFound name) ↔
      record.field? c.field = none ∧ name = c.field := by
  unfold Condition.evaluate
  cases hfield : record.field? c.field with
  | none => simp [eq_comm]
  | some actual =>
    cases hsymbol : Comparator.ofSymbol? c.symbol with
    | none => simp
    | some comparator => simp [evaluateComparison_eq_error_iff]

/-- **A field is reported missing only if it is named and absent.** -/
theorem evaluateCondition_eq_fieldNotFound {record : Record} {text name : String}
    (h : evaluateCondition record text = .error (.fieldNotFound name)) :
    Condition.name? text = some name ∧ record.field? name = none := by
  rcases few_words_or_spaced text with hfew | ⟨c, hspaced⟩
  · rw [evaluateCondition_of_few_words hfew] at h
    simp at h
  · rw [evaluateCondition_of_spaced hspaced] at h
    obtain ⟨habsent, rfl⟩ := Condition.evaluate_eq_fieldNotFound_iff.1 h
    exact ⟨hspaced.name?_eq, habsent⟩

namespace Expr

/-! ## An expression -/

/-- The fields that the conditions of an expression name, from left to right. -/
def names (e : Expr) : List String := e.conditions.filterMap Condition.name?

theorem mem_names {e : Expr} {name : String} :
    name ∈ e.names ↔ ∃ condition ∈ e.conditions, Condition.name? condition = some name :=
  List.mem_filterMap

theorem names_leaf (condition : String) :
    (leaf condition).names = (Condition.name? condition).toList := by
  cases h : Condition.name? condition <;> simp [names, conditions, h]

theorem names_join (op : Connective) (left right : Expr) :
    (join op left right).names = left.names ++ right.names :=
  List.filterMap_append

/-- **An expression reads the fields that it names and no others.** -/
theorem evaluate_congr {e : Expr} {r s : Record} (h : r.AgreesOn e.names s) :
    e.evaluate r = e.evaluate s := by
  induction e with
  | leaf condition =>
    rw [names_leaf] at h
    exact evaluateCondition_congr h
  | join op left right ihl ihr =>
    rw [names_join] at h
    obtain ⟨hleft, hright⟩ := List.forall_mem_append.1 h
    rw [evaluate, evaluate, ihl hleft, ihr hright]

/-- **A field that an expression reports missing is named by it and absent.** -/
theorem mem_names_of_fieldNotFound {e : Expr} {record : Record} {name : String}
    (h : e.evaluate record = .error (.fieldNotFound name)) :
    name ∈ e.names ∧ record.field? name = none := by
  obtain ⟨front, condition, back, hsplit, -, hcondition⟩ := evaluate_eq_error_iff.1 h
  obtain ⟨hname, habsent⟩ := evaluateCondition_eq_fieldNotFound hcondition
  exact ⟨mem_names.2 ⟨condition, by simp [hsplit], hname⟩, habsent⟩

/-- **Evaluation depends only on the fields that an expression names**, whatever the texts of its
conditions. On records that agree on the first words of its conditions it has the same truth value
or the same error. A field that it reports missing is such a first word and absent from the
record. -/
theorem evaluate_reads_names (e : Expr) :
    (∀ r s : Record, r.AgreesOn e.names s → e.evaluate r = e.evaluate s) ∧
      ∀ (record : Record) (name : String), e.evaluate record = .error (.fieldNotFound name) →
        name ∈ e.names ∧ record.field? name = none :=
  ⟨fun _ _ => evaluate_congr, fun _ _ => mem_names_of_fieldNotFound⟩

/-- Conditions of one word and of an unknown comparator name fields too. -/
theorem evaluate_reads_names_malformed :
    let e : Expr := .join .or (.leaf " a > 1") (.join .and (.leaf "b") (.leaf "c ~ x y"))
    let one : Json := .number (.integer ⟨1, by decide, by decide⟩)
    let r : Record := ⟨[("a", one), ("d", .null)]⟩
    let s : Record := ⟨[("a", one), ("d", .string "b"), ("e", one)]⟩
    e.names = ["a", "b", "c"] ∧ r.AgreesOn e.names s ∧ e.evaluate r = e.evaluate s ∧
      e.evaluate ⟨[("d", one)]⟩ = .error (.fieldNotFound "a") ∧ "a" ∈ e.names := by
  intro e one r s
  have hnames : e.names = ["a", "b", "c"] := by decide +kernel
  have hagrees : r.AgreesOn e.names s := by
    rw [hnames]
    simp [Record.AgreesOn, Record.field?, Members.find?, r, s]
  have hmissing : e.evaluate ⟨[("d", one)]⟩ = .error (.fieldNotFound "a") := by rfl
  obtain ⟨hreads, habsent⟩ := evaluate_reads_names e
  exact ⟨hnames, hagrees, hreads r s hagrees, hmissing, (habsent _ _ hmissing).1⟩

end Expr

end BusinessRules
