import BusinessRules.Evaluation.Error
import BusinessRules.Evaluation.Record
import BusinessRules.Text.Blank

/-!
# Conditions

Model of `evaluate_condition`, `split_condition`, `compare` and `compare_number`. A condition is a
field, a comparator and a literal, separated by blanks; the literal runs to the end and keeps the
blanks inside it.

* `Condition` — the three parts;
* `Condition.split?` — the parts of a text;
* `relation?` — the order between a value and a literal, where there is one;
* `Comparator.holds` — what a comparator says about an order;
* `evaluateComparison`, on `relation?` and `Comparator.holds` — the truth value of a comparison;
* `evaluateCondition` — the truth value of a condition on a record.
-/

namespace BusinessRules

/-- The parts of a condition, the literal not yet interpreted. -/
structure Condition where
  field : String
  symbol : String
  literal : String
  deriving DecidableEq, Repr

/-- The parts of a text (`split_condition`): what stands before the first blank, what stands before
the next run of blanks, and the rest without its outer blanks. -/
def Condition.split? (text : String) : Option Condition :=
  match Text.cutAtBlank? (Text.trim text.toList) with
  | none => none
  | some (field, behindField) =>
    match Text.cutAtBlank? (Text.trimStart behindField) with
    | none => none
    | some (symbol, behindSymbol) =>
      match Text.trim behindSymbol with
      | [] => none
      | c :: cs =>
        some ⟨String.ofList field, String.ofList symbol, String.ofList (c :: cs)⟩

/-- The order between a number and an integer literal (`compare_number`). Integers are compared
exactly; a binary number is compared with the binary number nearest to the literal, which every
literal has. -/
def Number.compareTo (number : Number) (n : Fin Literal.bound) : Ordering :=
  match number with
  | .integer i => compare i.val (n.val : Int)
  | .float x =>
    match Decimal.Binary64.ofNat? n.val with
    | some y => x.compare y
    | none => .lt

/-- The order between a value and a literal: numbers and integers by size, strings and texts by
their characters' code points. Other pairs have none. -/
def relation? : Json → Literal → Option Ordering
  | .number x, .integer n => some (x.compareTo n)
  | .string s, .text t => some (compare s t)
  | _, _ => none

/-- What a comparator says about two sides in a given order. -/
def Comparator.holds : Comparator → Ordering → Bool
  | .greaterEqual, o => o.isGE
  | .lessEqual, o => o.isLE
  | .notEqual, o => o.isNe
  | .greater, o => o.isGT
  | .less, o => o.isLT
  | .equal, o => o.isEq

/-- The truth value of a comparison (`compare`). Sides without an order are unequal, and nothing
else can be said about them. -/
def evaluateComparison (field : String) (comparator : Comparator) (actual : Json)
    (expected : Literal) : Except EvaluationError Bool :=
  match relation? actual expected with
  | some o => .ok (comparator.holds o)
  | none =>
    match comparator with
    | .equal => .ok false
    | .notEqual => .ok true
    | _ => .error (.incompatibleTypes field comparator actual.kind expected.kind)

/-- The truth value of a condition on a record (`evaluate_condition`). The parts are looked at in
the order of the text: the field must be present before the comparator is judged. -/
def evaluateCondition (record : Record) (text : String) : Except EvaluationError Bool :=
  match Condition.split? text with
  | none => .error (.malformedCondition text)
  | some condition =>
    match record.field? condition.field with
    | none => .error (.fieldNotFound condition.field)
    | some actual =>
      match Comparator.ofSymbol? condition.symbol with
      | none => .error (.unsupportedComparator condition.symbol)
      | some comparator =>
        evaluateComparison condition.field comparator actual (Literal.ofRaw condition.literal)

end BusinessRules
