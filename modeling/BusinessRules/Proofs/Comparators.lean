import BusinessRules.Proofs.ConditionWords
import BusinessRules.Proofs.Strictness
import BusinessRules.Proofs.TextBytes

/-!
# The six comparators

What a comparator says about a value and a literal depends on their order only, so the six agree
with one another: of less, equal and greater exactly one is true, and the others are negations of
these. On integers the order is that of the integers, whatever their size and sign; on texts it is
that of the code points, which is that of the bytes. A comparison with a blank text is no condition,
whatever the comparator.

* `Comparator.Relates` — what a comparator says of two sides, in terms of which comes before which;
* `Ranks` — an outcome that says which of two sides comes first.

Principal results: `Comparator.holds_iff_relates` (a comparator on an outcome),
`ranks_compareTo_integer`, `ranks_compare_codePoints`, `ranks_compare_bytes` (the outcomes) and
`comparisons_consistent_and_exact`.
-/

namespace BusinessRules

open BusinessRules.Parser (comparisonText)
open Text

/-! ## Comparators on an order -/

/-- What a comparator says of two sides, given what comes before what. -/
def Comparator.Relates {α : Type} (before : α → α → Prop) : Comparator → α → α → Prop
  | .greaterEqual, x, y => ¬ before x y
  | .lessEqual, x, y => ¬ before y x
  | .notEqual, x, y => x ≠ y
  | .greater, x, y => before y x
  | .less, x, y => before x y
  | .equal, x, y => x = y

/-- An outcome says which of two sides comes first, or that they are equal. -/
structure Ranks {α : Type} (before : α → α → Prop) (x y : α) (o : Ordering) : Prop where
  lt_iff : o = .lt ↔ before x y
  eq_iff : o = .eq ↔ x = y
  gt_iff : o = .gt ↔ before y x

section Outcomes

variable {α : Type} {before : α → α → Prop} {x y : α} {o : Ordering}

/-- **A comparator on an outcome says what it says of the two sides.** -/
theorem Comparator.holds_iff_relates (h : Ranks before x y o) (c : Comparator) :
    c.holds o = true ↔ c.Relates before x y := by
  cases c with
  | greaterEqual =>
    rw [Relates, ← h.lt_iff]
    cases o <;> simp [holds]
  | lessEqual =>
    rw [Relates, ← h.gt_iff]
    cases o <;> simp [holds]
  | notEqual =>
    rw [Relates, Ne, ← h.eq_iff]
    cases o <;> simp [holds]
  | greater =>
    rw [Relates, ← h.gt_iff]
    cases o <;> simp [holds]
  | less =>
    rw [Relates, ← h.lt_iff]
    cases o <;> simp [holds]
  | equal =>
    rw [Relates, ← h.eq_iff]
    cases o <;> simp [holds]

theorem Ranks.map {β : Type} {f : α → β} {after : β → β → Prop} (h : Ranks before x y o)
    (hbefore : ∀ a b, after (f a) (f b) ↔ before a b) (hf : ∀ a b, f a = f b ↔ a = b) :
    Ranks after (f x) (f y) o where
  lt_iff := by rw [hbefore]; exact h.lt_iff
  eq_iff := by rw [hf]; exact h.eq_iff
  gt_iff := by rw [hbefore]; exact h.gt_iff

end Outcomes

/-- An integer is compared exactly, also beyond the literals. -/
theorem ranks_compareTo_integer (i : WideInt) (n : Fin Literal.bound) :
    Ranks (· < ·) i.val (n.val : Int) (Number.compareTo (.integer i) n) where
  lt_iff := Std.compare_eq_lt
  eq_iff := Std.compare_eq_iff_eq
  gt_iff := Std.compare_eq_gt

theorem ranks_compare (s t : String) : Ranks (· < ·) s t (compare s t) where
  lt_iff := compareOfLessAndEq_eq_lt
  eq_iff := compareOfLessAndEq_eq_eq String.le_refl String.not_le
  gt_iff := compareOfLessAndEq_eq_gt String.le_antisymm String.le_total String.not_le s t

/-- Texts are compared by their code points. -/
theorem ranks_compare_codePoints (s t : String) :
    Ranks (Precedes (· < ·)) (codePoints s) (codePoints t) (compare s t) :=
  (ranks_compare s t).map (fun _ _ => lt_iff_codePoints.symm) fun _ _ => codePoints_inj

/-- Texts are compared by their bytes. -/
theorem ranks_compare_bytes (s t : String) :
    Ranks (Precedes (· < ·)) (bytes s) (bytes t) (compare s t) :=
  (ranks_compare s t).map (fun _ _ => precedes_bytes_iff) fun _ _ => bytes_inj

/-! ## Comparisons of a field with a text -/

/-- The parts of a comparison with a text that is not blank. -/
theorem Condition.spaced_comparisonText {field value : String} (hfield : Unbroken field.toList)
    (hvalue : trim value.toList ≠ []) (c : Comparator) :
    Spaced ⟨field, c.symbol, .ofList (trim value.toList)⟩ (comparisonText field c value) := by
  obtain ⟨lead, trail, hlead, htrail, hsplit⟩ := exists_eq_append_trim value.toList
  have hspelling : (comparisonText field c value).toList =
      [] ++ (field.toList ++ ([' '] ++ (c.symbol.toList ++
        (' ' :: lead ++ ((String.ofList (trim value.toList)).toList ++ trail))))) := by
    simp [comparisonText, ← hsplit]
  have hspace : isBlank ' ' = true := rfl
  exact .intro hspelling hfield (unbroken_of_isWord c.isWord_symbol)
    (by simpa using solid_trim hvalue) (List.cons_ne_nil _ _) (List.cons_ne_nil _ _)
    (List.forall_mem_nil _) (List.forall_mem_singleton.2 hspace)
    (List.forall_mem_cons.2 ⟨hspace, hlead⟩) htrail

/-- A comparison with a blank text has two words only. -/
theorem words_comparisonText {field value : String} (hfield : Unbroken field.toList)
    (hvalue : trim value.toList = []) (c : Comparator) :
    words (comparisonText field c value).toList = [field.toList, c.symbol.toList] := by
  have hspace : AllBlank [' '] := List.forall_mem_singleton.2 rfl
  have hrest : words value.toList = [] := by rw [← words_trim, hvalue, words_nil]
  have hspelling : (comparisonText field c value).toList =
      field.toList ++ ([' '] ++ (c.symbol.toList ++ ([' '] ++ value.toList))) := by
    simp [comparisonText]
  rw [hspelling, words_unbroken_append hfield hspace (List.cons_ne_nil _ _),
    words_unbroken_append (Condition.unbroken_of_isWord c.isWord_symbol) hspace
      (List.cons_ne_nil _ _), hrest]

/-- The literal of a comparison with a text: blanks around it do not count. -/
def Literal.ofValue (value : String) : Literal := .ofRaw (.ofList (trim value.toList))

theorem evaluateCondition_comparisonText {record : Record} {field value : String} {actual : Json}
    (hfield : Unbroken field.toList) (hpresent : record.field? field = some actual)
    (hvalue : trim value.toList ≠ []) (c : Comparator) :
    evaluateCondition record (comparisonText field c value) =
      evaluateComparison field c actual (.ofValue value) := by
  rw [evaluateCondition_of_spaced (Condition.spaced_comparisonText hfield hvalue c),
    Condition.evaluate, hpresent]
  dsimp only
  rw [Comparator.ofSymbol?_eq_some.2 rfl]
  rfl

/-! ## The six together -/

section Comparisons

variable {field : String} {actual : Json} {expected : Literal}

theorem exists_relation?_of_comparable (h : Comparable actual expected) :
    ∃ o, relation? actual expected = some o :=
  Option.ne_none_iff_exists'.1 fun hnone => relation?_eq_none_iff.1 hnone h

theorem evaluateComparison_of_relation? {o : Ordering} (h : relation? actual expected = some o)
    (c : Comparator) : evaluateComparison field c actual expected = .ok (c.holds o) := by
  unfold evaluateComparison
  rw [h]

/-- Equality is decided for all sides, those without an order are unequal. -/
theorem exists_evaluateComparison_equal :
    ∃ b, evaluateComparison field .equal actual expected = .ok b ∧
      evaluateComparison field .notEqual actual expected = .ok (!b) := by
  unfold evaluateComparison
  split
  · rename_i o _
    exact ⟨o.isEq, rfl, by cases o <;> rfl⟩
  · exact ⟨false, rfl, rfl⟩

/-- **Of less, equal and greater exactly one is true**, and the others are negations of these. -/
theorem exists_evaluateComparison_of_comparable (h : Comparable actual expected) :
    ∃ less equal greater, [less, equal, greater].count true = 1 ∧
      evaluateComparison field .less actual expected = .ok less ∧
      evaluateComparison field .equal actual expected = .ok equal ∧
      evaluateComparison field .greater actual expected = .ok greater ∧
      evaluateComparison field .lessEqual actual expected = .ok (!greater) ∧
      evaluateComparison field .greaterEqual actual expected = .ok (!less) := by
  obtain ⟨o, ho⟩ := exists_relation?_of_comparable h
  refine ⟨o.isLT, o.isEq, o.isGT, ?_⟩
  simp only [evaluateComparison_of_relation? ho, Comparator.holds]
  cases o <;> decide

/-- **Integers are compared as integers**, whatever their size. -/
theorem exists_evaluateComparison_integer (i : WideInt) (n : Fin Literal.bound) (c : Comparator) :
    ∃ b, evaluateComparison field c (.number (.integer i)) (.integer n) = .ok b ∧
      (b = true ↔ c.Relates (· < ·) i.val (n.val : Int)) := by
  have hrelation : relation? (.number (.integer i)) (.integer n) =
      some (Number.compareTo (.integer i) n) := rfl
  exact ⟨_, evaluateComparison_of_relation? hrelation c,
    c.holds_iff_relates (ranks_compareTo_integer i n)⟩

/-- **Texts are compared by their code points**, which is to say by their bytes. -/
theorem exists_evaluateComparison_text (s t : String) (c : Comparator) :
    ∃ b, evaluateComparison field c (.string s) (.text t) = .ok b ∧
      (b = true ↔ c.Relates (Precedes (· < ·)) (codePoints s) (codePoints t)) ∧
      (b = true ↔ c.Relates (Precedes (· < ·)) (bytes s) (bytes t)) := by
  have hrelation : relation? (.string s) (.text t) = some (compare s t) := rfl
  exact ⟨_, evaluateComparison_of_relation? hrelation c,
    c.holds_iff_relates (ranks_compare_codePoints s t),
    c.holds_iff_relates (ranks_compare_bytes s t)⟩

end Comparisons

/-- **The six comparators agree with one another and are exact.** A field that is present is
compared with a text. If the text is blank there is no literal, and all six conditions are
malformed. Otherwise equality is always decided, and inequality is its negation. The four other
comparators have truth values exactly if the value is a number and the literal an integer, or the
value is a string and the literal a text; if not, all four report the two kinds. If so, exactly one
of less, equal and greater is true, and the others are negations of these. Integers are compared as
integers, also those beyond the literals; strings are compared by their code points from left to
right, and the comparison of their bytes says the same. -/
theorem comparisons_consistent_and_exact {record : Record} {field : String} {actual : Json}
    (hfield : Unbroken field.toList) (hpresent : record.field? field = some actual)
    (value : String) :
    let result := fun comparator =>
      evaluateCondition record (comparisonText field comparator value)
    let literal := Literal.ofValue value
    (trim value.toList = [] → ∀ c,
        result c = .error (.malformedCondition (comparisonText field c value))) ∧
      (trim value.toList ≠ [] →
        (∃ b, result .equal = .ok b ∧ result .notEqual = .ok (!b)) ∧
        (¬ Comparable actual literal → ∀ c, c.isOrdering = true →
          result c = .error (.incompatibleTypes field c actual.kind literal.kind)) ∧
        (Comparable actual literal → ∃ less equal greater,
          [less, equal, greater].count true = 1 ∧
            result .less = .ok less ∧ result .equal = .ok equal ∧ result .greater = .ok greater ∧
            result .lessEqual = .ok (!greater) ∧ result .greaterEqual = .ok (!less)) ∧
        (∀ i n, actual = .number (.integer i) → literal = .integer n → ∀ c,
          ∃ b, result c = .ok b ∧ (b = true ↔ c.Relates (· < ·) i.val (n.val : Int))) ∧
        ∀ s t, actual = .string s → literal = .text t → ∀ c,
          ∃ b, result c = .ok b ∧
            (b = true ↔ c.Relates (Precedes (· < ·)) (codePoints s) (codePoints t)) ∧
            (b = true ↔ c.Relates (Precedes (· < ·)) (bytes s) (bytes t))) := by
  intro result literal
  refine ⟨fun hblank c => ?_, fun hvalue => ?_⟩
  · have hfew : (words (comparisonText field c value).toList).length < 3 := by
      simp [words_comparisonText hfield hblank]
    exact evaluateCondition_of_few_words hfew record
  · have hresult : result = fun c => evaluateComparison field c actual literal :=
      funext fun c => evaluateCondition_comparisonText hfield hpresent hvalue c
    rw [hresult]
    refine ⟨exists_evaluateComparison_equal, ?_, exists_evaluateComparison_of_comparable, ?_, ?_⟩
    · intro hincomparable c hordering
      exact evaluateComparison_eq_error_iff.2 ⟨hordering, hincomparable, rfl⟩
    · intro i n hactual hliteral c
      rw [hactual, hliteral]
      exact exists_evaluateComparison_integer i n c
    · intro s t hactual hliteral c
      rw [hactual, hliteral]
      exact exists_evaluateComparison_text s t c

/-- An integer beyond all literals, a text whose first character takes two bytes, and sides without
an order. -/
theorem comparisons_consistent_and_exact_wide :
    let big : Json := .number (.integer ⟨18446744073709551615, by decide, by decide⟩)
    let record : Record := ⟨[("(n", big), ("name", .string "é")]⟩
    Unbroken "(n".toList ∧ record.field? "(n" = some big ∧
      evaluateCondition record (comparisonText "(n" .greater "9223372036854775807") = .ok true ∧
      evaluateCondition record (comparisonText "name" .greater " 'z' ") = .ok true ∧
      evaluateCondition record (comparisonText "name" .less "007") =
        .error (.incompatibleTypes "name" .less .string .integer) ∧
      evaluateCondition record (comparisonText "name" .less "\t") =
        .error (.malformedCondition "name < \t") := by
  intro big record
  have hfield : Unbroken "(n".toList := by decide
  have hname : Unbroken "name".toList := by decide
  have hbig : record.field? "(n" = some big := rfl
  have hstring : record.field? "name" = some (.string "é") := rfl
  have hinteger : Literal.ofValue "9223372036854775807" =
      .integer ⟨9223372036854775807, by decide⟩ := by decide +kernel
  have htext : Literal.ofValue " 'z' " = .text "z" := by decide +kernel
  have hseven : Literal.ofValue "007" = .integer ⟨7, by decide⟩ := by decide +kernel
  refine ⟨hfield, hbig, ?_, ?_, ?_, ?_⟩
  · obtain ⟨-, hresults⟩ := comparisons_consistent_and_exact hfield hbig "9223372036854775807"
    obtain ⟨-, -, -, hexact, -⟩ := hresults (by decide)
    obtain ⟨b, hb, htrue⟩ := hexact _ _ rfl hinteger .greater
    rwa [htrue.2 (by simp [Comparator.Relates])] at hb
  · obtain ⟨-, hresults⟩ := comparisons_consistent_and_exact hname hstring " 'z' "
    obtain ⟨-, -, -, -, hexact⟩ := hresults (by decide)
    obtain ⟨b, hb, htrue, -⟩ := hexact _ _ rfl htext .greater
    have hbefore : Precedes (· < ·) [122] [233] := .rel (by decide)
    rwa [htrue.2 hbefore] at hb
  · obtain ⟨-, hresults⟩ := comparisons_consistent_and_exact hname hstring "007"
    obtain ⟨-, hincomparable, -⟩ := hresults (by decide)
    have hnone : ¬ Comparable (.string "é") (Literal.ofValue "007") := by simp [hseven, Comparable]
    have herror := hincomparable hnone .less rfl
    rwa [hseven] at herror
  · obtain ⟨hblank, -⟩ := comparisons_consistent_and_exact hname hstring "\t"
    exact hblank (by decide) .less

/-- A field and a comparator without a literal are no condition, so equality is undecided there,
though the value is present and as blank as the text. -/
theorem evaluateCondition_blank_literal :
    let record : Record := ⟨[("f", .string "")]⟩
    Unbroken "f".toList ∧ record.field? "f" = some (.string "") ∧
      comparisonText "f" .equal "" = "f = " ∧
      ∀ c, evaluateCondition record (comparisonText "f" c "") =
          .error (.malformedCondition (comparisonText "f" c "")) ∧
        ¬ ∃ b, evaluateCondition record (comparisonText "f" c "") = .ok b := by
  intro record
  have hfield : Unbroken "f".toList := by decide
  have hblank : trim "".toList = [] := by decide
  have hfew : ∀ c, (words (comparisonText "f" c "").toList).length < 3 := fun c => by
    simp [words_comparisonText hfield hblank]
  refine ⟨hfield, rfl, by decide +kernel, fun c => ?_⟩
  have hmalformed := evaluateCondition_of_few_words (hfew c) record
  refine ⟨hmalformed, ?_⟩
  rintro ⟨b, hb⟩
  rw [hmalformed] at hb
  cases hb

end BusinessRules
