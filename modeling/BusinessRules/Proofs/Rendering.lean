import BusinessRules.Proofs.Comparisons
import BusinessRules.Proofs.ConditionText
import BusinessRules.Proofs.Decoding

/-!
# What rendered expressions mean

A stored expression may have any text for a condition, and rendering copies it as it stands. Where
the conditions consist of words, the rendered text means what the expression means, if it parses at
all. Where a condition has a connective in it, the text may parse to something else.

* `WordsOnly` — a condition without parentheses and connectives, not blank;
* `ThreeWords` — the conditions among these that a text can have.

Principal results: `Expr.exists_derives_of_threeWords` (conditions of three words are rendered to
comparisons of the same meaning), `Expr.threeWords_of_parse_render` (no others can be parsed back)
and `Expr.evaluate_of_parse_render`.
-/

namespace BusinessRules

open BusinessRules.Grammar BusinessRules.Parser BusinessRules.Token

/-- A condition that consists of words, at least one. -/
structure WordsOnly (condition : String) : Prop where
  ne_nil : scan condition ≠ []
  isWord : ∀ token ∈ scan condition, token.isWord = true

instance : DecidablePred WordsOnly := fun condition =>
  decidable_of_iff (scan condition ≠ [] ∧ ∀ token ∈ scan condition, token.isWord = true)
    ⟨fun ⟨hne, hword⟩ => ⟨hne, hword⟩, fun ⟨hne, hword⟩ => ⟨hne, hword⟩⟩

/-- A condition of three words, the second of them a comparator. -/
def ThreeWords (condition : String) : Prop :=
  ∃ field comparator value,
    scan condition = [.word field, .word (Comparator.symbol comparator), .word value]

namespace Expr

/-! ## Conditions of three words -/

/-- **An expression whose conditions have three words is rendered to a text of the grammar**, and
what that derives has its levels and its truth values. -/
theorem exists_derives_of_threeWords {n : Expr}
    (h : ∀ condition ∈ n.conditions, ThreeWords condition) :
    ∃ m, Derives .primary (scan n.render) m ∧ m.height = n.height ∧
      ∀ record, m.evaluate record = n.evaluate record := by
  induction n with
  | leaf condition =>
    obtain ⟨field, comparator, value, hscan⟩ := h condition (by simp [conditions])
    have hfield : IsWord field := isWord_of_scan_eq hscan (by simp)
    have hvalue : IsWord value := isWord_of_scan_eq hscan (by simp)
    have hcanonical := scan_comparisonText hfield hvalue comparator
    refine ⟨.leaf (comparisonText field comparator value), ?_, rfl, fun record => ?_⟩
    · rw [render, hscan]
      exact .comparison field comparator value
    · exact evaluateCondition_eq_of_scan hcanonical hscan record
  | join op left right ihl ihr =>
    obtain ⟨hleft, hright⟩ := List.forall_mem_append.1 h
    obtain ⟨x, hx, hxheight, hxmeans⟩ := ihl hleft
    obtain ⟨y, hy, hyheight, hymeans⟩ := ihr hright
    refine ⟨.join op x y, ?_, ?_, fun record => ?_⟩
    · rw [scan_render_join]
      exact .parens (.join op (.single hx) hy)
    · rw [height, height, hxheight, hyheight]
    · rw [evaluate, evaluate, hxmeans, hymeans]

/-! ## Counting -/

/-- Conditions of words add no connective to the rendered text. -/
theorem count_connective_scan_render {n : Expr}
    (h : ∀ condition ∈ n.conditions, WordsOnly condition) (op : Connective) :
    (scan n.render).count (.connective op) = n.postorder.count (.join op) := by
  induction n with
  | leaf condition =>
    have hnone : .connective op ∉ scan condition := fun hmem =>
      nomatch (h condition (by simp [conditions])).isWord _ hmem
    rw [render, List.count_eq_zero.2 hnone]
    rfl
  | join other left right ihl ihr =>
    obtain ⟨hleft, hright⟩ := List.forall_mem_append.1 h
    have hclose : [Token.closeParen].count (.connective op) = 0 := by simp
    rw [scan_render_join, List.count_cons_of_ne (by simp), List.count_append, hclose,
      count_connective_between, ihl hleft, ihr hright, postorder, count_join_behind, Nat.add_zero]

/-- The comparisons of rendered text are those of the two sides, one after the other. -/
theorem compares_render_join {op : Connective} {left right : Expr} {cs : List String}
    (h : Compares (scan (Expr.join op left right).render) cs) :
    ∃ xs ys, cs = xs ++ ys ∧ Compares (scan left.render) xs ∧ Compares (scan right.render) ys := by
  rw [scan_render_join] at h
  cases h with
  | mark not_word further =>
    obtain ⟨inner, behind, rfl, hinner, hbehind⟩ := further.cut rfl
    cases hbehind
    rw [List.append_nil]
    exact hinner.cut rfl

/-- The words of a condition make up one comparison at least, and if only one, it is all of them. -/
theorem threeWords_of_compares_scan {condition : String} (hwords : WordsOnly condition)
    {cs : List String} (h : Compares (scan condition) cs) :
    0 < cs.length ∧ (cs.length = 1 → ThreeWords condition) := by
  have hne := hwords.ne_nil
  have hword := hwords.isWord
  generalize hscan : scan condition = tokens at hne hword h
  cases h with
  | nil => exact absurd rfl hne
  | mark not_word further =>
    rw [hword _ (List.mem_cons_self ..)] at not_word
    cases not_word
  | @comparison field comparator value rest others further =>
    refine ⟨by simp, fun hone => ⟨field, comparator, value, ?_⟩⟩
    have hnone : others = [] := by simpa using hone
    subst hnone
    cases further with
    | nil => exact hscan
    | @mark token rest _ not_word further =>
      rw [hword token (by simp)] at not_word
      cases not_word

/-- Rendered text has as many comparisons as the expression has conditions, at least; if it has no
more, each condition is one of them. -/
theorem threeWords_of_compares_render {n : Expr}
    (hwords : ∀ condition ∈ n.conditions, WordsOnly condition) {cs : List String}
    (h : Compares (scan n.render) cs) :
    n.conditions.length ≤ cs.length ∧
      (cs.length = n.conditions.length → ∀ condition ∈ n.conditions, ThreeWords condition) := by
  induction n generalizing cs with
  | leaf condition =>
    obtain ⟨hpos, hone⟩ := threeWords_of_compares_scan (hwords condition (by simp [conditions])) h
    exact ⟨hpos, fun hlength c hc => List.mem_singleton.1 hc ▸ hone hlength⟩
  | join op left right ihl ihr =>
    obtain ⟨hwordsl, hwordsr⟩ := List.forall_mem_append.1 hwords
    obtain ⟨xs, ys, rfl, hleft, hright⟩ := compares_render_join h
    obtain ⟨hl, hlexact⟩ := ihl hwordsl hleft
    obtain ⟨hr, hrexact⟩ := ihr hwordsr hright
    rw [conditions, List.length_append, List.length_append]
    refine ⟨by omega, fun hlength => ?_⟩
    exact List.forall_mem_append.2 ⟨hlexact (by omega), hrexact (by omega)⟩

/-- **If rendered text parses and the conditions consist of words, each has three of them.** The
text has one comparison more than it has connectives, which is as many as there are conditions. -/
theorem threeWords_of_parse_render {n m : Expr}
    (hwords : ∀ condition ∈ n.conditions, WordsOnly condition) (h : parse n.render = .ok m) :
    ∀ condition ∈ n.conditions, ThreeWords condition := by
  refine (threeWords_of_compares_render hwords (compares_of_parse h)).2 ?_
  rw [length_conditions, length_conditions, ← count_connective_of_parse h,
    ← count_connective_of_parse h, count_connective_scan_render hwords,
    count_connective_scan_render hwords]

/-! ## Stored expressions -/

/-- **Rendering a stored expression whose conditions consist of words keeps its meaning.** The text
parses exactly if every condition is two words with a comparator between them. What it parses to has
the truth value of the stored expression on every record, or the same error. -/
theorem evaluate_of_parse_render {value : Json} {n : Expr} (hread : ofJson value = .ok n)
    (hwords : ∀ condition ∈ n.conditions, WordsOnly condition) :
    ((∃ m, parse n.render = .ok m) ↔ ∀ condition ∈ n.conditions, ThreeWords condition) ∧
      ∀ m, parse n.render = .ok m → ∀ record, m.evaluate record = n.evaluate record := by
  have hparse : (∀ condition ∈ n.conditions, ThreeWords condition) →
      ∃ m, parse n.render = .ok m ∧ ∀ record, m.evaluate record = n.evaluate record := by
    intro hthree
    obtain ⟨m, hderives, hheight, hmeans⟩ := exists_derives_of_threeWords hthree
    refine ⟨m, ?_, hmeans⟩
    obtain ⟨-, hdepth⟩ := depth_le_of_ofJson hread
    rw [parse, ofTokens_of_derives (.single hderives), depth_eq_height, hheight, ← depth_eq_height,
      if_pos hdepth]
  refine ⟨⟨fun ⟨m, hm⟩ => threeWords_of_parse_render hwords hm, fun hthree => ?_⟩, ?_⟩
  · obtain ⟨m, hm, -⟩ := hparse hthree
    exact ⟨m, hm⟩
  · intro m hm record
    obtain ⟨m', hm', hmeans⟩ := hparse (threeWords_of_parse_render hwords hm)
    rw [hm] at hm'
    cases hm'
    exact hmeans record

theorem evaluate_of_parse_render_spaced :
    let n : Expr := .join .or (.leaf " a  >=\t1") (.leaf "b != 'x'\n")
    ofJson n.toJson = .ok n ∧ (∃ m, parse n.render = .ok m) ∧
      ∀ m, parse n.render = .ok m → ∀ record, m.evaluate record = n.evaluate record := by
  intro n
  have hread : ofJson n.toJson = .ok n := by
    rw [ofJson_toJson, if_pos (by rw [depth_eq_height]; decide)]
  have hwords : ∀ condition ∈ n.conditions, WordsOnly condition := by decide +kernel
  have hthree : ∀ condition ∈ n.conditions, ThreeWords condition := by
    have hleft : ThreeWords " a  >=\t1" := ⟨"a", .greaterEqual, "1", by decide +kernel⟩
    have hright : ThreeWords "b != 'x'\n" := ⟨"b", .notEqual, "'x'", by decide +kernel⟩
    simp [n, conditions, hleft, hright]
  obtain ⟨hparse, hmeans⟩ := evaluate_of_parse_render hread hwords
  exact ⟨hread, hparse.2 hthree, hmeans⟩

/-- A stored condition with a connective in it is one comparison with a long literal, but its
rendered text parses to two. -/
theorem parse_render_connective_in_condition :
    let value : Json := .object [("type", .string "operand"), ("value", .string "a = 1 OR b = 2")]
    let n : Expr := .leaf "a = 1 OR b = 2"
    let m : Expr := .join .or (.leaf "a = 1") (.leaf "b = 2")
    let one : WideInt := ⟨1, by decide, by decide⟩
    let two : WideInt := ⟨2, by decide, by decide⟩
    let record : Record := ⟨[("a", .number (.integer one)), ("b", .number (.integer two))]⟩
    ofJson value = .ok n ∧ parse n.render = .ok m ∧ n.evaluate record = .ok false ∧
      m.evaluate record = .ok true := by
  intro value n m one two record
  have hread : ofJson value = .ok n := by
    have hsmall : n.depth ≤ maxDepth := by rw [depth_eq_height]; decide
    exact (ofJson_toJson n).trans (if_pos hsmall)
  have hparse : parse "a = 1 OR b = 2" = .ok m := by rfl
  exact ⟨hread, hparse, by rfl, by rfl⟩

end Expr

end BusinessRules
