import BusinessRules.Proofs.Parentheses
import BusinessRules.Proofs.RoundTrip

/-!
# The comparisons of a text

Whatever a text looks like, the parser takes its words in threes, and every three words become one
comparison of the expression, in the order of the text. Every connective of the text joins two parts
of the expression.

* `Grammar.Compares` — the comparisons that the words of a token list make up;
* `inThrees` — the same for the words by themselves, wherever they stand;
* `Expr.joinCount` — the joins of an expression under one connective.

Principal results: `Expr.compares_of_parse`, `Expr.count_connective_of_parse`,
`Grammar.Compares.cut` (no comparison goes across a parenthesis or a connective) and
`Expr.nothing_lost_of_parse` (the parts of a parsed expression are those of its text).
-/

namespace BusinessRules

open BusinessRules.Parser (comparisonText)

/-- A token other than the parentheses and the connectives. -/
def Token.isWord : Token → Bool
  | .word _ => true
  | _ => false

/-- The text of a word. -/
def Token.word? : Token → Option String
  | .word w => some w
  | _ => none

theorem Token.word?_eq_none {token : Token} (h : token.isWord = false) : token.word? = none := by
  cases token with
  | word w => cases h
  | openParen | closeParen | connective => rfl

/-- Texts three at a time, with single spaces between the three. What is left over at the end is
dropped. -/
def inThrees : List String → List String
  | first :: second :: third :: rest => (first ++ " " ++ second ++ " " ++ third) :: inThrees rest
  | _ => []

namespace Grammar

/-! ## Words in threes -/

/-- The words of a token list, three at a time, are comparisons. Parentheses and connectives stand
between them. -/
inductive Compares : List Token → List String → Prop where
  | nil : Compares [] []
  | mark {token : Token} {rest : List Token} {conditions : List String}
      (not_word : token.isWord = false) (further : Compares rest conditions) :
      Compares (token :: rest) conditions
  | comparison (field : String) (comparator : Comparator) (value : String) {rest : List Token}
      {conditions : List String} (further : Compares rest conditions) :
      Compares (.word field :: .word comparator.symbol :: .word value :: rest)
        (comparisonText field comparator value :: conditions)

theorem Compares.append {front back : List Token} {xs ys : List String} (hfront : Compares front xs)
    (hback : Compares back ys) : Compares (front ++ back) (xs ++ ys) := by
  induction hfront with
  | nil => exact hback
  | mark not_word further ih => exact .mark not_word ih
  | comparison field comparator value further ih => exact .comparison field comparator value ih

/-- **No comparison goes across a parenthesis or a connective.** -/
theorem Compares.cut {front back : List Token} {token : Token} {conditions : List String}
    (h : Compares (front ++ token :: back) conditions) (hmark : token.isWord = false) :
    ∃ xs ys, conditions = xs ++ ys ∧ Compares front xs ∧ Compares back ys := by
  generalize htokens : front ++ token :: back = tokens at h
  induction h generalizing front with
  | nil => simp at htokens
  | @mark first rest conditions not_word further ih =>
    cases front with
    | nil =>
      obtain ⟨-, rfl⟩ := List.cons.inj htokens
      exact ⟨[], conditions, rfl, .nil, further⟩
    | cons first front =>
      obtain ⟨rfl, hrest⟩ := List.cons.inj htokens
      obtain ⟨xs, ys, hconditions, hfront, hback⟩ := ih hrest
      exact ⟨xs, ys, hconditions, .mark not_word hfront, hback⟩
  | @comparison field comparator value rest conditions further ih =>
    -- the cut is behind the three words, as it is made at no word
    match front, htokens with
    | [], htokens | [_], htokens | [_, _], htokens =>
      simp only [List.nil_append, List.cons_append, List.cons.injEq] at htokens
      simp [htokens, Token.isWord] at hmark
    | _ :: _ :: _ :: front, htokens =>
      simp only [List.cons_append, List.cons.injEq] at htokens
      obtain ⟨rfl, rfl, rfl, hrest⟩ := htokens
      obtain ⟨xs, ys, rfl, hfront, hback⟩ := ih hrest
      exact ⟨_ :: xs, ys, rfl, .comparison field comparator value hfront, hback⟩

/-- **The words of a token list that make up comparisons are three for each**, in the order of the
comparisons. -/
theorem Compares.words {tokens : List Token} {conditions : List String}
    (h : Compares tokens conditions) :
    (tokens.filterMap Token.word?).length = 3 * conditions.length ∧
      inThrees (tokens.filterMap Token.word?) = conditions := by
  induction h with
  | nil => exact ⟨rfl, rfl⟩
  | mark not_word further ih =>
    rw [List.filterMap_cons_none (Token.word?_eq_none not_word)]
    exact ih
  | @comparison field comparator value rest conditions further ih =>
    obtain ⟨hlength, hthrees⟩ := ih
    simp only [List.filterMap_cons, Token.word?, List.length_cons, inThrees, hlength, hthrees]
    exact ⟨by omega, rfl⟩

/-- The comparison of an item. -/
def Item.condition? : Item → Option String
  | .leaf condition => some condition
  | .join _ => none

theorem filterMap_singleton_join (op : Connective) :
    [Item.join op].filterMap Item.condition? = [] := rfl

theorem Loose.compares {segment : Segment} {tokens : List Token} {items : List Item}
    (h : Loose segment tokens items) : Compares tokens (items.filterMap Item.condition?) := by
  induction h with
  | comparison field comparator value => exact .comparison field comparator value .nil
  | parens inner ih =>
    have hclose : Compares [.closeParen] [] := .mark rfl .nil
    refine .mark rfl ?_
    simpa using ih.append hclose
  | none => exact .nil
  | more first last ihf ihl =>
    rw [List.filterMap_append]
    exact ihf.append ihl
  | single only ih => exact ih
  | @join left right xs ys op front back ihf ihb =>
    have hback : Compares (.connective op :: right) (ys.filterMap Item.condition?) :=
      .mark rfl ihb
    rw [List.filterMap_append, List.filterMap_append, filterMap_singleton_join, List.append_nil]
    exact ihf.append hback

/-! ## Connectives -/

theorem count_connective_between (left right : List Token) (other op : Connective) :
    (left ++ .connective other :: right).count (.connective op) =
      left.count (.connective op) + right.count (.connective op) + if other = op then 1 else 0 := by
  simp [List.count_cons, Nat.add_assoc]

theorem count_join_behind (xs ys : List Item) (other op : Connective) :
    (xs ++ ys ++ [Item.join other]).count (.join op) =
      xs.count (.join op) + ys.count (.join op) + if other = op then 1 else 0 := by
  simp [List.count_cons, Nat.add_assoc]

/-- As many connectives as a token list has, its items have. -/
theorem Loose.count_connective {segment : Segment} {tokens : List Token} {items : List Item}
    (h : Loose segment tokens items) (op : Connective) :
    tokens.count (.connective op) = items.count (.join op) := by
  induction h with
  | comparison field comparator value => simp
  | parens inner ih => simpa using ih
  | none => rfl
  | more first last ihf ihl => rw [List.count_append, List.count_append, ihf, ihl]
  | single only ih => exact ih
  | join other front back ihf ihb =>
    rw [count_connective_between, count_join_behind, ihf, ihb]

end Grammar

open Grammar Token

namespace Expr

theorem filterMap_postorder (e : Expr) : e.postorder.filterMap Item.condition? = e.conditions := by
  induction e with
  | leaf condition => rfl
  | join op left right ihl ihr =>
    rw [postorder, List.filterMap_append, List.filterMap_append, filterMap_singleton_join, ihl, ihr,
      List.append_nil, conditions]

/-- An expression has one comparison more than it has connectives. -/
theorem length_conditions (e : Expr) :
    e.conditions.length = e.postorder.count (.join .and) + e.postorder.count (.join .or) + 1 := by
  induction e with
  | leaf condition => rfl
  | join op left right ihl ihr =>
    rw [conditions, List.length_append, ihl, ihr, postorder, count_join_behind, count_join_behind]
    cases op with
    | and | or =>
      simp only [reduceCtorEq, if_true, if_false]
      omega

theorem length_conditions_eq_leafCount (e : Expr) : e.conditions.length = e.leafCount := by
  induction e with
  | leaf condition => rfl
  | join op left right ihl ihr => rw [conditions, List.length_append, ihl, ihr, leafCount]

/-- The number of joins under a connective. -/
def joinCount (op : Connective) : Expr → Nat
  | .leaf _ => 0
  | .join other left right =>
    left.joinCount op + right.joinCount op + if other = op then 1 else 0

theorem count_join_postorder (e : Expr) (op : Connective) :
    e.postorder.count (.join op) = e.joinCount op := by
  induction e with
  | leaf condition => rfl
  | join other left right ihl ihr => rw [postorder, count_join_behind, ihl, ihr, joinCount]

/-- **The comparisons of a parsed expression are those of the text**, in the order of the text. -/
theorem compares_of_parse {text : String} {e : Expr} (h : parse text = .ok e) :
    Compares (scan text) e.conditions := by
  have hloose : Loose .chain (scan text) e.postorder := (ofTokens_eq_ok_iff.1 h).1
  rw [← filterMap_postorder]
  exact hloose.compares

/-- **The connectives of a parsed expression are as many as those of the text.** -/
theorem count_connective_of_parse {text : String} {e : Expr} (h : parse text = .ok e)
    (op : Connective) : (scan text).count (.connective op) = e.postorder.count (.join op) :=
  (ofTokens_eq_ok_iff.1 h).1.count_connective op

/-- **Nothing of a text is lost, doubled or moved.** If a text parses, whether or not the grammar
has it, its parentheses are balanced, its words are three for every comparison of the expression,
each three of them joined by single spaces are its comparisons from left to right, and it has the
connectives that join the expression, each as often. -/
theorem nothing_lost_of_parse {text : String} {e : Expr} (h : parse text = .ok e) :
    Balanced (scan text) ∧
      ((scan text).filterMap Token.word?).length = 3 * e.leafCount ∧
      inThrees ((scan text).filterMap Token.word?) = e.conditions ∧
      ∀ op, e.joinCount op = (scan text).count (.connective op) := by
  have hloose : Loose .chain (scan text) e.postorder := (ofTokens_eq_ok_iff.1 h).1
  obtain ⟨hlength, hthrees⟩ := (compares_of_parse h).words
  rw [length_conditions_eq_leafCount] at hlength
  refine ⟨hloose.balanced, hlength, hthrees, fun op => ?_⟩
  rw [count_connective_of_parse h, count_join_postorder]

theorem nothing_lost_of_parse_surplus :
    let text := "a > 1 (b < 2 OR) c = 3 AND ()"
    let e : Expr := .join .and (.join .or (.leaf "a > 1") (.leaf "b < 2")) (.leaf "c = 3")
    parse text = .ok e ∧ Balanced (scan text) ∧
      ((scan text).filterMap Token.word?).length = 9 ∧
      inThrees ((scan text).filterMap Token.word?) = ["a > 1", "b < 2", "c = 3"] ∧
      (scan text).count (.connective .or) = 1 := by
  intro text e
  have hparse : parse "a > 1 (b < 2 OR) c = 3 AND ()" = .ok e := by rfl
  obtain ⟨hbalanced, hlength, hthrees, hcount⟩ := nothing_lost_of_parse hparse
  exact ⟨hparse, hbalanced, hlength, hthrees, (hcount .or).symm⟩

end Expr

end BusinessRules
