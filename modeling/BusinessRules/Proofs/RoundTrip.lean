import BusinessRules.Proofs.Parsing
import BusinessRules.Proofs.Scanning

/-!
# Rendering and parsing

* `Expr.conditions` — the texts of the comparisons of an expression, from left to right;
* `Canonical` — a comparison's text as the parser spells it;
* `Grammar.SpelledIn` — a comparison made of words among given tokens;
* `Expr.Legal` — canonical comparisons and not too many levels;
* `Expr.derives_scan_render` — the tokens of rendered text are derivable.

Principal results: `Expr.canonical_of_parse`, `Expr.parse_render_of_canonical` and
`Expr.Legal.parse_render` (parsed expressions are rendered to text that parses back to them).
-/

namespace BusinessRules

open BusinessRules.Grammar BusinessRules.Parser BusinessRules.Token

/-- The texts of the comparisons, from left to right. -/
def Expr.conditions : Expr → List String
  | .leaf condition => [condition]
  | .join _ left right => left.conditions ++ right.conditions

/-- Two words with a comparator between them, joined by single spaces. -/
def Canonical (condition : String) : Prop :=
  ∃ field comparator value, IsWord field ∧ IsWord value ∧
    condition = comparisonText field comparator value

/-! ## What the parser builds -/

theorem Expr.mem_postorder_leaf {e : Expr} {condition : String} :
    .leaf condition ∈ e.postorder ↔ condition ∈ e.conditions := by
  induction e with
  | leaf text => simp [postorder, conditions]
  | join op left right ihl ihr => simp [postorder, conditions, ihl, ihr]

/-- A comparison whose field and value are words among tokens. -/
def Grammar.SpelledIn (tokens : List Token) (condition : String) : Prop :=
  ∃ field comparator value, .word field ∈ tokens ∧ .word value ∈ tokens ∧
    condition = comparisonText field comparator value

theorem Grammar.SpelledIn.mono {fewer more : List Token} {condition : String}
    (h : SpelledIn fewer condition) (hsub : fewer ⊆ more) : SpelledIn more condition := by
  obtain ⟨field, comparator, value, hf, hv, hcondition⟩ := h
  exact ⟨field, comparator, value, hsub hf, hsub hv, hcondition⟩

/-- Every comparison is made of words of the text. -/
theorem Grammar.Loose.spelledIn {segment : Segment} {tokens : List Token} {items : List Item}
    (h : Loose segment tokens items) {condition : String} (hc : .leaf condition ∈ items) :
    SpelledIn tokens condition := by
  induction h with
  | comparison field comparator value =>
    simp only [List.mem_singleton, Item.leaf.injEq] at hc
    exact ⟨field, comparator, value, by simp, by simp, hc⟩
  | parens inner ih =>
    exact (ih hc).mono (List.subset_cons_of_subset _ (List.subset_append_left ..))
  | none => cases hc
  | more first last ihf ihl =>
    rcases List.mem_append.1 hc with hc | hc
    · exact (ihf hc).mono (List.subset_append_left ..)
    · exact (ihl hc).mono (List.subset_append_right ..)
  | single only ih => exact ih hc
  | join op front back ihf ihb =>
    rcases List.mem_append.1 hc with hc | hc
    · rcases List.mem_append.1 hc with hc | hc
      · exact (ihf hc).mono (List.subset_append_left ..)
      · exact (ihb hc).mono (List.subset_append_of_subset_right _ (List.subset_cons_self ..))
    · simp at hc

/-- **The comparisons of a parsed expression are canonical.** -/
theorem Expr.canonical_of_parse {text : String} {e : Expr} (h : parse text = .ok e)
    {condition : String} (hc : condition ∈ e.conditions) : Canonical condition := by
  have hloose : Loose .chain (scan text) e.postorder := (ofTokens_eq_ok_iff.1 h).1
  obtain ⟨field, comparator, value, hf, hv, rfl⟩ := hloose.spelledIn (mem_postorder_leaf.2 hc)
  exact ⟨field, comparator, value, isWord_of_mem_scan hf, isWord_of_mem_scan hv, rfl⟩

theorem Expr.depth_le_of_parse {text : String} {e : Expr} (h : parse text = .ok e) :
    e.depth ≤ maxDepth :=
  (ofTokens_eq_ok_iff.1 h).2

/-! ## The tokens of rendered text -/

theorem Comparator.isWord_symbol (comparator : Comparator) : IsWord comparator.symbol := by
  cases comparator <;> decide

theorem scan_comparisonText {field value : String} (hf : IsWord field) (hv : IsWord value)
    (comparator : Comparator) :
    scan (comparisonText field comparator value) =
      [.word field, .word comparator.symbol, .word value] := by
  have hlist : (comparisonText field comparator value).toList =
      field.toList ++ ' ' :: (comparator.symbol.toList ++ ' ' :: value.toList) := by
    simp [comparisonText]
  rw [scan_eq_tokensOf, hlist, tokensOf_blank (by decide), tokensOf_blank (by decide),
    ← scan_eq_tokensOf, ← scan_eq_tokensOf, ← scan_eq_tokensOf, scan_of_isWord hf,
    scan_of_isWord comparator.isWord_symbol, scan_of_isWord hv]
  rfl

theorem scan_symbol (op : Connective) : scan op.symbol = [.connective op] := by
  cases op <;> decide +kernel

theorem scan_parenthesized (text : String) :
    scan ("(" ++ text ++ ")") = .openParen :: (scan text ++ [.closeParen]) := by
  have hlist : ("(" ++ text ++ ")").toList = [] ++ '(' :: (text.toList ++ ')' :: []) := by simp
  rw [scan_eq_tokensOf, hlist, tokensOf_openParen, tokensOf_closeParen, ← scan_eq_tokensOf]
  rfl

theorem scan_connected (op : Connective) (front back : String) :
    scan (front ++ " " ++ op.symbol ++ " " ++ back) =
      scan front ++ .connective op :: scan back := by
  have hlist : (front ++ " " ++ op.symbol ++ " " ++ back).toList =
      front.toList ++ ' ' :: (op.symbol.toList ++ ' ' :: back.toList) := by
    simp
  rw [scan_eq_tokensOf, hlist, tokensOf_blank (by decide), tokensOf_blank (by decide),
    ← scan_eq_tokensOf, ← scan_eq_tokensOf, ← scan_eq_tokensOf, scan_symbol]
  rfl

theorem scan_render_join (op : Connective) (left right : Expr) :
    scan (Expr.join op left right).render =
      .openParen :: ((scan left.render ++ .connective op :: scan right.render) ++
        [.closeParen]) := by
  have hgroup : (Expr.join op left right).render =
      "(" ++ (left.render ++ " " ++ op.symbol ++ " " ++ right.render) ++ ")" := by
    simp [Expr.render, String.append_assoc]
  rw [hgroup, scan_parenthesized, scan_connected]

/-- An expression of canonical comparisons is derivable from the tokens of its rendered text. -/
theorem Expr.derives_scan_render {e : Expr} (h : ∀ condition ∈ e.conditions, Canonical condition) :
    Derives .primary (scan e.render) e := by
  induction e with
  | leaf condition =>
    obtain ⟨field, comparator, value, hf, hv, rfl⟩ := h condition (by simp [conditions])
    rw [render, scan_comparisonText hf hv]
    exact .comparison field comparator value
  | join op left right ihl ihr =>
    obtain ⟨hleft, hright⟩ := List.forall_mem_append.1 h
    rw [scan_render_join]
    exact .parens (.join op (.single (ihl hleft)) (ihr hright))

/-- **Rendered text parses back**, unless the expression has too many levels. -/
theorem Expr.parse_render_of_canonical {e : Expr}
    (h : ∀ condition ∈ e.conditions, Canonical condition) :
    parse e.render = if e.depth ≤ maxDepth then .ok e else .error .tooDeep :=
  ofTokens_of_derives (.single (derives_scan_render h))

/-- Canonical comparisons and not too many levels, as in every parsed expression. -/
structure Expr.Legal (e : Expr) : Prop where
  canonical : ∀ condition ∈ e.conditions, Canonical condition
  depth_le : e.depth ≤ maxDepth

theorem Expr.Legal.of_parse {text : String} {e : Expr} (h : parse text = .ok e) : e.Legal :=
  ⟨fun _ hc => canonical_of_parse h hc, depth_le_of_parse h⟩

theorem Expr.Legal.parse_render {e : Expr} (h : e.Legal) : parse e.render = .ok e := by
  rw [parse_render_of_canonical h.canonical, if_pos h.depth_le]

/-- **Rendering is inverted by parsing.** Parsed expressions have canonical comparisons only, and
every expression of canonical comparisons is what its rendered text parses to, as long as it keeps
the limit on levels. -/
theorem Expr.canonical_and_parse_render :
    (∀ text e, parse text = .ok e → ∀ condition ∈ e.conditions, Canonical condition) ∧
      ∀ e : Expr, (∀ condition ∈ e.conditions, Canonical condition) →
        parse e.render = if e.depth ≤ maxDepth then .ok e else .error .tooDeep :=
  ⟨fun _ _ h _ hc => canonical_of_parse h hc, fun _ h => parse_render_of_canonical h⟩

theorem Expr.canonical_and_parse_render_nested :
    Canonical "and != '1'" ∧
      parse "((< > é OR and != '1') AND c = 3)" =
        .ok (.join .and (.join .or (.leaf "< > é") (.leaf "and != '1'")) (.leaf "c = 3")) := by
  have hparse : parse "(< > é)OR and != '1'" =
      .ok (.join .or (.leaf "< > é") (.leaf "and != '1'")) := by rfl
  have hleft := canonical_and_parse_render.1 _ _ hparse
  have hall : ∀ condition ∈ (Expr.join .and (.join .or (.leaf "< > é") (.leaf "and != '1'"))
      (.leaf "c = 3")).conditions, Canonical condition := by
    intro condition hc
    rcases List.mem_append.1 hc with hc | hc
    · exact hleft condition hc
    · rw [conditions, List.mem_singleton] at hc
      exact ⟨"c", .equal, "3", by decide, by decide, hc⟩
  refine ⟨hleft _ (by simp [conditions]), ?_⟩
  have hrender := canonical_and_parse_render.2 _ hall
  rw [if_pos (by rw [depth_eq_height]; decide)] at hrender
  exact hrender

end BusinessRules
