import BusinessRules.Expr.Combine
import BusinessRules.Proofs.RoundTrip

/-!
# Combination

* `Expr.conjunction` — the left fold of expressions under `AND`, without a limit;
* `Expr.joinedText` — several texts in parentheses with `AND` between them.

Principal results: `Expr.combine_eq_ok` (expressions within the limit on levels combine to their
conjunction, unless that has too many levels), `Expr.Legal.of_combine` (combining legal
expressions gives a legal one, though it was never parsed) and
`Expr.combineTexts_and_parse_joinedText` (combining texts is parsing their joined text).
-/

namespace BusinessRules

open BusinessRules.Grammar

namespace Expr

/-- The left fold of expressions under `AND`. -/
def conjunction (first : Expr) (rest : List Expr) : Expr := rest.foldl (.join .and) first

@[simp] theorem conjunction_nil (first : Expr) : conjunction first [] = first := rfl

@[simp] theorem conjunction_cons (first next : Expr) (rest : List Expr) :
    conjunction first (next :: rest) = conjunction (.join .and first next) rest := rfl

theorem height_le_height_conjunction (first : Expr) (rest : List Expr) :
    first.height ≤ (conjunction first rest).height := by
  induction rest generalizing first with
  | nil => exact Nat.le_refl _
  | cons next rest ih =>
    have hjoin : first.height ≤ (Expr.join .and first next).height := by
      simp only [height]
      omega
    exact Nat.le_trans hjoin (ih _)

theorem height_conjunction_replicate (first : Expr) (condition : String) (n : Nat) :
    (conjunction first (List.replicate n (.leaf condition))).height = first.height + n := by
  induction n generalizing first with
  | zero => rfl
  | succ n ih =>
    have hpos := first.height_pos
    rw [List.replicate_succ, conjunction_cons, ih]
    simp only [height]
    omega

theorem conditions_conjunction (first : Expr) (rest : List Expr) :
    (conjunction first rest).conditions = first.conditions ++ rest.flatMap conditions := by
  induction rest generalizing first with
  | nil => simp
  | cons next rest ih => simp [ih, conditions]

/-- Joining counts the levels of the conjunction and stops at the limit. -/
theorem conjoin_eq {first : Expr} (h : first.depth ≤ maxDepth) (rest : List Expr) :
    conjoin first first.depth rest =
      if (conjunction first rest).depth ≤ maxDepth then .ok (conjunction first rest)
      else .error (.parse .tooDeep) := by
  induction rest generalizing first with
  | nil =>
    rw [conjoin, conjunction_nil, if_pos h]
  | cons next rest ih =>
    have hjoin : max first.depth next.depth + 1 = (Expr.join .and first next).depth := by
      simp only [depth_eq_height, height]
    have hle := height_le_height_conjunction (.join .and first next) rest
    rw [← depth_eq_height, ← depth_eq_height] at hle
    rw [conjoin, hjoin, conjunction_cons]
    by_cases hdeep : maxDepth < (Expr.join .and first next).depth
    · rw [if_pos hdeep, if_neg (by omega)]
    · rw [if_neg hdeep]
      exact ih (by omega)

/-- **A combination is the conjunction**, unless that has too many levels. -/
theorem combine_cons {first : Expr} (h : first.depth ≤ maxDepth) (rest : List Expr) :
    combine (first :: rest) =
      if (conjunction first rest).depth ≤ maxDepth then .ok (conjunction first rest)
      else .error (.parse .tooDeep) :=
  conjoin_eq h rest

/-- What expressions within the limit on levels combine to. -/
theorem combine_eq_ok {es : List Expr} (hes : ∀ e ∈ es, e.depth ≤ maxDepth) {e : Expr} :
    combine es = .ok e ↔
      ∃ first rest, es = first :: rest ∧ e = conjunction first rest ∧ e.depth ≤ maxDepth := by
  cases es with
  | nil => simp [combine]
  | cons first rest =>
    rw [combine_cons (hes first (List.mem_cons_self ..))]
    constructor
    · intro h
      split at h
      · rename_i hdepth
        cases h
        exact ⟨first, rest, rfl, rfl, hdepth⟩
      · cases h
    · rintro ⟨_, _, hcons, rfl, hdepth⟩
      cases hcons
      rw [if_pos hdepth]

/-! ## Legal expressions -/

/-- **A combination of legal expressions is legal.** -/
theorem Legal.of_combine {es : List Expr} (hes : ∀ e ∈ es, e.Legal) {e : Expr}
    (h : combine es = .ok e) : e.Legal := by
  obtain ⟨first, rest, rfl, rfl, hdepth⟩ := (combine_eq_ok fun e he => (hes e he).depth_le).1 h
  refine ⟨?_, hdepth⟩
  intro condition hc
  rw [conditions_conjunction] at hc
  rcases List.mem_append.1 hc with hc | hc
  · exact (hes first (List.mem_cons_self ..)).canonical condition hc
  · obtain ⟨other, hmem, hc⟩ := List.mem_flatMap.1 hc
    exact (hes other (List.mem_cons_of_mem _ hmem)).canonical condition hc

theorem parseAll_cons_eq_ok {text : String} {rest : List String} {es : List Expr} :
    parseAll (text :: rest) = .ok es ↔
      ∃ e others, parse text = .ok e ∧ parseAll rest = .ok others ∧ es = e :: others := by
  rw [parseAll]
  cases parse text with
  | error e => simp
  | ok e => cases parseAll rest <;> simp [eq_comm]

theorem Legal.of_parseAll {texts : List String} {es : List Expr} (h : parseAll texts = .ok es) :
    ∀ e ∈ es, e.Legal := by
  induction texts generalizing es with
  | nil =>
    cases h
    exact fun _ he => nomatch he
  | cons text rest ih =>
    obtain ⟨e, others, hfirst, hrest, rfl⟩ := parseAll_cons_eq_ok.1 h
    exact List.forall_mem_cons.2 ⟨.of_parse hfirst, ih hrest⟩

theorem combineTexts_eq_ok {texts : List String} {e : Expr} :
    combineTexts texts = .ok e ↔ ∃ es, parseAll texts = .ok es ∧ combine es = .ok e := by
  rw [combineTexts]
  cases parseAll texts <;> simp

/-- **A combination of texts is legal.** -/
theorem Legal.of_combineTexts {texts : List String} {e : Expr} (h : combineTexts texts = .ok e) :
    e.Legal := by
  obtain ⟨es, hes, hcombine⟩ := combineTexts_eq_ok.1 h
  exact .of_combine (.of_parseAll hes) hcombine

/-! ## Joined text -/

/-- The texts of several rules as one: each in parentheses, with `AND` between them. -/
def joinedText (texts : List String) : String :=
  " AND ".intercalate (texts.map fun text => "(" ++ text ++ ")")

theorem exists_parseAll {texts : List String} (h : ∀ text ∈ texts, ∃ e, parse text = .ok e) :
    ∃ es, parseAll texts = .ok es := by
  induction texts with
  | nil => exact ⟨[], rfl⟩
  | cons text rest ih =>
    obtain ⟨⟨e, he⟩, hrest⟩ := List.forall_mem_cons.1 h
    obtain ⟨es, hes⟩ := ih hrest
    exact ⟨e :: es, parseAll_cons_eq_ok.2 ⟨e, es, he, hes, rfl⟩⟩

/-- The tokens of a text in parentheses. -/
def grouped (text : String) : List Token := .openParen :: (Token.scan text ++ [.closeParen])

theorem scan_joinedText (first : String) (rest : List String) :
    Token.scan (joinedText (first :: rest)) =
      grouped first ++ rest.flatMap fun text => .connective .and :: grouped text := by
  induction rest generalizing first with
  | nil => simp [joinedText, grouped, scan_parenthesized]
  | cons next rest ih =>
    have htext : joinedText (first :: next :: rest) =
        "(" ++ first ++ ")" ++ " " ++ Connective.symbol .and ++ " " ++
          joinedText (next :: rest) := by
      simp [joinedText, Connective.symbol, String.append_assoc]
    rw [htext, scan_connected, scan_parenthesized, ih, List.flatMap_cons]
    rfl

/-- A text that parses is one operand once it stands in parentheses, whatever stands around it. -/
theorem loose_grouped {text : String} {e : Expr} (h : parse text = .ok e) :
    Loose .primary (grouped text) e.postorder :=
  .parens (ofTokens_eq_ok_iff.1 h).1

/-- Groups behind a chain continue it as a conjunction. -/
theorem loose_conjunction {front : List Token} {first : Expr}
    (hfront : Loose .chain front first.postorder) {texts : List String} {es : List Expr}
    (h : parseAll texts = .ok es) :
    Loose .chain (front ++ texts.flatMap fun text => .connective .and :: grouped text)
      (conjunction first es).postorder := by
  induction texts generalizing front first es with
  | nil =>
    cases h
    rwa [List.flatMap_nil, List.append_nil]
  | cons text rest ih =>
    obtain ⟨e, others, htext, hrest, rfl⟩ := parseAll_cons_eq_ok.1 h
    have hjoin : Loose .chain (front ++ .connective .and :: grouped text)
        (Expr.join .and first e).postorder :=
      .join .and hfront (.run_of_primary (loose_grouped htext))
    rw [List.flatMap_cons, ← List.append_assoc]
    exact ih hjoin hrest

section Joined

variable {text : String} {rest : List String} {first : Expr} {others : List Expr}

theorem combineTexts_cons (htext : parse text = .ok first) (hrest : parseAll rest = .ok others) :
    combineTexts (text :: rest) =
      if (conjunction first others).depth ≤ maxDepth then .ok (conjunction first others)
      else .error (.parse .tooDeep) := by
  have hall : parseAll (text :: rest) = .ok (first :: others) :=
    parseAll_cons_eq_ok.2 ⟨first, others, htext, hrest, rfl⟩
  rw [combineTexts, hall]
  exact combine_cons (depth_le_of_parse htext) others

theorem parse_joinedText (htext : parse text = .ok first) (hrest : parseAll rest = .ok others) :
    parse (joinedText (text :: rest)) =
      if (conjunction first others).depth ≤ maxDepth then .ok (conjunction first others)
      else .error .tooDeep := by
  refine ofTokens_of_postorder ?_
  rw [scan_joinedText]
  exact loose_conjunction (.single (.run_of_primary (loose_grouped htext))) hrest

end Joined

/-- **Texts that parse combine to what their joined text parses to.** The outcome is the same
expression from both, or that it has too many levels from both; a single text gives its own
expression. -/
theorem combineTexts_and_parse_joinedText {texts : List String} (hne : texts ≠ [])
    (hall : ∀ text ∈ texts, ∃ e, parse text = .ok e) :
    ((∃ e, combineTexts texts = .ok e ∧ parse (joinedText texts) = .ok e) ∨
        combineTexts texts = .error (.parse .tooDeep) ∧
          parse (joinedText texts) = .error .tooDeep) ∧
      ∀ text e, texts = [text] → parse text = .ok e →
        combineTexts texts = .ok e ∧ parse (joinedText texts) = .ok e := by
  constructor
  · obtain ⟨es, hes⟩ := exists_parseAll hall
    cases texts with
    | nil => exact absurd rfl hne
    | cons text rest =>
      obtain ⟨first, others, htext, hrest, -⟩ := parseAll_cons_eq_ok.1 hes
      rw [combineTexts_cons htext hrest, parse_joinedText htext hrest]
      by_cases hdepth : (conjunction first others).depth ≤ maxDepth
      · exact .inl ⟨_, if_pos hdepth, if_pos hdepth⟩
      · exact .inr ⟨if_neg hdepth, if_neg hdepth⟩
  · rintro text e rfl htext
    have hdepth := depth_le_of_parse htext
    rw [combineTexts_cons htext rfl, parse_joinedText htext rfl]
    exact ⟨if_pos hdepth, if_pos hdepth⟩

theorem combineTexts_and_parse_joinedText_surplus :
    let texts := ["a > 1 b > 2 AND", "() c = 3 OR d < 4", "e != 5"]
    let tree : Expr := .join .and (.join .and (.join .and (.leaf "a > 1") (.leaf "b > 2"))
      (.join .or (.leaf "c = 3") (.leaf "d < 4"))) (.leaf "e != 5")
    combineTexts texts = .ok tree ∧
      parse "(a > 1 b > 2 AND) AND (() c = 3 OR d < 4) AND (e != 5)" = .ok tree := by
  intro texts tree
  have hall : ∀ text ∈ texts, ∃ e, parse text = .ok e := by
    refine List.forall_mem_cons.2 ⟨⟨_, rfl⟩, List.forall_mem_cons.2 ⟨⟨_, rfl⟩, ?_⟩⟩
    exact List.forall_mem_cons.2 ⟨⟨_, rfl⟩, fun _ h => nomatch h⟩
  have htext : joinedText texts =
      "(a > 1 b > 2 AND) AND (() c = 3 OR d < 4) AND (e != 5)" := by decide +kernel
  have hparse : parse "(a > 1 b > 2 AND) AND (() c = 3 OR d < 4) AND (e != 5)" = .ok tree := by
    rfl
  have hsame := (combineTexts_and_parse_joinedText (by simp [texts]) hall).1
  rw [htext, hparse] at hsame
  rcases hsame with ⟨e, hcombine, htree⟩ | ⟨-, hdeep⟩
  · cases htree
    exact ⟨hcombine, hparse⟩
  · cases hdeep

end Expr

end BusinessRules
