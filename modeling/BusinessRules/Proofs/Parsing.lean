import BusinessRules.Proofs.Depth
import BusinessRules.Proofs.Passes

/-!
# What the parser accepts

* `Simulates` — the parser does on a token list what one stack does on its items.

Principal results: `ofTokens_of_loose` (the parser's answer on the wider grammar),
`ofTokens_of_postorder` and `ofTokens_of_derives` (on the items of one expression, and on the
grammar), `ofTokens_eq_ok_iff` (nothing else is accepted), `refused_of_ofTokens` (everything else is
refused with an error that is true of it) and `derives_iff_alternates` (what of it the grammar has).
-/

namespace BusinessRules

open BusinessRules.Grammar BusinessRules.Parser

namespace Grammar

/-! ## One pass over the tokens -/

/-- On the tokens of a segment the parser carries out the items, in whatever context it stands. A
chain may end with a connective still pending, which the next settling carries out. -/
def Simulates : Segment → List Token → List Item → Prop
  | .chain, tokens, items => ∀ subtrees pending, Settled pending →
      ∃ reached : Except ParseError Stacks,
        (∀ rest, shift (tokens ++ rest) ⟨subtrees, pending⟩ = reached >>= shift rest) ∧
        (reached >>= fun s => settle s.pending s.subtrees) =
          build items subtrees >>= fun built => .ok ⟨built, pending⟩
  | _, tokens, items => ∀ subtrees pending rest,
      shift (tokens ++ rest) ⟨subtrees, pending⟩ =
        build items subtrees >>= fun built => shift rest ⟨built, pending⟩

theorem shift_openParen (rest : List Token) (subtrees : List Subtree) (pending : List Pending) :
    shift (.openParen :: rest) ⟨subtrees, pending⟩ =
      shift rest ⟨subtrees, .openParen :: pending⟩ := by
  rw [shift]

theorem shift_closeParen (rest : List Token) :
    shift (.closeParen :: rest) = fun s => closeParen s.pending s.subtrees >>= shift rest := by
  funext s
  rw [shift]
  cases closeParen s.pending s.subtrees <;> rfl

theorem shift_connective (op : Connective) (rest : List Token) :
    shift (.connective op :: rest) = fun s =>
      settle s.pending s.subtrees >>= fun settled =>
        shift rest ⟨settled.subtrees, .connective op :: settled.pending⟩ := by
  funext s
  rw [shift]
  cases settle s.pending s.subtrees <;> rfl

theorem shift_comparison (field : String) (comparator : Comparator) (value : String)
    (rest : List Token) (subtrees : List Subtree) (pending : List Pending) :
    shift (.word field :: .word comparator.symbol :: .word value :: rest) ⟨subtrees, pending⟩ =
      shift rest ⟨⟨.leaf (comparisonText field comparator value), 1⟩ :: subtrees, pending⟩ := by
  have hsymbol : Comparator.ofSymbol? comparator.symbol = some comparator :=
    Comparator.ofSymbol?_eq_some.2 rfl
  have hafter : comparatorAfter field (.word comparator.symbol) = .ok comparator := by
    rw [comparatorAfter, hsymbol]
  rw [shift, hafter]

/-- **The parser carries out the items of a token list of the wider grammar.** -/
theorem Loose.simulates {segment : Segment} {tokens : List Token} {items : List Item}
    (h : Loose segment tokens items) : Simulates segment tokens items := by
  induction h with
  | comparison field comparator value =>
    intro subtrees pending rest
    exact shift_comparison field comparator value rest subtrees pending
  | @parens tokens items inner ih =>
    intro subtrees pending rest
    obtain ⟨reached, hshift, hsettle⟩ := ih subtrees (.openParen :: pending) (by simp [Settled])
    calc shift (.openParen :: (tokens ++ [.closeParen]) ++ rest) ⟨subtrees, pending⟩
        = shift (tokens ++ .closeParen :: rest) ⟨subtrees, .openParen :: pending⟩ := by
          rw [List.cons_append, shift_openParen, List.append_assoc]
          rfl
      _ = reached >>= fun s => closeParen s.pending s.subtrees >>= shift rest := by
          rw [hshift, shift_closeParen]
      _ = ((reached >>= fun s => settle s.pending s.subtrees) >>= fun s =>
            closeParen s.pending s.subtrees) >>= shift rest := by
          simp only [bind_assoc, ← closeParen_eq]
      _ = build items subtrees >>= fun built => shift rest ⟨built, pending⟩ := by
          rw [hsettle, bind_assoc, bind_assoc]
          rfl
  | none =>
    intro subtrees pending rest
    rfl
  | @more front back xs ys first last ihf ihl =>
    intro subtrees pending rest
    have hlast : ∀ built, shift (back ++ rest) ⟨built, pending⟩ = _ := fun built =>
      ihl built pending rest
    rw [List.append_assoc, ihf, build_append, bind_assoc]
    simp only [hlast]
  | @single tokens items only ih =>
    intro subtrees pending hsettled
    refine ⟨build items subtrees >>= fun built => .ok ⟨built, pending⟩, fun rest => ?_, ?_⟩
    · rw [ih, bind_assoc]
      rfl
    · rw [bind_assoc]
      simp only [bind, Except.bind, settle_of_settled hsettled]
  | @join left right xs ys op front back ihf ihb =>
    intro subtrees pending hsettled
    obtain ⟨reached, hshift, hsettle⟩ := ihf subtrees pending hsettled
    refine ⟨build (xs ++ ys) subtrees >>= fun built => .ok ⟨built, .connective op :: pending⟩,
      fun rest => ?_, ?_⟩
    · have hback : ∀ built, shift (right ++ rest) ⟨built, .connective op :: pending⟩ = _ :=
        fun built => ihb built (.connective op :: pending) rest
      calc shift (left ++ .connective op :: right ++ rest) ⟨subtrees, pending⟩
          = (reached >>= fun s => settle s.pending s.subtrees) >>= fun settled =>
              shift (right ++ rest) ⟨settled.subtrees, .connective op :: settled.pending⟩ := by
            rw [List.append_assoc, hshift, List.cons_append, shift_connective, bind_assoc]
        _ = _ := by
            rw [hsettle, build_append, bind_assoc, bind_assoc, bind_assoc]
            simp only [bind, Except.bind, hback]
    · rw [build_append (xs ++ ys), bind_assoc, bind_assoc]
      simp only [build_singleton, Item.apply, bind, Except.bind, settle]
      cases build (xs ++ ys) subtrees with
      | error e => rfl
      | ok built =>
        cases hreduce : reduce op built with
        | error e => simp only [hreduce]
        | ok reduced => simp only [hreduce, settle_of_settled hsettled]

/-- The answer that a finished stack gives. -/
def answer : List Subtree → Except ParseError Expr
  | [subtree] => .ok subtree.expr
  | subtrees => .error (.malformed subtrees.length)

theorem ofTokens_eq {tokens : List Token} (hne : tokens ≠ []) :
    Expr.ofTokens tokens =
      (shift tokens ⟨[], []⟩ >>= fun s => finish s.pending s.subtrees) >>= answer := by
  rw [Expr.ofTokens, if_neg hne]
  cases shift tokens ⟨[], []⟩ with
  | error e => rfl
  | ok s =>
    simp only [bind, Except.bind]
    cases finish s.pending s.subtrees with
    | error e => rfl
    | ok subtrees =>
      cases subtrees with
      | nil => rfl
      | cons subtree below => cases below <;> rfl

/-- **On the wider grammar the parser's answer is what the items build.** -/
theorem ofTokens_of_loose {tokens : List Token} {items : List Item} (hne : tokens ≠ [])
    (h : Loose .chain tokens items) : Expr.ofTokens tokens = build items [] >>= answer := by
  obtain ⟨reached, hshift, hsettle⟩ := h.simulates [] [] (by simp [Settled])
  have hpass : shift tokens ⟨[], []⟩ = reached := by
    have hnil := hshift []
    rw [List.append_nil] at hnil
    rw [hnil]
    cases reached <;> rfl
  have hfinish : (reached >>= fun s => finish s.pending s.subtrees) =
      (reached >>= fun s => settle s.pending s.subtrees) >>= fun s =>
        finish s.pending s.subtrees := by
    simp only [bind_assoc, ← finish_eq]
  rw [ofTokens_eq hne, hpass, hfinish, hsettle]
  cases build items [] <;> rfl

/-- **On the items of one expression the parser's answer is that expression**, or that it has too
many levels. -/
theorem ofTokens_of_postorder {tokens : List Token} {e : Expr}
    (h : Loose .chain tokens e.postorder) :
    Expr.ofTokens tokens = if e.depth ≤ maxDepth then .ok e else .error .tooDeep := by
  have hne : tokens ≠ [] := fun hnil => e.postorder_ne_nil (h.items_eq_nil hnil)
  rw [ofTokens_of_loose hne h, build_postorder, e.depth_eq_height]
  by_cases hdeep : maxDepth < e.height
  · rw [if_pos hdeep, if_neg (by omega)]
    rfl
  · rw [if_neg hdeep, if_pos (by omega)]
    rfl

/-- **On the grammar the parser's answer is the derivation's expression**, or that it has too many
levels. -/
theorem ofTokens_of_derives {tokens : List Token} {e : Expr} (h : Derives .expr tokens e) :
    Expr.ofTokens tokens = if e.depth ≤ maxDepth then .ok e else .error .tooDeep :=
  ofTokens_of_postorder h.loose

/-! ## Nothing else is accepted -/

/-- What is not refused before the items are built is a chain. -/
theorem loose_or_refused {tokens : List Token} (hne : tokens ≠ []) :
    (∃ items, Loose .chain tokens items) ∨
      ∃ e, Expr.ofTokens tokens = .error e ∧ Refused tokens e := by
  have hpass := @Opened.pass tokens ⟨[], []⟩ [] (.outermost (.single .none))
  rw [ofTokens_eq hne]
  cases hshift : shift tokens ⟨[], []⟩ with
  | error e =>
    rw [hshift] at hpass
    exact .inr ⟨e, rfl, hpass⟩
  | ok reached =>
    rw [hshift] at hpass
    simp only [List.nil_append] at hpass
    cases hfinish : finish reached.pending reached.subtrees with
    | error e =>
      refine .inr ⟨e, by simp [bind, Except.bind, hfinish], ?_⟩
      rcases finish_eq_error hfinish with ⟨rfl, hopen⟩ | hjoin
      · obtain ⟨opened, hopened⟩ := Nat.exists_eq_add_one_of_ne_zero (Nat.ne_of_gt hopen)
        rw [hopened] at hpass
        exact .unclosed hpass
      · exact .joining tokens hjoin
    | ok finished =>
      rw [openCount_finish hfinish] at hpass
      cases hpass with
      | outermost group => exact .inl ⟨_, group⟩

/-- **What the parser accepts is derivable in the wider grammar.** -/
theorem loose_of_ofTokens {tokens : List Token} {e : Expr} (h : Expr.ofTokens tokens = .ok e) :
    ∃ items, Loose .chain tokens items := by
  have hne : tokens ≠ [] := fun hnil => by rw [hnil] at h; cases h
  rcases loose_or_refused hne with hloose | ⟨err, herr, -⟩
  · exact hloose
  · rw [h] at herr
    cases herr

theorem answer_eq_ok {subtrees : List Subtree} {e : Expr} (h : answer subtrees = .ok e) :
    ∃ height, subtrees = [⟨e, height⟩] := by
  unfold answer at h
  split at h
  · cases h; exact ⟨_, rfl⟩
  · cases h

theorem answer_eq_error {subtrees : List Subtree} {e : ParseError}
    (h : answer subtrees = .error e) :
    e = .malformed subtrees.length ∧ subtrees.length ≠ 1 := by
  unfold answer at h
  split at h
  · cases h
  · rename_i hne
    cases h
    refine ⟨rfl, fun hone => ?_⟩
    obtain ⟨subtree, rfl⟩ := List.length_eq_one_iff.1 hone
    exact hne subtree rfl

/-- **Every error of the parser is true of the tokens.** -/
theorem refused_of_ofTokens {tokens : List Token} {e : ParseError}
    (h : Expr.ofTokens tokens = .error e) : Refused tokens e := by
  by_cases hne : tokens = []
  · rw [hne] at h ⊢
    cases h
    exact .empty
  rcases loose_or_refused hne with ⟨items, hloose⟩ | ⟨err, herr, hrefused⟩
  · rw [ofTokens_of_loose hne hloose] at h
    cases hbuild : build items [] with
    | error err =>
      rw [hbuild] at h
      cases h
      exact .joining tokens (joinError_of_build hbuild)
    | ok built =>
      rw [hbuild] at h
      obtain ⟨rfl, hlength⟩ := answer_eq_error h
      exact .several hloose hbuild hlength
  · rw [h] at herr
    cases herr
    exact hrefused

/-- **The parser accepts a token list exactly if the wider grammar derives it with the items of one
expression**, which is then the answer and keeps the limit on levels. -/
theorem ofTokens_eq_ok_iff {tokens : List Token} {e : Expr} :
    Expr.ofTokens tokens = .ok e ↔ Loose .chain tokens e.postorder ∧ e.depth ≤ maxDepth := by
  constructor
  · intro h
    have hne : tokens ≠ [] := fun hnil => by rw [hnil] at h; cases h
    obtain ⟨items, hloose⟩ := loose_of_ofTokens h
    have hbuilds := ofTokens_of_loose hne hloose
    rw [h] at hbuilds
    cases hbuild : build items [] with
    | error err => rw [hbuild] at hbuilds; cases hbuilds
    | ok built =>
      rw [hbuild] at hbuilds
      obtain ⟨height, rfl⟩ := answer_eq_ok hbuilds.symm
      have hitems : e.postorder = items := by simpa [builtFrom] using build_eq_ok hbuild
      rw [← hitems] at hloose
      refine ⟨hloose, Classical.byContradiction fun hdeep => ?_⟩
      rw [ofTokens_of_postorder hloose, if_neg hdeep] at h
      cases h
  · rintro ⟨hloose, hdepth⟩
    rw [ofTokens_of_postorder hloose, if_pos hdepth]

/-- Of what the parser accepts, the grammar has what alternates. -/
theorem derives_iff_alternates {tokens : List Token} {e : Expr} (h : Expr.ofTokens tokens = .ok e) :
    (∃ tree, Derives .expr tokens tree) ↔ alternates .beforeOperand tokens = true :=
  ⟨fun ⟨_, htree⟩ => htree.alternates,
    fun ha => (ofTokens_eq_ok_iff.1 h).1.derives_of_alternates ha⟩

end Grammar

/-! ## Texts -/

/-- **Every text of the grammar parses to its derivation's expression**, or has too many levels;
there is no other answer. -/
theorem Expr.parse_of_derives {text : String} {e : Expr} (h : Derives .expr (Token.scan text) e) :
    Expr.parse text = if e.depth ≤ maxDepth then .ok e else .error .tooDeep :=
  ofTokens_of_derives h

theorem Expr.parse_of_derives_grouped :
    Derives .expr (Token.scan "a > 1 OR (b = 'x' AND c != 3)")
        (.join .or (.leaf "a > 1") (.join .and (.leaf "b = 'x'") (.leaf "c != 3"))) ∧
      Expr.parse "a > 1 OR (b = 'x' AND c != 3)" =
        .ok (.join .or (.leaf "a > 1") (.join .and (.leaf "b = 'x'") (.leaf "c != 3"))) := by
  have hscan : Token.scan "a > 1 OR (b = 'x' AND c != 3)" =
      [.word "a", .word ">", .word "1", .connective .or, .openParen, .word "b", .word "=",
        .word "'x'", .connective .and, .word "c", .word "!=", .word "3", .closeParen] := by
    decide +kernel
  have hderives : Derives .expr (Token.scan "a > 1 OR (b = 'x' AND c != 3)")
      (.join .or (.leaf "a > 1") (.join .and (.leaf "b = 'x'") (.leaf "c != 3"))) := by
    rw [hscan]
    exact .join .or (.single (.comparison "a" .greater "1"))
      (.parens (.join .and (.single (.comparison "b" .equal "'x'")) (.comparison "c" .notEqual "3")))
  refine ⟨hderives, ?_⟩
  rw [Expr.parse_of_derives hderives, Expr.depth_eq_height]
  rfl

/-- **The texts that parse, and those among them that the grammar has.** A text parses to an
expression exactly if the wider grammar derives its tokens with the items of that expression, which
keeps the limit on levels. Of these texts the grammar derives the ones in which operands and
connectives take turns, and no others. -/
theorem Expr.parse_eq_ok_iff_loose_and_derives_iff_alternates (text : String) (e : Expr) :
    (Expr.parse text = .ok e ↔
        Loose .chain (Token.scan text) e.postorder ∧ e.depth ≤ maxDepth) ∧
      (Expr.parse text = .ok e →
        ((∃ tree, Derives .expr (Token.scan text) tree) ↔
          alternates .beforeOperand (Token.scan text) = true)) :=
  ⟨ofTokens_eq_ok_iff, derives_iff_alternates⟩

theorem Expr.derives_of_parse_parenthesized :
    Expr.parse "(a > 1) OR b < 2" = .ok (.join .or (.leaf "a > 1") (.leaf "b < 2")) ∧
      alternates .beforeOperand (Token.scan "(a > 1) OR b < 2") = true ∧
      ∃ tree, Derives .expr (Token.scan "(a > 1) OR b < 2") tree := by
  have hparse : Expr.parse "(a > 1) OR b < 2" = .ok (.join .or (.leaf "a > 1") (.leaf "b < 2")) := by
    rfl
  have halternates : alternates .beforeOperand (Token.scan "(a > 1) OR b < 2") = true := by
    decide +kernel
  exact ⟨hparse, halternates,
    ((Expr.parse_eq_ok_iff_loose_and_derives_iff_alternates _ _).2 hparse).2 halternates⟩

/-- A connective behind the two comparisons that it joins is accepted, although nothing stands to
its right. -/
theorem Expr.parse_connective_behind_operands :
    Expr.parse "a > 1 b > 2 AND" = .ok (.join .and (.leaf "a > 1") (.leaf "b > 2")) ∧
      ¬ ∃ tree, Derives .expr (Token.scan "a > 1 b > 2 AND") tree := by
  refine ⟨by rfl, fun ⟨_, htree⟩ => ?_⟩
  have hnot : alternates .beforeOperand (Token.scan "a > 1 b > 2 AND") = false := by decide +kernel
  rw [htree.alternates] at hnot
  cases hnot

end BusinessRules
