import BusinessRules.Expr.Parser

/-!
# The grammar of rule text

Over tokens, with both connectives binding equally and to the left:

    expr    ::= primary | expr (AND | OR) primary
    primary ::= field comparator value | '(' expr ')'

* `Derives` — the token lists of each phrase, with the expression that a derivation builds;
* `alternates` — operands and connectives take turns, which is decided in one pass;
* `Loose` — a wider grammar: between connectives any number of primaries may stand, none included.
  Its token lists come with the comparisons and connectives in the order in which a reader with two
  stacks deals with them;
* `Expr.postorder` — that order for an expression.

Principal results: `Derives.loose` (the wider grammar is wider), `Derives.alternates` and
`Loose.derives_of_alternates` (what it has in excess does not alternate).
-/

namespace BusinessRules

open BusinessRules.Parser (comparisonText)

namespace Grammar

/-! ## Derivations -/

/-- The phrases of rule text. -/
inductive Phrase where
  | expr
  | primary
  deriving DecidableEq, Repr

/-- A token list is derivable as a phrase; the derivation builds the expression. Parentheses add
nothing to it. -/
inductive Derives : Phrase → List Token → Expr → Prop where
  | comparison (field : String) (comparator : Comparator) (value : String) :
      Derives .primary [.word field, .word comparator.symbol, .word value]
        (.leaf (comparisonText field comparator value))
  | parens {tokens : List Token} {e : Expr} (inner : Derives .expr tokens e) :
      Derives .primary (.openParen :: (tokens ++ [.closeParen])) e
  | single {tokens : List Token} {e : Expr} (only : Derives .primary tokens e) :
      Derives .expr tokens e
  | join {left right : List Token} {x y : Expr} (op : Connective) (front : Derives .expr left x)
      (back : Derives .primary right y) :
      Derives .expr (left ++ .connective op :: right) (.join op x y)

/-! ## Alternation -/

/-- What a text may go on with. -/
inductive Place where
  /-- an operand has to follow -/
  | beforeOperand
  /-- an operand has just ended -/
  | behindOperand
  deriving DecidableEq, Repr

/-- Operands and connectives take turns: each connective has an operand directly before and
directly behind it, no two operands are neighbours and no pair of parentheses is empty. -/
def alternates : Place → List Token → Bool
  | .beforeOperand, .openParen :: rest => alternates .beforeOperand rest
  | .beforeOperand, .word _ :: .word _ :: .word _ :: rest => alternates .behindOperand rest
  | .behindOperand, .closeParen :: rest => alternates .behindOperand rest
  | .behindOperand, .connective _ :: rest => alternates .beforeOperand rest
  | .behindOperand, [] => true
  | _, _ => false

/-- After a derivable phrase an operand has just ended. -/
theorem Derives.alternates_append {phrase : Phrase} {tokens : List Token} {e : Expr}
    (h : Derives phrase tokens e) (rest : List Token) :
    alternates .beforeOperand (tokens ++ rest) = alternates .behindOperand rest := by
  induction h generalizing rest with
  | comparison field comparator value => rfl
  | parens inner ih =>
    rw [List.cons_append, List.append_assoc, alternates, ih]
    rfl
  | single only ih => exact ih rest
  | join op front back ihf ihb =>
    rw [List.append_assoc, ihf, List.cons_append, alternates, ihb]

theorem Derives.alternates {tokens : List Token} {e : Expr} (h : Derives .expr tokens e) :
    alternates .beforeOperand tokens = true := by
  simpa [Grammar.alternates] using h.alternates_append []

/-! ## Reading order -/

/-- A comparison or a connective, in the order of reading. -/
inductive Item where
  | leaf (condition : String)
  | join (op : Connective)
  deriving DecidableEq, Repr

end Grammar

open Grammar

/-- Each connective behind the two expressions that it joins. -/
def Expr.postorder : Expr → List Item
  | .leaf condition => [.leaf condition]
  | .join op left right => left.postorder ++ right.postorder ++ [.join op]

theorem Expr.postorder_ne_nil (e : Expr) : e.postorder ≠ [] := by
  cases e <;> simp [postorder]

namespace Grammar

/-- The segments of text in the wider grammar. -/
inductive Segment where
  /-- runs with connectives between them -/
  | chain
  /-- primaries next to each other, perhaps none -/
  | run
  | primary
  deriving DecidableEq, Repr

/-- The wider grammar. A connective comes in reading order behind the run to its right. -/
inductive Loose : Segment → List Token → List Item → Prop where
  | comparison (field : String) (comparator : Comparator) (value : String) :
      Loose .primary [.word field, .word comparator.symbol, .word value]
        [.leaf (comparisonText field comparator value)]
  | parens {tokens : List Token} {items : List Item} (inner : Loose .chain tokens items) :
      Loose .primary (.openParen :: (tokens ++ [.closeParen])) items
  | none : Loose .run [] []
  | more {front back : List Token} {xs ys : List Item} (first : Loose .run front xs)
      (last : Loose .primary back ys) : Loose .run (front ++ back) (xs ++ ys)
  | single {tokens : List Token} {items : List Item} (only : Loose .run tokens items) :
      Loose .chain tokens items
  | join {left right : List Token} {xs ys : List Item} (op : Connective)
      (front : Loose .chain left xs) (back : Loose .run right ys) :
      Loose .chain (left ++ .connective op :: right) (xs ++ ys ++ [.join op])

/-- The segment that a phrase is a special case of. -/
def Phrase.segment : Phrase → Segment
  | .expr => .chain
  | .primary => .primary

theorem Loose.run_of_primary {tokens : List Token} {items : List Item}
    (h : Loose .primary tokens items) : Loose .run tokens items :=
  .more .none h

/-- **The wider grammar derives what the grammar derives, in postorder.** -/
theorem Derives.loose {phrase : Phrase} {tokens : List Token} {e : Expr}
    (h : Derives phrase tokens e) : Loose phrase.segment tokens e.postorder := by
  induction h with
  | comparison field comparator value => exact .comparison field comparator value
  | parens inner ih => exact .parens ih
  | single only ih => exact .single (.run_of_primary ih)
  | join op front back ihf ihb => exact .join op ihf (.run_of_primary ihb)

theorem Loose.items_eq_nil {segment : Segment} {tokens : List Token} {items : List Item}
    (h : Loose segment tokens items) (ht : tokens = []) : items = [] := by
  induction h with
  | comparison | parens | join => simp at ht
  | none => rfl
  | more first last ihf ihl =>
    obtain ⟨hfront, hback⟩ := List.append_eq_nil_iff.1 ht
    rw [ihf hfront, ihl hback, List.append_nil]
  | single only ih => exact ih ht

/-! ## What the wider grammar has in excess -/

/-- What alternation leaves of a segment of the wider grammar: a phrase of the grammar, or, where
an operand is still due, nothing but the chain before it. -/
def Alternating : Segment → List Token → List Token → Prop
  | .primary, tokens, rest =>
    (∃ e, Derives .primary tokens e) ∧ alternates .behindOperand rest = true
  | .run, tokens, rest =>
    (tokens = [] ∧ alternates .beforeOperand rest = true) ∨
      ((∃ e, Derives .primary tokens e) ∧ alternates .behindOperand rest = true)
  | .chain, tokens, rest =>
    alternates .beforeOperand rest = true ∨
      ((∃ e, Derives .expr tokens e) ∧ alternates .behindOperand rest = true)

theorem Loose.not_alternates_behind {tokens : List Token} {items : List Item}
    (h : Loose .primary tokens items) (rest : List Token) :
    alternates .behindOperand (tokens ++ rest) = false := by
  cases h <;> rfl

theorem Loose.alternating {segment : Segment} {tokens : List Token} {items : List Item}
    (h : Loose segment tokens items) (rest : List Token)
    (ha : alternates .beforeOperand (tokens ++ rest) = true) : Alternating segment tokens rest := by
  induction h generalizing rest with
  | comparison field comparator value => exact ⟨⟨_, .comparison field comparator value⟩, ha⟩
  | parens inner ih =>
    rw [List.cons_append, List.append_assoc] at ha
    rcases ih _ ha with hbefore | ⟨⟨e, he⟩, hbehind⟩
    · exact absurd hbefore (by simp [alternates])
    · exact ⟨⟨e, .parens he⟩, hbehind⟩
  | none => exact .inl ⟨rfl, ha⟩
  | more first last ihf ihl =>
    rw [List.append_assoc] at ha
    rcases ihf _ ha with ⟨rfl, hbefore⟩ | ⟨-, hbehind⟩
    · exact .inr (ihl rest hbefore)
    · exact absurd hbehind (by simp [last.not_alternates_behind])
  | single only ih =>
    rcases ih rest ha with ⟨-, hbefore⟩ | ⟨⟨e, he⟩, hbehind⟩
    · exact .inl hbefore
    · exact .inr ⟨⟨e, .single he⟩, hbehind⟩
  | join op front back ihf ihb =>
    rw [List.append_assoc, List.cons_append] at ha
    rcases ihf _ ha with hbefore | ⟨⟨x, hx⟩, hbehind⟩
    · exact absurd hbefore (by simp [alternates])
    · rcases ihb rest hbehind with ⟨-, hbefore⟩ | ⟨⟨y, hy⟩, hbehind⟩
      · exact .inl hbefore
      · exact .inr ⟨⟨_, .join op hx hy⟩, hbehind⟩

/-- **In a chain of the wider grammar that alternates, the grammar is kept.** -/
theorem Loose.derives_of_alternates {tokens : List Token} {items : List Item}
    (h : Loose .chain tokens items) (ha : alternates .beforeOperand tokens = true) :
    ∃ e, Derives .expr tokens e := by
  rcases h.alternating [] (by rwa [List.append_nil]) with hbefore | ⟨he, -⟩
  · exact absurd hbefore (by simp [alternates])
  · exact he

end Grammar

end BusinessRules
