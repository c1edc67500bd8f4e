import BusinessRules.Proofs.Comparisons

/-!
# What parse errors say

An error of the parser is a statement about the text. A pass stops at the first token that it cannot
deal with, so an error says something of the tokens up to that point, or, where the pass has come to
the end, of all of them.

Principal results: `Grammar.Refused.not_balanced` and `Grammar.Refused.surplus` (what is true of
refused tokens), and `Expr.true_of_parse_error`.
-/

namespace BusinessRules

open BusinessRules.Grammar BusinessRules.Parser

namespace Grammar

/-! ## Refused tokens -/

section Refused

variable {tokens : List Token}

theorem Refused.eq_nil (h : Refused tokens .empty) : tokens = [] := by
  cases h with
  | empty => rfl
  | joining _ hjoin => cases hjoin

theorem Refused.not_balanced (h : Refused tokens .unbalancedParentheses) : ¬ Balanced tokens := by
  intro hbalanced
  cases h with
  | @unopened read before behind =>
    have hcount := before.count_openParen
    have hle := hbalanced.count_le (read ++ [.closeParen]) behind (List.append_cons ..)
    rw [List.count_append, List.count_append, List.count_singleton_self,
      List.count_singleton, if_neg (by decide)] at hle
    omega
  | unclosed all =>
    have hcount := all.count_openParen
    have heq := hbalanced.count_eq
    omega
  | joining _ hjoin => cases hjoin

/-- Each expression on a stack has one comparison more than it has connectives. -/
theorem length_conditions_builtFrom (subtrees : List Subtree) :
    ((builtFrom subtrees).filterMap Item.condition?).length =
      subtrees.length + (builtFrom subtrees).count (.join .and) +
        (builtFrom subtrees).count (.join .or) := by
  induction subtrees with
  | nil => rfl
  | cons t rest ih =>
    rw [builtFrom_cons, List.filterMap_append, List.length_append, ih, Expr.filterMap_postorder,
      Expr.length_conditions, List.count_append, List.count_append, List.length_cons]
    omega

theorem Refused.surplus {subtrees : Nat} (h : Refused tokens (.malformed subtrees)) :
    Balanced tokens ∧ subtrees ≠ 1 ∧
      ∃ conditions, Compares tokens conditions ∧
        conditions.length = subtrees + tokens.count (.connective .and) +
          tokens.count (.connective .or) := by
  cases h with
  | joining _ hjoin => cases hjoin
  | @several _ items built group builds length_ne =>
    have hitems : builtFrom built = items := build_eq_ok builds
    have hlength := length_conditions_builtFrom built
    rw [hitems] at hlength
    refine ⟨group.balanced, length_ne, _, group.compares, ?_⟩
    rw [group.count_connective, group.count_connective]
    exact hlength

end Refused

end Grammar

namespace Expr

/-! ## Texts -/

/-- **Parse errors tell the truth.** A text is called empty exactly if it has no tokens. It is
called unbalanced only if some prefix has more closing than opening parentheses or their numbers
differ. A number of subtrees left over is reported only of a text whose parentheses are balanced and
whose words all belong to complete comparisons; it is the number of these less the number of
connectives, and not one. -/
theorem true_of_parse_error (text : String) :
    (parse text = .error .empty ↔ Token.scan text = []) ∧
      (parse text = .error .unbalancedParentheses → ¬ Balanced (Token.scan text)) ∧
      ∀ subtrees, parse text = .error (.malformed subtrees) →
        Balanced (Token.scan text) ∧ subtrees ≠ 1 ∧
          ∃ conditions, Compares (Token.scan text) conditions ∧
            conditions.length = subtrees + (Token.scan text).count (.connective .and) +
              (Token.scan text).count (.connective .or) := by
  refine ⟨⟨fun h => (refused_of_ofTokens h).eq_nil, fun h => ?_⟩,
    fun h => (refused_of_ofTokens h).not_balanced, fun _ h => (refused_of_ofTokens h).surplus⟩
  rw [parse, ofTokens, if_pos h]

theorem true_of_parse_error_left_over :
    parse " \t\u3000" = .error .empty ∧ Token.scan " \t\u3000" = [] ∧
      parse "a > 1) OR (b <" = .error .unbalancedParentheses ∧
      ¬ Balanced (Token.scan "a > 1) OR (b <") ∧
      parse "a > 1 b < 2 (c = 3 AND)" = .error (.malformed 2) ∧
      ∃ conditions, Compares (Token.scan "a > 1 b < 2 (c = 3 AND)") conditions ∧
        conditions.length = 3 := by
  have hempty : parse " \t\u3000" = .error .empty := by rfl
  have hunbalanced : parse "a > 1) OR (b <" = .error .unbalancedParentheses := by rfl
  have hsurplus : parse "a > 1 b < 2 (c = 3 AND)" = .error (.malformed 2) := by rfl
  obtain ⟨-, -, conditions, hcompares, hlength⟩ := (true_of_parse_error _).2.2 _ hsurplus
  exact ⟨hempty, (true_of_parse_error _).1.1 hempty, hunbalanced,
    (true_of_parse_error _).2.1 hunbalanced, hsurplus, conditions, hcompares, hlength⟩

end Expr

end BusinessRules
