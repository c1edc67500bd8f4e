import BusinessRules.Proofs.Parsing

/-!
# Parentheses

* `Balanced` — every parenthesis of a token list has its partner, the opening one first.

Principal results: `Loose.balanced` (what the wider grammar derives is balanced) and
`Opened.count_openParen` (tokens read so far have as many parentheses open as the pass counts).
-/

namespace BusinessRules

namespace Grammar

/-- No closing parenthesis stands before its opening one, and neither kind outnumbers the other. -/
structure Balanced (tokens : List Token) : Prop where
  count_le : ∀ front back, tokens = front ++ back →
    front.count .closeParen ≤ front.count .openParen
  count_eq : tokens.count .closeParen = tokens.count .openParen

theorem balanced_of_forall_ne {tokens : List Token}
    (h : ∀ token ∈ tokens, token ≠ .openParen ∧ token ≠ .closeParen) : Balanced tokens := by
  have hopen : .openParen ∉ tokens := fun hmem => (h _ hmem).1 rfl
  have hclose : .closeParen ∉ tokens := fun hmem => (h _ hmem).2 rfl
  refine ⟨?_, by rw [List.count_eq_zero.2 hopen, List.count_eq_zero.2 hclose]⟩
  rintro front back rfl
  have hfront : .closeParen ∉ front := fun hmem => hclose (List.mem_append_left back hmem)
  rw [List.count_eq_zero.2 hfront]
  exact Nat.zero_le _

theorem Balanced.append {xs ys : List Token} (hx : Balanced xs) (hy : Balanced ys) :
    Balanced (xs ++ ys) := by
  refine ⟨fun front back hsplit => ?_, ?_⟩
  · rcases List.append_eq_append_iff.1 hsplit with ⟨more, rfl, hys⟩ | ⟨behind, hxs, -⟩
    · have hmore := hy.count_le more back hys
      rw [List.count_append, List.count_append, hx.count_eq]
      omega
    · exact hx.count_le front behind hxs
  · rw [List.count_append, List.count_append, hx.count_eq, hy.count_eq]

theorem Balanced.parens {tokens : List Token} (h : Balanced tokens) :
    Balanced (.openParen :: (tokens ++ [.closeParen])) := by
  refine ⟨fun front back hsplit => ?_, ?_⟩
  · cases front with
    | nil => simp
    | cons first front =>
      obtain ⟨rfl, hinner⟩ := List.cons.inj hsplit
      have hone : front.count .closeParen ≤ front.count .openParen + 1 := by
        rcases List.append_eq_append_iff.1 hinner with ⟨more, rfl, hclose⟩ | ⟨behind, htokens, -⟩
        · have hmore : more.count .closeParen ≤ 1 := by
            have hcount := congrArg (List.count .closeParen) hclose
            rw [List.count_singleton_self, List.count_append] at hcount
            omega
          rw [List.count_append, List.count_append, h.count_eq]
          omega
        · exact Nat.le_succ_of_le (h.count_le front behind htokens)
      simpa using hone
  · simp [h.count_eq]

/-- **What the wider grammar derives is balanced.** -/
theorem Loose.balanced {segment : Segment} {tokens : List Token} {items : List Item}
    (h : Loose segment tokens items) : Balanced tokens := by
  induction h with
  | comparison field comparator value => exact balanced_of_forall_ne (by simp)
  | parens inner ih => exact ih.parens
  | none => exact balanced_of_forall_ne (by simp)
  | more first last ihf ihl => exact ihf.append ihl
  | single only ih => exact ih
  | @join left right xs ys op front back ihf ihb =>
    have hop : Balanced [Token.connective op] := balanced_of_forall_ne (by simp)
    exact ihf.append (hop.append ihb)

/-- **The tokens read so far have as many opening parentheses in excess as are still open.** -/
theorem Opened.count_openParen {opened : Nat} {tokens : List Token} (h : Opened opened tokens) :
    tokens.count .openParen = tokens.count .closeParen + opened := by
  induction h with
  | outermost group => rw [group.balanced.count_eq, Nat.add_zero]
  | inside around group ih =>
    rw [List.count_append, List.count_append, List.count_cons_self,
      List.count_cons_of_ne (by simp), ih, group.balanced.count_eq]
    omega

end Grammar

end BusinessRules
