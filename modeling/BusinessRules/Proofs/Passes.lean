import BusinessRules.Proofs.Postorder

/-!
# One pass over the tokens

A pass goes on as long as the tokens read so far can be cut at the parentheses that are open, each
piece being a chain of the wider grammar. Where it cannot go on, its error says what stands there.

* `Opened` — the tokens read so far, cut at the parentheses that are still open;
* `JoinError` — the errors of joining two expressions;
* `Refused` — the errors of the parser, each with what is true of the tokens.

Principal result: `Opened.pass` (the outcome of a pass, whether it ends or stops).
-/

namespace BusinessRules

open BusinessRules.Grammar BusinessRules.Parser

namespace Grammar

/-! ## Tokens cut at open parentheses -/

/-- The tokens read so far, cut at the open parentheses: each group is a chain. -/
inductive Opened : Nat → List Token → Prop where
  | outermost {tokens : List Token} {items : List Item} (group : Loose .chain tokens items) :
      Opened 0 tokens
  | inside {opened : Nat} {outer inner : List Token} {items : List Item}
      (around : Opened opened outer) (group : Loose .chain inner items) :
      Opened (opened + 1) (outer ++ .openParen :: inner)

theorem Loose.chain_primary {tokens more : List Token} {xs ys : List Item}
    (h : Loose .chain tokens xs) (hm : Loose .primary more ys) :
    ∃ items, Loose .chain (tokens ++ more) items := by
  cases h with
  | single only => exact ⟨_, .single (.more only hm)⟩
  | join op front back =>
    rw [List.append_assoc, List.cons_append]
    exact ⟨_, .join op front (.more back hm)⟩

theorem Opened.primary {opened : Nat} {tokens more : List Token} {items : List Item}
    (h : Opened opened tokens) (hm : Loose .primary more items) :
    Opened opened (tokens ++ more) := by
  cases h with
  | outermost group =>
    obtain ⟨_, hgroup⟩ := group.chain_primary hm
    exact .outermost hgroup
  | inside around group =>
    obtain ⟨_, hgroup⟩ := group.chain_primary hm
    rw [List.append_assoc, List.cons_append]
    exact .inside around hgroup

theorem Opened.connective {opened : Nat} {tokens : List Token} (h : Opened opened tokens)
    (op : Connective) : Opened opened (tokens ++ [.connective op]) := by
  cases h with
  | outermost group => exact .outermost (.join op group .none)
  | inside around group =>
    rw [List.append_assoc, List.cons_append]
    exact .inside around (.join op group .none)

theorem Opened.openParen {opened : Nat} {tokens : List Token} (h : Opened opened tokens) :
    Opened (opened + 1) (tokens ++ [.openParen]) :=
  .inside h (.single .none)

theorem Opened.closeParen {opened : Nat} {tokens : List Token} (h : Opened (opened + 1) tokens) :
    Opened opened (tokens ++ [.closeParen]) := by
  cases h with
  | inside around group =>
    rw [List.append_assoc, List.cons_append]
    exact around.primary (.parens group)

/-! ## Errors -/

/-- The errors of joining two expressions. -/
inductive JoinError : ParseError → Prop where
  | tooDeep : JoinError .tooDeep
  | missingOperand (op : Connective) : JoinError (.missingOperand op)

/-- Why a token list has no expression. Apart from the errors of joining, each error comes with what
it says of the tokens. -/
inductive Refused : List Token → ParseError → Prop where
  | empty : Refused [] .empty
  | unopened {read : List Token} (before : Opened 0 read) (behind : List Token) :
      Refused (read ++ .closeParen :: behind) .unbalancedParentheses
  | unclosed {opened : Nat} {tokens : List Token} (all : Opened (opened + 1) tokens) :
      Refused tokens .unbalancedParentheses
  | incomplete (read : List Token) (field : String) :
      Refused (read ++ [.word field]) (.incompleteComparison field)
  | unknown (read : List Token) (field : String) {symbol : Token} (behind : List Token)
      (not_comparator : ∀ comparator, symbol ≠ .word (Comparator.symbol comparator)) :
      Refused (read ++ .word field :: symbol :: behind) (.unknownComparator field symbol.text)
  | valueless (read : List Token) (field : String) (comparator : Comparator) {behind : List Token}
      (no_value : ∀ value rest, behind ≠ .word value :: rest) :
      Refused (read ++ .word field :: .word comparator.symbol :: behind)
        (.missingValue field comparator)
  | joining (tokens : List Token) {e : ParseError} (h : JoinError e) : Refused tokens e
  | several {tokens : List Token} {items : List Item} {built : List Subtree}
      (group : Loose .chain tokens items) (builds : build items [] = .ok built)
      (length_ne : built.length ≠ 1) : Refused tokens (.malformed built.length)

section Joining

variable {op : Connective} {subtrees : List Subtree} {pending : List Pending} {e : ParseError}

theorem joinError_of_reduce (h : reduce op subtrees = .error e) : JoinError e := by
  simp only [reduce] at h
  split at h
  · split at h
    · cases h
      exact .tooDeep
    · cases h
  · cases h
    exact .missingOperand op

theorem joinError_of_settle (h : settle pending subtrees = .error e) : JoinError e := by
  fun_induction settle pending subtrees with
  | case1 subtrees op pending err herr =>
    cases h
    exact joinError_of_reduce herr
  | case2 subtrees op pending reduced hred ih => exact ih h
  | case3 pending subtrees hne => cases h

theorem joinError_of_build {items : List Item} (h : build items subtrees = .error e) :
    JoinError e := by
  induction items generalizing subtrees with
  | nil => cases h
  | cons item rest ih =>
    rw [build] at h
    cases happly : item.apply subtrees with
    | error err =>
      rw [happly] at h
      cases h
      cases item with
      | leaf condition => cases happly
      | join op => exact joinError_of_reduce happly
    | ok applied =>
      rw [happly] at h
      exact ih h

end Joining

/-! ## Open parentheses on the stack -/

/-- The number of open parentheses on the stack of what is pending. -/
def openCount (pending : List Pending) : Nat := pending.count .openParen

theorem openCount_settle {pending : List Pending} {subtrees : List Subtree} {s : Stacks}
    (h : settle pending subtrees = .ok s) : openCount s.pending = openCount pending := by
  fun_induction settle pending subtrees with
  | case1 subtrees op pending e he => cases h
  | case2 subtrees op pending reduced hred ih => rw [ih h, openCount, openCount]; simp
  | case3 pending subtrees hne => cases h; rfl

theorem openCount_closeParen {pending : List Pending} {subtrees : List Subtree} {s : Stacks}
    (h : closeParen pending subtrees = .ok s) : openCount pending = openCount s.pending + 1 := by
  fun_induction Parser.closeParen pending subtrees with
  | case1 subtrees => cases h
  | case2 subtrees pending => cases h; simp [openCount]
  | case3 subtrees op pending e he => cases h
  | case4 subtrees op pending reduced hred ih => rw [← ih h, openCount, openCount]; simp

theorem openCount_finish {pending : List Pending} {subtrees finished : List Subtree}
    (h : finish pending subtrees = .ok finished) : openCount pending = 0 := by
  fun_induction finish pending subtrees with
  | case1 subtrees => rfl
  | case2 subtrees pending => cases h
  | case3 subtrees op pending e he => cases h
  | case4 subtrees op pending reduced hred ih => rw [← ih h, openCount, openCount]; simp

theorem closeParen_eq_error {pending : List Pending} {subtrees : List Subtree} {e : ParseError}
    (h : Parser.closeParen pending subtrees = .error e) :
    e = .unbalancedParentheses ∧ openCount pending = 0 ∨ JoinError e := by
  fun_induction Parser.closeParen pending subtrees with
  | case1 subtrees =>
    cases h
    exact .inl ⟨rfl, rfl⟩
  | case2 subtrees pending => cases h
  | case3 subtrees op pending err herr =>
    cases h
    exact .inr (joinError_of_reduce herr)
  | case4 subtrees op pending reduced hred ih => simpa [openCount] using ih h

theorem finish_eq_error {pending : List Pending} {subtrees : List Subtree} {e : ParseError}
    (h : finish pending subtrees = .error e) :
    e = .unbalancedParentheses ∧ 0 < openCount pending ∨ JoinError e := by
  fun_induction finish pending subtrees with
  | case1 subtrees => cases h
  | case2 subtrees pending =>
    cases h
    exact .inl ⟨rfl, by simp [openCount]⟩
  | case3 subtrees op pending err herr =>
    cases h
    exact .inr (joinError_of_reduce herr)
  | case4 subtrees op pending reduced hred ih => simpa [openCount] using ih h

/-! ## The pass -/

theorem comparatorAfter_eq_ok {field : String} {token : Token} {comparator : Comparator}
    (h : comparatorAfter field token = .ok comparator) : token = .word comparator.symbol := by
  unfold comparatorAfter at h
  split at h
  · split at h
    · rename_i hsymbol
      cases h
      rw [Comparator.ofSymbol?_eq_some.1 hsymbol]
    · cases h
  · cases h

theorem comparatorAfter_eq_error {field : String} {token : Token} {e : ParseError}
    (h : comparatorAfter field token = .error e) :
    e = .unknownComparator field token.text ∧
      ∀ comparator, token ≠ .word (Comparator.symbol comparator) := by
  unfold comparatorAfter at h
  split at h
  · rename_i w
    split at h
    · cases h
    · rename_i hnone
      cases h
      refine ⟨rfl, fun comparator hword => ?_⟩
      rw [Comparator.ofSymbol?_eq_some.2 (Token.word.inj hword).symm] at hnone
      cases hnone
  · rename_i hne
    cases h
    exact ⟨rfl, fun comparator => hne _⟩

/-- **A pass keeps the tokens read so far cut at the parentheses that are still open**, and where it
stops, its error says what stands there. -/
theorem Opened.pass {tokens : List Token} {s : Stacks} {seen : List Token}
    (h : Opened (openCount s.pending) seen) :
    match shift tokens s with
    | .ok reached => Opened (openCount reached.pending) (seen ++ tokens)
    | .error e => Refused (seen ++ tokens) e := by
  -- along the pass: what it has read goes over from `tokens` to `seen`
  fun_induction Parser.shift tokens s generalizing seen with
  | case1 s => rwa [List.append_nil]
  | case2 rest s ih =>
    rw [List.append_cons]
    refine ih ?_
    simpa [openCount] using h.openParen
  | case3 rest s e he =>
    rcases closeParen_eq_error he with ⟨rfl, hnone⟩ | hjoin
    · rw [hnone] at h
      exact .unopened h rest
    · exact .joining _ hjoin
  | case4 rest s closed hclosed ih =>
    rw [List.append_cons]
    refine ih (Opened.closeParen ?_)
    rwa [← openCount_closeParen hclosed]
  | case5 op rest s e he => exact .joining _ (joinError_of_settle he)
  | case6 op rest s settled hsettled ih =>
    rw [List.append_cons]
    refine ih ?_
    have hcount : openCount (.connective op :: settled.pending) = openCount s.pending := by
      rw [← openCount_settle hsettled]
      simp [openCount]
    rw [hcount]
    exact h.connective op
  | case7 field s => exact .incomplete seen field
  | case8 field symbol s e he =>
    obtain ⟨rfl, hnot⟩ := comparatorAfter_eq_error he
    exact .unknown seen field [] hnot
  | case9 field symbol s comparator hsymbol =>
    rw [comparatorAfter_eq_ok hsymbol]
    exact .valueless seen field comparator (by simp)
  | case10 field symbol operand rest s e he =>
    obtain ⟨rfl, hnot⟩ := comparatorAfter_eq_error he
    exact .unknown seen field _ hnot
  | case11 field symbol rest s comparator hsymbol value ih =>
    rw [comparatorAfter_eq_ok hsymbol]
    have hmore := ih (h.primary (.comparison field comparator value))
    rwa [List.append_assoc] at hmore
  | case12 field symbol rest s comparator hsymbol operand hne =>
    rw [comparatorAfter_eq_ok hsymbol]
    exact .valueless seen field comparator fun value more hword =>
      hne value (List.cons.inj hword).1

end Grammar

end BusinessRules
