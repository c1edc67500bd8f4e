import BusinessRules.Expr.Parser

/-!
# The tokens of joined texts

A blank and a parenthesis cut a text: what stands before and what stands behind are scanned as if
each were alone. Between cuts a run of characters is one token.

* `IsPlain`, `IsWord` — the characters of a run, and the runs that are no connective;
* `tokensOf` — `Token.scan` on a list of characters;
* `Spells` — the characters of one token and where it ends.

Principal results: `tokensOf_blank`, `tokensOf_openParen`, `tokensOf_closeParen` (the cuts),
`tokensOf_run` (one run), `isWord_of_mem_scan` (every word of a text is a word) and
`tokensOf_cases` (a text starts with its first token).
-/

namespace BusinessRules

/-- A character that neither separates words nor stands alone. -/
def IsPlain (c : Char) : Prop := Text.isBlank c = false ∧ c ≠ '(' ∧ c ≠ ')'

instance : DecidablePred IsPlain := fun _ => inferInstanceAs (Decidable (_ ∧ _ ∧ _))

/-- A text that is scanned as one word. -/
structure IsWord (w : String) : Prop where
  ne_empty : w ≠ ""
  plain : ∀ c ∈ w.toList, IsPlain c
  ne_and : w ≠ "AND"
  ne_or : w ≠ "OR"

instance : DecidablePred IsWord := fun w =>
  decidable_of_iff (w ≠ "" ∧ w.toList.all (IsPlain ·) ∧ w ≠ "AND" ∧ w ≠ "OR")
    ⟨fun ⟨hne, hplain, hand, hor⟩ => ⟨hne, by simpa using hplain, hand, hor⟩,
      fun ⟨hne, hplain, hand, hor⟩ => ⟨hne, by simpa using hplain, hand, hor⟩⟩

namespace Token

/-! ## Cuts -/

/-- The state with older tokens below its own. -/
def Scan.onto (s : Scan) (older : List Token) : Scan := ⟨s.tokens ++ older, s.run⟩

theorem Scan.endRun_run (s : Scan) : s.endRun.run = [] := by
  unfold Scan.endRun
  split
  · assumption
  · rfl

theorem Scan.endRun_onto (s : Scan) (older : List Token) :
    (s.onto older).endRun = s.endRun.onto older := by
  obtain ⟨tokens, run⟩ := s
  cases run <;> rfl

theorem Scan.step_onto (s : Scan) (older : List Token) (c : Char) :
    (s.onto older).step c = (s.step c).onto older := by
  unfold Scan.step Scan.add
  split
  · exact s.endRun_onto older
  · split
    · rw [s.endRun_onto older]; rfl
    · split
      · rw [s.endRun_onto older]; rfl
      · rfl

theorem Scan.foldl_step_onto (cs : List Char) (s : Scan) (older : List Token) :
    cs.foldl Scan.step (s.onto older) = (cs.foldl Scan.step s).onto older := by
  induction cs generalizing s with
  | nil => rfl
  | cons c rest ih => rw [List.foldl_cons, Scan.step_onto, ih, List.foldl_cons]

/-- The tokens of a list of characters. -/
def tokensOf (cs : List Char) : List Token :=
  (cs.foldl Scan.step ⟨[], []⟩).endRun.tokens.reverse

theorem scan_eq_tokensOf (text : String) : scan text = tokensOf text.toList := rfl

@[simp] theorem tokensOf_nil : tokensOf [] = [] := rfl

/-- A character that ends the run in hand cuts a text in two. -/
theorem tokensOf_cut (c : Char) (added : List Token)
    (h : ∀ s : Scan, s.step c = ⟨added ++ s.endRun.tokens, []⟩) (before after : List Char) :
    tokensOf (before ++ c :: after) = tokensOf before ++ (added.reverse ++ tokensOf after) := by
  have hstart : (⟨added ++ (before.foldl Scan.step ⟨[], []⟩).endRun.tokens, []⟩ : Scan) =
      (⟨[], []⟩ : Scan).onto (added ++ (before.foldl Scan.step ⟨[], []⟩).endRun.tokens) := rfl
  unfold tokensOf
  rw [List.foldl_append, List.foldl_cons, h, hstart, Scan.foldl_step_onto, Scan.endRun_onto]
  simp only [Scan.onto, List.reverse_append, List.append_assoc]

theorem tokensOf_blank {c : Char} (hc : Text.isBlank c = true) (before after : List Char) :
    tokensOf (before ++ c :: after) = tokensOf before ++ tokensOf after := by
  refine tokensOf_cut c [] (fun s => ?_) before after
  have hrun := s.endRun_run
  rw [Scan.step, if_pos hc]
  cases hs : s.endRun
  simp_all

theorem tokensOf_openParen (before after : List Char) :
    tokensOf (before ++ '(' :: after) = tokensOf before ++ .openParen :: tokensOf after :=
  tokensOf_cut '(' [.openParen] (fun _ => rfl) before after

theorem tokensOf_closeParen (before after : List Char) :
    tokensOf (before ++ ')' :: after) = tokensOf before ++ .closeParen :: tokensOf after :=
  tokensOf_cut ')' [.closeParen] (fun _ => rfl) before after

/-! ## Runs -/

theorem Scan.step_plain (s : Scan) {c : Char} (hc : IsPlain c) :
    s.step c = ⟨s.tokens, c :: s.run⟩ := by
  obtain ⟨hblank, hopen, hclose⟩ := hc
  rw [Scan.step, if_neg (by simp [hblank]), if_neg hopen, if_neg hclose]

theorem Scan.foldl_step_plain {cs : List Char} (h : ∀ c ∈ cs, IsPlain c) (s : Scan) :
    cs.foldl Scan.step s = ⟨s.tokens, cs.reverse ++ s.run⟩ := by
  induction cs generalizing s with
  | nil => rfl
  | cons c rest ih =>
    rw [List.foldl_cons, s.step_plain (h c (by simp)), ih (fun d hd => h d (by simp [hd]))]
    simp

/-- A run of plain characters is one token. -/
theorem tokensOf_run {cs : List Char} (hne : cs ≠ []) (h : ∀ c ∈ cs, IsPlain c) :
    tokensOf cs = [ofWord (String.ofList cs)] := by
  rw [tokensOf, Scan.foldl_step_plain h, List.append_nil, Scan.endRun]
  cases hrev : cs.reverse with
  | nil => exact absurd (List.reverse_eq_nil_iff.1 hrev) hne
  | cons c rest => simp only [← hrev, List.reverse_reverse, List.reverse_singleton]

theorem ofWord_of_isWord {w : String} (h : IsWord w) : ofWord w = .word w := by
  have hnone : Connective.ofSymbol? w = none := by
    rw [Connective.ofSymbol?, if_neg h.ne_and, if_neg h.ne_or]
  rw [ofWord, hnone]

theorem scan_of_isWord {w : String} (h : IsWord w) : scan w = [.word w] := by
  have hne : w.toList ≠ [] := fun hnil => h.ne_empty (String.toList_inj.1 (by simpa using hnil))
  rw [scan_eq_tokensOf, tokensOf_run hne h.plain, String.ofList_toList, ofWord_of_isWord h]

/-! ## Words -/

/-- Every word among the tokens is a word, and the run in hand may become one. -/
structure Scan.Sound (s : Scan) : Prop where
  words : ∀ w, .word w ∈ s.tokens → IsWord w
  run : ∀ c ∈ s.run, IsPlain c

theorem isWord_of_ofWord_eq {cs : List Char} {w : String} (hne : cs ≠ [])
    (hplain : ∀ c ∈ cs, IsPlain c) (h : ofWord (String.ofList cs) = .word w) : IsWord w := by
  unfold ofWord at h
  split at h
  · cases h
  · rename_i hnone
    cases h
    refine ⟨fun he => hne ?_, ?_, fun he => ?_, fun he => ?_⟩
    · simpa using congrArg String.toList he
    · simpa using hplain
    · rw [he] at hnone; simp [Connective.ofSymbol?] at hnone
    · rw [he] at hnone; simp [Connective.ofSymbol?] at hnone

theorem Scan.Sound.endRun {s : Scan} (h : s.Sound) : s.endRun.Sound := by
  unfold Scan.endRun
  split
  · exact h
  · rename_i c cs hrun
    refine ⟨fun w hw => ?_, by simp⟩
    rcases List.mem_cons.1 hw with hw | hw
    · have hplain : ∀ d ∈ (c :: cs).reverse, IsPlain d := fun d hd =>
        h.run d (by rw [hrun]; exact List.mem_reverse.1 hd)
      exact isWord_of_ofWord_eq (by simp) hplain hw.symm
    · exact h.words w hw

theorem Scan.Sound.add {s : Scan} (h : s.Sound) {token : Token} (hne : ∀ w, token ≠ .word w) :
    (s.add token).Sound := by
  refine ⟨fun w hw => ?_, by simp [Scan.add]⟩
  rcases List.mem_cons.1 hw with hw | hw
  · exact absurd hw.symm (hne w)
  · exact h.endRun.words w hw

theorem Scan.Sound.step {s : Scan} (h : s.Sound) (c : Char) : (s.step c).Sound := by
  unfold Scan.step
  split
  · exact h.endRun
  · rename_i hblank
    split
    · exact h.add (by simp)
    · rename_i hopen
      split
      · exact h.add (by simp)
      · rename_i hclose
        refine ⟨h.words, fun d hd => ?_⟩
        rcases List.mem_cons.1 hd with rfl | hd
        · exact ⟨by simpa using hblank, hopen, hclose⟩
        · exact h.run d hd

theorem Scan.Sound.foldl {s : Scan} (h : s.Sound) (cs : List Char) :
    (cs.foldl Scan.step s).Sound := by
  induction cs generalizing s with
  | nil => exact h
  | cons c rest ih => exact ih (h.step c)

/-- **Every word among the tokens of a text is plain throughout and no connective.** -/
theorem isWord_of_mem_scan {text w : String} (h : .word w ∈ scan text) : IsWord w := by
  have hsound : (text.toList.foldl Scan.step ⟨[], []⟩).Sound :=
    Scan.Sound.foldl ⟨by simp, by simp⟩ _
  exact hsound.endRun.words w (List.mem_reverse.1 h)

theorem isWord_of_scan_eq {text w : String} {tokens : List Token} (h : scan text = tokens)
    (hw : .word w ∈ tokens) : IsWord w :=
  isWord_of_mem_scan (h ▸ hw)

/-! ## The first token -/

/-- The characters that spell a token at the start of a text, with the text behind them. A word
ends where no plain character follows. -/
inductive Spells : List Char → Token → List Char → Prop where
  | openParen (after : List Char) : Spells ['('] .openParen after
  | closeParen (after : List Char) : Spells [')'] .closeParen after
  | run {cs after : List Char} (ne_nil : cs ≠ []) (plain : ∀ c ∈ cs, IsPlain c)
      (stops : ∀ c ∈ after.head?, ¬ IsPlain c) : Spells cs (ofWord (String.ofList cs)) after

theorem tokensOf_cons_blank {c : Char} (hc : Text.isBlank c = true) (cs : List Char) :
    tokensOf (c :: cs) = tokensOf cs :=
  tokensOf_blank hc [] cs

/-- A text is cut where no plain character follows. -/
theorem tokensOf_append {before after : List Char} (h : ∀ c ∈ after.head?, ¬ IsPlain c) :
    tokensOf (before ++ after) = tokensOf before ++ tokensOf after := by
  cases after with
  | nil => rw [List.append_nil, tokensOf_nil, List.append_nil]
  | cons c rest =>
    have hc : ¬ IsPlain c := h c rfl
    by_cases hblank : Text.isBlank c = true
    · rw [tokensOf_blank hblank, tokensOf_cons_blank hblank]
    · by_cases hopen : c = '('
      · subst hopen
        rw [tokensOf_openParen]
        exact congrArg (_ ++ ·) (tokensOf_openParen [] rest).symm
      · by_cases hclose : c = ')'
        · subst hclose
          rw [tokensOf_closeParen]
          exact congrArg (_ ++ ·) (tokensOf_closeParen [] rest).symm
        · exact absurd ⟨by simpa using hblank, hopen, hclose⟩ hc

theorem Spells.tokensOf_append {chunk after : List Char} {token : Token}
    (h : Spells chunk token after) : tokensOf (chunk ++ after) = token :: tokensOf after := by
  cases h with
  | openParen => exact tokensOf_openParen [] after
  | closeParen => exact tokensOf_closeParen [] after
  | run ne_nil plain stops => rw [Token.tokensOf_append stops, tokensOf_run ne_nil plain]; rfl

theorem exists_spells {c : Char} (hc : Text.isBlank c = false) (rest : List Char) :
    ∃ chunk after token, c :: rest = chunk ++ after ∧ Spells chunk token after := by
  by_cases hopen : c = '('
  · exact ⟨['('], rest, _, by rw [hopen]; rfl, .openParen rest⟩
  · by_cases hclose : c = ')'
    · exact ⟨[')'], rest, _, by rw [hclose]; rfl, .closeParen rest⟩
    · have hplain : IsPlain c := ⟨hc, hopen, hclose⟩
      refine ⟨_, _, _, (List.takeWhile_append_dropWhile (p := (IsPlain ·)) (l := c :: rest)).symm,
        .run ?_ ?_ ?_⟩
      · simp [hplain]
      · intro d hd
        simpa using List.all_eq_true.1 List.all_takeWhile d hd
      · intro d hd hd'
        have hhead := List.head?_dropWhile_not (IsPlain ·) (c :: rest)
        rw [hd] at hhead
        simp [hd'] at hhead

/-- **A text is blank and has no tokens, or it starts with its first token**, blanks apart. -/
theorem tokensOf_cases (cs : List Char) :
    ((∀ c ∈ cs, Text.isBlank c = true) ∧ tokensOf cs = []) ∨
      ∃ lead chunk after token, cs = lead ++ (chunk ++ after) ∧
        (∀ c ∈ lead, Text.isBlank c = true) ∧ Spells chunk token after ∧
        tokensOf cs = token :: tokensOf after := by
  induction cs with
  | nil => exact .inl ⟨by simp, rfl⟩
  | cons c rest ih =>
    by_cases hblank : Text.isBlank c = true
    · rw [tokensOf_cons_blank hblank]
      rcases ih with ⟨hall, hnone⟩ | ⟨lead, chunk, after, token, rfl, hlead, hspells, htokens⟩
      · exact .inl ⟨List.forall_mem_cons.2 ⟨hblank, hall⟩, hnone⟩
      · exact .inr ⟨c :: lead, chunk, after, token, rfl,
          List.forall_mem_cons.2 ⟨hblank, hlead⟩, hspells, htokens⟩
    · obtain ⟨chunk, after, token, htext, hspells⟩ := exists_spells (by simpa using hblank) rest
      refine .inr ⟨[], chunk, after, token, htext, by simp, hspells, ?_⟩
      rw [htext, hspells.tokensOf_append]

theorem eq_of_ofWord_eq_word {s w : String} (h : ofWord s = .word w) : s = w := by
  unfold ofWord at h
  split at h
  · cases h
  · exact Token.word.inj h

theorem forall_isBlank_of_tokensOf_eq_nil {cs : List Char} (h : tokensOf cs = []) :
    ∀ c ∈ cs, Text.isBlank c = true := by
  rcases tokensOf_cases cs with ⟨hall, -⟩ | ⟨_, _, _, _, -, -, -, htokens⟩
  · exact hall
  · rw [h] at htokens
    cases htokens

/-- A text whose first token is a word starts with that word, blanks apart. -/
theorem exists_of_tokensOf_eq_word_cons {cs : List Char} {w : String} {rest : List Token}
    (h : tokensOf cs = .word w :: rest) :
    ∃ lead after, cs = lead ++ (w.toList ++ after) ∧ (∀ c ∈ lead, Text.isBlank c = true) ∧
      (∀ c ∈ after.head?, ¬ IsPlain c) ∧ tokensOf after = rest := by
  obtain ⟨-, hnone⟩ | ⟨lead, chunk, after, token, rfl, hlead, hspells, htokens⟩ :=
    tokensOf_cases cs
  · rw [h] at hnone
    cases hnone
  · rw [h] at htokens
    obtain ⟨hword, hrest⟩ := List.cons.inj htokens
    cases hspells with
    | openParen => cases hword
    | closeParen => cases hword
    | run ne_nil plain stops =>
      obtain rfl := eq_of_ofWord_eq_word hword.symm
      exact ⟨lead, after, by rw [String.toList_ofList], hlead, stops, hrest.symm⟩

end Token

end BusinessRules
