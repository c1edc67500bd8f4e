import BusinessRules.Proofs.ConditionText
import Mathlib.Data.List.Basic
import Mathlib.Data.List.TakeWhile

/-!
# The words of a condition

A condition is its first word, its second word and everything from the third word to the last. A
text with fewer words is none. The blanks between and around these parts do not matter, those inside
the third do.

* `Condition.evaluate` — the truth value that the parts of a condition have on a record.

Principal results: `Condition.split?_eq_some_iff` (a text is split into the parts that it consists
of), `Condition.split?_eq_none_iff` (and only a text of fewer than three words is not),
`Text.trim_ne_nil_of_cuts` (behind two cuts something is left), `exists_spaced_of_words` (the words
of a text determine its parts) and `evaluateCondition_of_words`.
-/

namespace BusinessRules

namespace Text

/-! ## Words and blanks -/

theorem words_append_of_allBlank {lead : List Char} (h : AllBlank lead) (cs : List Char) :
    words (lead ++ cs) = words cs := by
  induction lead with
  | nil => rfl
  | cons b rest ih =>
    obtain ⟨hb, hrest⟩ := List.forall_mem_cons.1 h
    have hcut := words_append_blank [] hb (rest ++ cs)
    rw [words_nil, List.nil_append, List.nil_append] at hcut
    rw [List.cons_append, hcut, ih hrest]

theorem words_of_allBlank {cs : List Char} (h : AllBlank cs) : words cs = [] := by
  have hwords := words_append_of_allBlank h []
  rwa [List.append_nil, words_nil] at hwords

/-- Blanks behind a text are no part of its words. -/
theorem words_append_trail (cs : List Char) {trail : List Char} (h : AllBlank trail) :
    words (cs ++ trail) = words cs := by
  cases trail with
  | nil => rw [List.append_nil]
  | cons b rest =>
    obtain ⟨hb, hrest⟩ := List.forall_mem_cons.1 h
    rw [words_append_blank cs hb, words_of_allBlank hrest, List.append_nil]

/-- A word ends where blanks follow it. -/
theorem words_unbroken_append {w gap : List Char} (hw : Unbroken w) (hgap : AllBlank gap)
    (hne : gap ≠ []) (after : List Char) : words (w ++ (gap ++ after)) = w :: words after := by
  obtain ⟨b, rest, rfl⟩ := List.exists_cons_of_ne_nil hne
  obtain ⟨hb, hrest⟩ := List.forall_mem_cons.1 hgap
  rw [List.cons_append, words_append_blank w hb, words_of_unbroken hw,
    words_append_of_allBlank hrest, List.singleton_append]

theorem length_words_le_one {cs : List Char} (h : ∀ c ∈ cs, isBlank c = false) :
    (words cs).length ≤ 1 := by
  rw [words_of_not_blank h]
  split <;> simp

/-- A text that begins with no blank begins with its first word. -/
theorem exists_words_eq_cons {cs : List Char} (h : ∃ c ∈ cs.head?, isBlank c = false) :
    ∃ w rest, words cs = w :: rest ∧ w <+: cs := by
  induction cs using run_induction (P := (isBlank · = false)) with
  | run r hr =>
    have hne : r ≠ [] := by
      rintro rfl
      simp at h
    exact ⟨r, [], words_of_unbroken ⟨hne, hr⟩, List.prefix_rfl⟩
  | cut r b rest hr hb _ =>
    have hne : r ≠ [] := by
      rintro rfl
      simp [hb] at h
    rw [words_append_blank r (by simpa using hb), words_of_unbroken ⟨hne, hr⟩]
    exact ⟨r, words rest, rfl, List.prefix_append _ _⟩

/-- A text that ends with no blank ends with its last word. -/
theorem exists_words_eq_concat {cs : List Char} (h : ∃ c ∈ cs.getLast?, isBlank c = false) :
    ∃ rest w, words cs = rest ++ [w] ∧ w <:+ cs := by
  induction cs using run_induction (P := (isBlank · = false)) with
  | run r hr =>
    have hne : r ≠ [] := by
      rintro rfl
      simp at h
    exact ⟨[], r, words_of_unbroken ⟨hne, hr⟩, List.suffix_rfl⟩
  | cut r b rest hr hb ih =>
    have hrest : ∃ c ∈ rest.getLast?, isBlank c = false := by
      cases rest with
      | nil => simp [hb] at h
      | cons c rest => simpa [List.getLast?_append] using h
    obtain ⟨front, w, hwords, hw⟩ := ih hrest
    refine ⟨words r ++ front, w, ?_, ?_⟩
    · rw [words_append_blank r (by simpa using hb), hwords, List.append_assoc]
    · exact hw.trans ((List.suffix_cons b rest).trans (List.suffix_append r _))

/-! ## Trimming -/

theorem exists_eq_append_trimStart (cs : List Char) :
    ∃ lead, AllBlank lead ∧ cs = lead ++ trimStart cs :=
  ⟨cs.takeWhile isBlank, fun c hc => List.all_eq_true.1 List.all_takeWhile c hc,
    List.takeWhile_append_dropWhile.symm⟩

theorem exists_trimStart_eq_append (cs : List Char) :
    ∃ trail, AllBlank trail ∧ trimStart cs = trim cs ++ trail := by
  obtain ⟨lead, hlead, hsplit⟩ := exists_eq_append_trimStart (trimStart cs).reverse
  refine ⟨lead.reverse, fun c hc => hlead c (List.mem_reverse.1 hc), ?_⟩
  have hreverse := congrArg List.reverse hsplit
  rwa [List.reverse_reverse, List.reverse_append] at hreverse

/-- Trimming takes blanks only. -/
theorem exists_eq_append_trim (cs : List Char) :
    ∃ lead trail, AllBlank lead ∧ AllBlank trail ∧ cs = lead ++ (trim cs ++ trail) := by
  obtain ⟨lead, hlead, hstart⟩ := exists_eq_append_trimStart cs
  obtain ⟨trail, htrail, hend⟩ := exists_trimStart_eq_append cs
  refine ⟨lead, trail, hlead, htrail, ?_⟩
  rw [← hend]
  exact hstart

theorem words_trim (cs : List Char) : words (trim cs) = words cs := by
  obtain ⟨lead, trail, hlead, htrail, hsplit⟩ := exists_eq_append_trim cs
  conv => rhs; rw [hsplit, words_append_of_allBlank hlead, words_append_trail _ htrail]

theorem words_trimStart (cs : List Char) : words (trimStart cs) = words cs := by
  obtain ⟨lead, hlead, hsplit⟩ := exists_eq_append_trimStart cs
  conv => rhs; rw [hsplit, words_append_of_allBlank hlead]

/-- What is left of a text begins with no blank. -/
theorem first_trimStart {cs : List Char} (h : trimStart cs ≠ []) :
    ∃ c ∈ (trimStart cs).head?, isBlank c = false := by
  obtain ⟨c, rest, hcons⟩ := List.exists_cons_of_ne_nil h
  have hhead := List.head?_dropWhile_not isBlank cs
  rw [← trimStart, hcons] at hhead
  exact ⟨c, by rw [hcons]; rfl, by simpa using hhead⟩

/-- What is left of a text neither begins nor ends with a blank. -/
theorem solid_trim {cs : List Char} (h : trim cs ≠ []) : Solid (trim cs) := by
  have hlast : trimStart (trimStart cs).reverse ≠ [] := by
    intro hnil
    apply h
    rw [trim, trimEnd, ← trimStart, hnil, List.reverse_nil]
  have hfirst : trimStart cs ≠ [] := by
    intro hnil
    rw [hnil] at hlast
    exact hlast rfl
  refine ⟨?_, ?_⟩
  · -- trimming the end leaves the first character where it is
    obtain ⟨c, hc, hblank⟩ := first_trimStart hfirst
    obtain ⟨trail, -, hsplit⟩ := exists_trimStart_eq_append cs
    obtain ⟨d, rest, hcons⟩ := List.exists_cons_of_ne_nil h
    rw [hsplit, hcons] at hc
    exact ⟨c, by rw [hcons]; exact hc, hblank⟩
  · obtain ⟨c, hc, hblank⟩ := first_trimStart hlast
    exact ⟨c, by rw [trim, trimEnd, List.getLast?_reverse]; exact hc, hblank⟩

/-! ## Cuts -/

theorem length_words_le_one_of_cutAtBlank? {cs : List Char} (h : cutAtBlank? cs = none) :
    (words cs).length ≤ 1 := by
  unfold cutAtBlank? at h
  split at h
  · rename_i hdrop
    apply length_words_le_one
    intro c hc
    simpa using List.dropWhile_eq_nil_iff.1 hdrop c hc
  · cases h

/-- A text that begins with no blank is cut behind its first word. -/
theorem unbroken_of_cutAtBlank? {cs before after : List Char}
    (hfirst : ∃ c ∈ cs.head?, isBlank c = false) (h : cutAtBlank? cs = some (before, after)) :
    Unbroken before := by
  obtain ⟨b, hb, rfl, hbefore⟩ := cutAtBlank?_eq_some h
  refine ⟨?_, hbefore⟩
  rintro rfl
  simp [hb] at hfirst

theorem ne_nil_of_cutAtBlank? {cs before after : List Char}
    (h : cutAtBlank? cs = some (before, after)) : cs ≠ [] := by
  rintro rfl
  cases h

/-- **Behind two cuts something is left**: a trimmed text does not end with a blank. -/
theorem trim_ne_nil_of_cuts {cs before behind middle after : List Char}
    (hfirst : cutAtBlank? (trim cs) = some (before, behind))
    (hsecond : cutAtBlank? (trimStart behind) = some (middle, after)) : trim after ≠ [] := by
  intro hnil
  obtain ⟨b, -, htrim, -⟩ := cutAtBlank?_eq_some hfirst
  obtain ⟨d, hd, hstart, -⟩ := cutAtBlank?_eq_some hsecond
  obtain ⟨lead, -, hbehind⟩ := exists_eq_append_trimStart behind
  obtain ⟨blanks, trail, hblanks, htrail, hafter⟩ := exists_eq_append_trim after
  -- all that stands behind the second cut is blank, and so is the cut itself
  have hblank : AllBlank (d :: after) := by
    rw [hnil, List.nil_append] at hafter
    rw [hafter]
    exact List.forall_mem_cons.2 ⟨hd, List.forall_mem_append.2 ⟨hblanks, htrail⟩⟩
  have hends : trim cs = before ++ b :: (lead ++ middle) ++ d :: after := by
    rw [htrim, hbehind, hstart]
    simp
  obtain ⟨c, hc, hlast⟩ := (solid_trim (ne_nil_of_cutAtBlank? hfirst)).last
  have hmem : c ∈ d :: after := by
    rw [hends, List.getLast?_append_of_ne_nil _ (List.cons_ne_nil d after)] at hc
    exact List.mem_of_getLast? hc
  rw [hblank c hmem] at hlast
  cases hlast

end Text

open Text

namespace Condition

/-! ## Parts and words -/

/-- **The words of a condition** are its field, its symbol and those of its literal. -/
theorem Spaced.words_eq {c : Condition} {text : String} (h : Spaced c text) :
    words text.toList = c.field.toList :: c.symbol.toList :: words c.literal.toList := by
  obtain @⟨lead, gap, space, trail, hspelling, hfield, hsymbol, -, hgap, hspace, hleads, hgaps,
    hspaces, htrails⟩ := h
  rw [hspelling, words_append_of_allBlank hleads, words_unbroken_append hfield hgaps hgap,
    words_unbroken_append hsymbol hspaces hspace, words_append_trail _ htrails]

theorem Spaced.solid_literal {c : Condition} {text : String} (h : Spaced c text) :
    Solid c.literal.toList := by
  cases h
  assumption

/-- A text that is split consists of the parts. -/
theorem spaced_of_split? {c : Condition} {text : String} (h : split? text = some c) :
    Spaced c text := by
  unfold split? at h
  split at h
  · cases h
  · rename_i field behindField hfirst
    split at h
    · cases h
    · rename_i symbol behindSymbol hsecond
      split at h
      · cases h
      · rename_i l ls hliteral
        cases h
        obtain ⟨b, hb, htrim, -⟩ := cutAtBlank?_eq_some hfirst
        obtain ⟨d, hd, hstart, -⟩ := cutAtBlank?_eq_some hsecond
        obtain ⟨lead, trail, hlead, htrail, htext⟩ := exists_eq_append_trim text.toList
        obtain ⟨gap, hgap, hbehind⟩ := exists_eq_append_trimStart behindField
        obtain ⟨space, rest, hspace, hrest, hafter⟩ := exists_eq_append_trim behindSymbol
        have hsolid := solid_trim (ne_nil_of_cutAtBlank? hfirst)
        have hliterals := solid_trim (trim_ne_nil_of_cuts hfirst hsecond)
        rw [hliteral] at hliterals hafter
        have hspelling : text.toList = lead ++ (field ++ (b :: gap ++ (symbol ++
            (d :: space ++ ((l :: ls) ++ (rest ++ trail)))))) := by
          rw [htext, htrim, hbehind, hstart, hafter]
          simp
        refine .intro (by simpa using hspelling) ?_ ?_ ?_ (List.cons_ne_nil b gap)
          (List.cons_ne_nil d space) hlead (List.forall_mem_cons.2 ⟨hb, hgap⟩)
          (List.forall_mem_cons.2 ⟨hd, hspace⟩) (List.forall_mem_append.2 ⟨hrest, htrail⟩)
        · simpa using unbroken_of_cutAtBlank? hsolid.first hfirst
        · have hsymbol := first_trimStart (ne_nil_of_cutAtBlank? hsecond)
          simpa using unbroken_of_cutAtBlank? hsymbol hsecond
        · simpa using hliterals

/-- **A text is split into the parts that it consists of.** -/
theorem split?_eq_some_iff {c : Condition} {text : String} :
    split? text = some c ↔ Spaced c text :=
  ⟨spaced_of_split?, Spaced.split?_eq⟩

/-- A text with a symbol missing, or nothing behind it, has at most two words. -/
theorem length_words_of_split? {text : String} (h : split? text = none) :
    (words text.toList).length < 3 := by
  rw [← words_trim]
  unfold split? at h
  split at h
  · rename_i hfirst
    have hone := length_words_le_one_of_cutAtBlank? hfirst
    omega
  · rename_i field behindField hfirst
    obtain ⟨b, hb, htrim, hfield⟩ := cutAtBlank?_eq_some hfirst
    have hone := length_words_le_one hfield
    rw [htrim, words_append_blank _ hb, List.length_append, ← words_trimStart behindField]
    split at h
    · rename_i hsecond
      have hrest := length_words_le_one_of_cutAtBlank? hsecond
      omega
    · rename_i symbol behindSymbol hsecond
      split at h
      · rename_i hnil
        exact absurd hnil (trim_ne_nil_of_cuts hfirst hsecond)
      · cases h

/-- **A text of fewer than three words is not split**, every other is. -/
theorem split?_eq_none_iff {text : String} :
    split? text = none ↔ (words text.toList).length < 3 := by
  refine ⟨length_words_of_split?, fun hlength => ?_⟩
  cases hsplit : split? text with
  | none => rfl
  | some c =>
    have hspaced := spaced_of_split? hsplit
    obtain ⟨w, rest, hliteral, -⟩ := exists_words_eq_cons hspaced.solid_literal.first
    rw [hspaced.words_eq, hliteral] at hlength
    simp only [List.length_cons] at hlength
    omega

/-- The truth value that the parts of a condition have on a record. -/
def evaluate (record : Record) (c : Condition) : Except EvaluationError Bool :=
  match record.field? c.field with
  | none => .error (.fieldNotFound c.field)
  | some actual =>
    match Comparator.ofSymbol? c.symbol with
    | none => .error (.unsupportedComparator c.symbol)
    | some comparator => evaluateComparison c.field comparator actual (.ofRaw c.literal)

/-- The parts of a condition never are a malformed condition. -/
theorem evaluate_ne_malformed (record : Record) (c : Condition) (text : String) :
    c.evaluate record ≠ .error (.malformedCondition text) := by
  unfold evaluate
  split
  · simp
  · split
    · simp
    · unfold evaluateComparison
      split
      · simp
      · split <;> simp

end Condition

open Condition

theorem evaluateCondition_of_spaced {c : Condition} {text : String} (h : Spaced c text)
    (record : Record) : evaluateCondition record text = c.evaluate record := by
  rw [evaluateCondition, h.split?_eq]
  rfl

theorem evaluateCondition_of_few_words {text : String} (h : (words text.toList).length < 3)
    (record : Record) : evaluateCondition record text = .error (.malformedCondition text) := by
  rw [evaluateCondition, split?_eq_none_iff.2 h]

/-- A text is malformed, or consists of the parts of a condition. -/
theorem few_words_or_spaced (text : String) :
    (words text.toList).length < 3 ∨ ∃ c, Spaced c text := by
  cases hsplit : split? text with
  | none => exact .inl (split?_eq_none_iff.1 hsplit)
  | some c => exact .inr ⟨c, spaced_of_split? hsplit⟩

/-- **The words of a text determine its parts**: the literal begins with the third word, ends with the
last one and has the words between them. -/
theorem exists_spaced_of_words {text : String} {first second third : List Char}
    {rest : List (List Char)} (hwords : words text.toList = first :: second :: third :: rest) :
    ∃ literal, Spaced ⟨.ofList first, .ofList second, .ofList literal⟩ text ∧
      words literal = third :: rest ∧ third <+: literal ∧
      ∃ last ∈ (third :: rest).getLast?, last <:+ literal := by
  obtain hfew | ⟨⟨field, symbol, literal⟩, hspaced⟩ := few_words_or_spaced text
  · rw [hwords] at hfew
    simp only [List.length_cons] at hfew
    omega
  · have hparts := hspaced.words_eq
    rw [hwords] at hparts
    simp only [List.cons.injEq] at hparts
    obtain ⟨rfl, rfl, hliteral⟩ := hparts
    obtain ⟨w, ws, hfirst, hstart⟩ := exists_words_eq_cons hspaced.solid_literal.first
    obtain ⟨front, v, hlast, hend⟩ := exists_words_eq_concat hspaced.solid_literal.last
    rw [← hliteral] at hfirst hlast
    refine ⟨literal.toList, by simpa using hspaced, hliteral.symm, ?_, v, ?_, hend⟩
    · obtain ⟨rfl, -⟩ := List.cons.inj hfirst
      exact hstart
    · rw [hlast]
      exact List.getLast?_concat

/-- **A condition is malformed exactly if it has fewer than three words.** -/
theorem evaluateCondition_eq_malformedCondition_iff {record : Record} {text other : String} :
    evaluateCondition record text = .error (.malformedCondition other) ↔
      (words text.toList).length < 3 ∧ other = text := by
  rcases few_words_or_spaced text with hfew | ⟨c, hspaced⟩
  · rw [evaluateCondition_of_few_words hfew]
    simp [hfew, eq_comm]
  · have hmany : ¬ (words text.toList).length < 3 := by
      rw [← split?_eq_none_iff, hspaced.split?_eq]
      exact Option.some_ne_none c
    rw [evaluateCondition_of_spaced hspaced]
    exact iff_of_false (c.evaluate_ne_malformed record other) fun h => hmany h.1

/-- **A condition is read word by word.** It is malformed exactly if it has fewer than three words.
Otherwise its first word is looked up, its second word is the comparator, and the literal is the
text from the beginning of the third word to the end of the last, with the blanks inside it. What
stands behind two cuts is never empty. Texts of the same parts have the same truth value or the
same error, whatever blanks stand between and around the parts. -/
theorem evaluateCondition_of_words (text : String) :
    (∀ record other, evaluateCondition record text = .error (.malformedCondition other) ↔
        (words text.toList).length < 3 ∧ other = text) ∧
      (∀ first second third rest, words text.toList = first :: second :: third :: rest →
        ∃ literal, Spaced ⟨.ofList first, .ofList second, .ofList literal⟩ text ∧
          words literal = third :: rest ∧ third <+: literal ∧
          (∃ last ∈ (third :: rest).getLast?, last <:+ literal) ∧
          ∀ record, evaluateCondition record text =
            Condition.evaluate record ⟨.ofList first, .ofList second, .ofList literal⟩) ∧
      (∀ field behindField symbol behindSymbol,
        cutAtBlank? (trim text.toList) = some (field, behindField) →
          cutAtBlank? (trimStart behindField) = some (symbol, behindSymbol) →
            trim behindSymbol ≠ []) ∧
      ∀ c other, Spaced c text → Spaced c other → ∀ record,
        evaluateCondition record text = evaluateCondition record other := by
  refine ⟨fun _ _ => evaluateCondition_eq_malformedCondition_iff,
    fun first second third rest hwords => ?_, ?_, ?_⟩
  · obtain ⟨literal, hspaced, hliteral, hstart, hend⟩ := exists_spaced_of_words hwords
    exact ⟨literal, hspaced, hliteral, hstart, hend, evaluateCondition_of_spaced hspaced⟩
  · intro field behindField symbol behindSymbol hfirst hsecond
    exact trim_ne_nil_of_cuts hfirst hsecond
  · intro c other hspaced hother record
    rw [evaluateCondition_of_spaced hspaced, evaluateCondition_of_spaced hother]

/-- Blanks of several kinds around the parts and two spaces inside the literal. -/
theorem evaluateCondition_of_words_wide :
    let text := "\u3000city\t= \t'New  York'\u2003\n"
    let c : Condition := ⟨"city", "=", "'New  York'"⟩
    words text.toList = ["city".toList, "=".toList, "'New".toList, "York'".toList] ∧
      (∃ literal, words literal = ["'New".toList, "York'".toList] ∧ ∀ record,
        evaluateCondition record text = Condition.evaluate record ⟨"city", "=", .ofList literal⟩) ∧
      c.Spaced text ∧ c.Spaced "city = 'New  York'" ∧
      (∀ record,
        evaluateCondition record text = evaluateCondition record "city = 'New  York'") ∧
      cutAtBlank? (trim text.toList) = some ("city".toList, "= \t'New  York'".toList) ∧
      cutAtBlank? (trimStart "= \t'New  York'".toList) =
        some ("=".toList, "\t'New  York'".toList) ∧
      trim "\t'New  York'".toList ≠ [] := by
  intro text c
  have hwords : words text.toList =
      ["city".toList, "=".toList, "'New".toList, "York'".toList] := by decide +kernel
  have hspaced : c.Spaced text := split?_eq_some_iff.1 (by decide +kernel)
  have hother : c.Spaced "city = 'New  York'" := split?_eq_some_iff.1 (by decide +kernel)
  have hfirst : cutAtBlank? (trim text.toList) =
      some ("city".toList, "= \t'New  York'".toList) := by decide +kernel
  have hsecond : cutAtBlank? (trimStart "= \t'New  York'".toList) =
      some ("=".toList, "\t'New  York'".toList) := by decide +kernel
  obtain ⟨-, hparts, hleft, hsame⟩ := evaluateCondition_of_words text
  obtain ⟨literal, -, hliteral, -, -, hevaluate⟩ := hparts _ _ _ _ hwords
  exact ⟨hwords, ⟨literal, hliteral, hevaluate⟩, hspaced, hother, hsame c _ hspaced hother,
    hfirst, hsecond, hleft _ _ _ _ hfirst hsecond⟩

end BusinessRules
