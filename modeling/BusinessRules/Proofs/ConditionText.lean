import BusinessRules.Evaluation.Condition
import BusinessRules.Proofs.Scanning
import BusinessRules.Proofs.Words

/-!
# The parts of a condition's text

A condition is split by its blanks, rule text by its blanks and parentheses. On a text of three
words both find the same parts, whatever blanks stand around them.

* `Text.Solid` — a text that neither begins nor ends with a blank;
* `Condition.Spaced` — a text that consists of the parts of a condition with blanks around them.

Principal results: `Condition.Spaced.split?_eq` (such a text is split into these parts) and
`Condition.split?_of_scan` (the parts of a text of three words).
-/

namespace BusinessRules

namespace Text

/-! ## Blanks around a text -/

/-- A text that begins and ends with characters that are not blank. -/
structure Solid (cs : List Char) : Prop where
  first : ∃ c ∈ cs.head?, isBlank c = false
  last : ∃ c ∈ cs.getLast?, isBlank c = false

theorem Unbroken.solid {cs : List Char} (h : Unbroken cs) : Solid cs :=
  ⟨⟨_, List.head?_eq_some_head h.ne_nil, h.not_blank _ (List.head_mem h.ne_nil)⟩,
    ⟨_, List.getLast?_eq_some_getLast h.ne_nil, h.not_blank _ (List.getLast_mem h.ne_nil)⟩⟩

theorem Solid.ne_nil {cs : List Char} (h : Solid cs) : cs ≠ [] := by
  rintro rfl
  obtain ⟨_, hc, -⟩ := h.first
  cases hc

theorem first_append {front : List Char} (h : ∃ c ∈ front.head?, isBlank c = false)
    (back : List Char) : ∃ c ∈ (front ++ back).head?, isBlank c = false := by
  obtain ⟨c, hc, hblank⟩ := h
  exact ⟨c, by simp_all [List.head?_append], hblank⟩

theorem Solid.append {front back : List Char} (hfront : Solid front) (between : List Char)
    (hback : Solid back) : Solid (front ++ (between ++ back)) := by
  obtain ⟨c, hc, hlast⟩ := hback.last
  exact ⟨first_append hfront.first _, ⟨c, by simp_all [List.getLast?_append], hlast⟩⟩

theorem trimStart_of_first {cs : List Char} (h : ∃ c ∈ cs.head?, isBlank c = false) :
    trimStart cs = cs := by
  obtain ⟨c, hc, hblank⟩ := h
  cases cs with
  | nil => cases hc
  | cons d rest =>
    cases hc
    exact List.dropWhile_cons_of_neg (by simp [hblank])

theorem trimStart_append {lead : List Char} (h : AllBlank lead) (cs : List Char) :
    trimStart (lead ++ cs) = trimStart cs :=
  List.dropWhile_append_of_pos h

/-- Trimming takes the blanks around a solid text and nothing of it. -/
theorem trim_append {lead cs trail : List Char} (hlead : AllBlank lead) (h : Solid cs)
    (htrail : AllBlank trail) : trim (lead ++ (cs ++ trail)) = cs := by
  have hstart : trimStart (cs ++ trail) = cs ++ trail :=
    trimStart_of_first (first_append h.first trail)
  have hend : trimStart cs.reverse = cs.reverse := by
    refine trimStart_of_first ?_
    rw [List.head?_reverse]
    exact h.last
  have hreverse : AllBlank trail.reverse := fun c hc => htrail c (List.mem_reverse.1 hc)
  calc trim (lead ++ (cs ++ trail))
      = (trimStart (trail.reverse ++ cs.reverse)).reverse := by
        rw [trim, trimStart_append hlead, hstart, trimEnd, List.reverse_append, trimStart]
    _ = cs := by rw [trimStart_append hreverse, hend, List.reverse_reverse]

/-- A text is cut at the blank behind an unbroken text. -/
theorem cutAtBlank?_append {before : List Char} (h : Unbroken before) {b : Char}
    (hb : isBlank b = true) (after : List Char) :
    cutAtBlank? (before ++ b :: after) = some (before, after) := by
  have hplain : ∀ c ∈ before, (!isBlank c) = true := fun c hc => by simp [h.not_blank c hc]
  rw [cutAtBlank?, List.dropWhile_append_of_pos hplain, List.takeWhile_append_of_pos hplain]
  simp [hb]

end Text

open Text Token

/-! ## Three parts -/

namespace Condition

/-- A text consists of a field, a symbol and a literal, with blanks between them and perhaps around
them. The literal may have blanks inside. -/
inductive Spaced : Condition → String → Prop where
  | intro {c : Condition} {text : String} {lead gap space trail : List Char}
      (spelling : text.toList = lead ++ (c.field.toList ++ (gap ++ (c.symbol.toList ++
        (space ++ (c.literal.toList ++ trail))))))
      (field : Unbroken c.field.toList) (symbol : Unbroken c.symbol.toList)
      (literal : Solid c.literal.toList) (gap_ne_nil : gap ≠ []) (space_ne_nil : space ≠ [])
      (lead_blank : AllBlank lead) (gap_blank : AllBlank gap) (space_blank : AllBlank space)
      (trail_blank : AllBlank trail) : Spaced c text

/-- **A text that consists of three parts is split into them**, whatever the blanks. -/
theorem Spaced.split?_eq {c : Condition} {text : String} (h : Spaced c text) :
    split? text = some c := by
  obtain @⟨lead, gap, space, trail, hspelling, hfield, hsymbol, hliteral, hgap, hspace, hleads,
    hgaps, hspaces, htrails⟩ := h
  obtain ⟨b, gap, rfl⟩ := List.exists_cons_of_ne_nil hgap
  obtain ⟨d, space, rfl⟩ := List.exists_cons_of_ne_nil hspace
  obtain ⟨hb, hgap⟩ := List.forall_mem_cons.1 hgaps
  obtain ⟨hd, hspace⟩ := List.forall_mem_cons.1 hspaces
  have htrim : trim text.toList =
      c.field.toList ++ b :: (gap ++ (c.symbol.toList ++ d :: (space ++ c.literal.toList))) := by
    have hsolid := hfield.solid.append (b :: gap ++ (c.symbol.toList ++ d :: space)) hliteral
    have htrim := trim_append hleads hsolid htrails
    rw [hspelling]
    simpa using htrim
  have hbehind : trimStart (gap ++ (c.symbol.toList ++ d :: (space ++ c.literal.toList))) =
      c.symbol.toList ++ d :: (space ++ c.literal.toList) := by
    rw [trimStart_append hgap, trimStart_of_first (first_append hsymbol.solid.first _)]
  have hrest : trim (space ++ c.literal.toList) = c.literal.toList := by
    have hnone : AllBlank [] := by simp [AllBlank]
    have htrim := trim_append hspace hliteral hnone
    rwa [List.append_nil] at htrim
  rw [split?, htrim, cutAtBlank?_append hfield hb]
  dsimp only
  rw [hbehind, cutAtBlank?_append hsymbol hd]
  dsimp only
  rw [hrest]
  split
  · rename_i hnil
    exact absurd hnil hliteral.ne_nil
  · rename_i hcons
    rw [← hcons]
    simp

/-! ## Three words -/

theorem unbroken_of_isWord {w : String} (h : IsWord w) : Unbroken w.toList :=
  ⟨fun hnil => h.ne_empty (String.toList_inj.1 (by simpa using hnil)), fun c hc => (h.plain c hc).1⟩

/-- Before a word stands a blank, where a word before has just ended. -/
theorem lead_ne_nil {lead after : List Char} {w : String} (hw : IsWord w)
    (hstops : ∀ c ∈ (lead ++ (w.toList ++ after)).head?, ¬ IsPlain c) : lead ≠ [] := by
  rintro rfl
  obtain ⟨c, cs, hcons⟩ := List.exists_cons_of_ne_nil (unbroken_of_isWord hw).ne_nil
  rw [hcons] at hstops
  exact hstops c rfl (hw.plain c (by simp [hcons]))

/-- A text whose tokens are three words consists of them. -/
theorem spaced_of_scan {text field symbol value : String}
    (h : scan text = [.word field, .word symbol, .word value]) :
    Spaced ⟨field, symbol, value⟩ text := by
  have hfield : IsWord field := isWord_of_scan_eq h (by simp)
  have hsymbol : IsWord symbol := isWord_of_scan_eq h (by simp)
  have hvalue : IsWord value := isWord_of_scan_eq h (by simp)
  obtain ⟨lead, behindField, htext, hlead, hstops, hrest⟩ := exists_of_tokensOf_eq_word_cons h
  obtain ⟨gap, behindSymbol, rfl, hgap, hstops', hrest'⟩ := exists_of_tokensOf_eq_word_cons hrest
  obtain ⟨space, trail, rfl, hspace, -, hnone⟩ := exists_of_tokensOf_eq_word_cons hrest'
  exact .intro htext (unbroken_of_isWord hfield) (unbroken_of_isWord hsymbol)
    (unbroken_of_isWord hvalue).solid (lead_ne_nil hsymbol hstops) (lead_ne_nil hvalue hstops')
    hlead hgap hspace (forall_isBlank_of_tokensOf_eq_nil hnone)

/-- **A text of three words is split into them.** -/
theorem split?_of_scan {text field symbol value : String}
    (h : scan text = [.word field, .word symbol, .word value]) :
    split? text = some ⟨field, symbol, value⟩ :=
  (spaced_of_scan h).split?_eq

end Condition

/-- Conditions of the same three words have the same truth value on every record. -/
theorem evaluateCondition_eq_of_scan {text other field symbol value : String}
    (h : scan text = [.word field, .word symbol, .word value])
    (hother : scan other = [.word field, .word symbol, .word value]) (record : Record) :
    evaluateCondition record text = evaluateCondition record other := by
  rw [evaluateCondition, evaluateCondition, Condition.split?_of_scan h,
    Condition.split?_of_scan hother]

end BusinessRules
