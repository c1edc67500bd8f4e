import BusinessRules.Text.Blank

/-!
# The words of a text

A text is cut at its blanks, and what is not empty between two cuts is a word.

* `Text.AllBlank`, `Text.Unbroken` — blanks and nothing else, and no blank at all;
* `Text.words` — the words of a text.

Principal results: `Text.run_induction` (a text from one cut to the next),
`Text.words_append_blank`, `Text.words_of_unbroken` (the words on both sides of a blank, and of a
text without one) and `Text.flatMap_words` (a function that is cut at blanks is determined by the
words).
-/

namespace BusinessRules

namespace Text

/-- Blanks and nothing else. -/
def AllBlank (cs : List Char) : Prop := ∀ c ∈ cs, isBlank c = true

/-- A text without blanks that is not empty. -/
structure Unbroken (cs : List Char) : Prop where
  ne_nil : cs ≠ []
  not_blank : ∀ c ∈ cs, isBlank c = false

instance (cs : List Char) : Decidable (Unbroken cs) :=
  decidable_of_iff (cs ≠ [] ∧ (cs.all fun c => !isBlank c) = true)
    ⟨fun h => ⟨h.1, by simpa using h.2⟩, fun h => ⟨h.ne_nil, by simpa using h.not_blank⟩⟩

/-- A text consists of characters of one kind only, or of some of them, a character of another kind
and a shorter text. -/
theorem run_induction {P : Char → Prop} {motive : List Char → Prop}
    (run : ∀ r, (∀ c ∈ r, P c) → motive r)
    (cut : ∀ r c rest, (∀ d ∈ r, P d) → ¬ P c → motive rest → motive (r ++ c :: rest))
    (cs : List Char) : motive cs := by
  -- the characters of the first kind that have been passed are kept in front
  have hrun : ∀ r, (∀ c ∈ r, P c) → motive (r ++ cs) := by
    induction cs with
    | nil =>
      intro r hr
      rw [List.append_nil]
      exact run r hr
    | cons c rest ih =>
      intro r hr
      by_cases hc : P c
      · rw [List.append_cons]
        refine ih (r ++ [c]) fun d hd => ?_
        rcases List.mem_append.1 hd with hd | hd
        · exact hr d hd
        · rw [List.mem_singleton.1 hd]
          exact hc
      · exact cut r c rest hr hc (ih [] fun _ hd => nomatch hd)
  exact hrun [] fun _ hc => nomatch hc

/-- The words of a text: the pieces between its blanks, without the empty ones. -/
def words (cs : List Char) : List (List Char) := (cs.splitOnP isBlank).filter (· ≠ [])

@[simp] theorem words_nil : words [] = [] := rfl

theorem words_append_blank (before : List Char) {b : Char} (hb : isBlank b = true)
    (after : List Char) : words (before ++ b :: after) = words before ++ words after := by
  rw [words, List.splitOnP_append_cons _ _ hb, List.filter_append]
  rfl

theorem words_of_unbroken {cs : List Char} (h : Unbroken cs) : words cs = [cs] := by
  rw [words, List.splitOnP_eq_singleton h.not_blank]
  simp [h.ne_nil]

theorem words_of_not_blank {cs : List Char} (h : ∀ c ∈ cs, isBlank c = false) :
    words cs = if cs = [] then [] else [cs] := by
  by_cases hnil : cs = []
  · rw [if_pos hnil, hnil, words_nil]
  · rw [if_neg hnil, words_of_unbroken ⟨hnil, h⟩]

theorem unbroken_of_mem_words {cs w : List Char} (hw : w ∈ words cs) : Unbroken w := by
  have hrun : ∀ r, (∀ c ∈ r, isBlank c = false) → w ∈ words r → Unbroken w := by
    intro r hr hw
    rw [words_of_not_blank hr] at hw
    split at hw
    · cases hw
    · rename_i hne
      rw [List.mem_singleton.1 hw]
      exact ⟨hne, hr⟩
  induction cs using run_induction (P := (isBlank · = false)) with
  | run r hr => exact hrun r hr hw
  | cut r b rest hr hb ih =>
    rw [words_append_blank r (by simpa using hb)] at hw
    rcases List.mem_append.1 hw with hw | hw
    · exact hrun r hr hw
    · exact ih hw

/-- A function of texts that is cut at blanks is determined by the words. -/
theorem flatMap_words {β : Type} {f : List Char → List β} (hnil : f [] = [])
    (hcut : ∀ before b after, isBlank b = true → f (before ++ b :: after) = f before ++ f after)
    (cs : List Char) : (words cs).flatMap f = f cs := by
  have hrun : ∀ r, (∀ c ∈ r, isBlank c = false) → (words r).flatMap f = f r := by
    intro r hr
    rw [words_of_not_blank hr]
    split
    · rename_i h
      rw [h, hnil, List.flatMap_nil]
    · rw [List.flatMap_singleton]
  induction cs using run_induction (P := (isBlank · = false)) with
  | run r hr => exact hrun r hr
  | cut r b rest hr hb ih =>
    have hb : isBlank b = true := by simpa using hb
    rw [words_append_blank r hb, List.flatMap_append, hrun r hr, ih, hcut r b rest hb]

/-- The words together are the text without its blanks. -/
theorem flatten_words (cs : List Char) : (words cs).flatten = cs.filter (!isBlank ·) := by
  have hcut : ∀ before b after, isBlank b = true →
      (before ++ b :: after).filter (!isBlank ·) =
        before.filter (!isBlank ·) ++ after.filter (!isBlank ·) := by
    intro before b after hb
    simp [hb]
  have hwords : ∀ w ∈ words cs, w.filter (!isBlank ·) = w := fun w hw =>
    List.filter_eq_self.2 fun c hc => by simp [(unbroken_of_mem_words hw).not_blank c hc]
  calc (words cs).flatten = ((words cs).map (List.filter (!isBlank ·))).flatten := by
        rw [List.map_congr_left hwords, List.map_id']
    _ = (words cs).flatMap (List.filter (!isBlank ·)) := List.flatMap_def.symm
    _ = cs.filter (!isBlank ·) := flatMap_words rfl hcut cs

end Text

end BusinessRules
