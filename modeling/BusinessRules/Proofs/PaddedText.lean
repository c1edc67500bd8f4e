import BusinessRules.Proofs.ByteOffsets

/-!
# Padding parentheses

The tokens of a text are the words of the text in which every parenthesis has a blank on both sides.

* `Text.padded` — a text with blanks around its parentheses;
* `Token.ofPiece` — the token of a word of such a text.

Principal results: `Token.tokensOf_eq_pieces` (the tokens are these words),
`Token.join_text_scan` (the tokens together are the text without its blanks) and
`Token.scan_eq_pieces_and_slices` (one pass over the characters, the words of the padded text and
the slices at byte offsets give the same tokens).
-/

namespace BusinessRules

namespace Text

/-- A text with a blank before and behind every parenthesis. -/
def padded (cs : List Char) : List Char :=
  cs.flatMap fun c => if isParen c then [' ', c, ' '] else [c]

theorem padded_append (before after : List Char) :
    padded (before ++ after) = padded before ++ padded after :=
  List.flatMap_append

theorem padded_cons_of_not_isParen {c : Char} (hc : isParen c = false) (cs : List Char) :
    padded (c :: cs) = c :: padded cs := by
  simp [padded, hc]

theorem padded_cons_of_isParen {c : Char} (hc : isParen c = true) (cs : List Char) :
    padded (c :: cs) = ' ' :: c :: ' ' :: padded cs := by
  simp [padded, hc]

theorem padded_of_not_isParen {cs : List Char} (h : ∀ c ∈ cs, isParen c = false) :
    padded cs = cs := by
  induction cs with
  | nil => rfl
  | cons c rest ih =>
    obtain ⟨hc, hrest⟩ := List.forall_mem_cons.1 h
    rw [padded_cons_of_not_isParen hc, ih hrest]

/-- Padding adds blanks only. -/
theorem filter_padded (cs : List Char) :
    (padded cs).filter (!isBlank ·) = cs.filter (!isBlank ·) := by
  have hspace : isBlank ' ' = true := rfl
  induction cs with
  | nil => rfl
  | cons c rest ih =>
    by_cases hc : isParen c = true
    · rw [padded_cons_of_isParen hc]
      simp only [List.filter_cons, hspace, ih, Bool.not_true, if_false, Bool.false_eq_true]
    · rw [padded_cons_of_not_isParen (by simpa using hc), List.filter_cons, List.filter_cons, ih]

end Text

namespace Token

/-- The token of a piece of padded text. -/
def ofPiece (piece : String) : Token :=
  match piece with
  | "(" => .openParen
  | ")" => .closeParen
  | "AND" => .connective .and
  | "OR" => .connective .or
  | w => .word w

theorem text_ofPiece (piece : String) : (ofPiece piece).text = piece := by
  unfold ofPiece
  split <;> rfl

theorem ofPiece_of_plain {cs : List Char} (h : ∀ c ∈ cs, IsPlain c) :
    ofPiece (String.ofList cs) = ofWord (String.ofList cs) := by
  have hparen : ∀ c, Text.isParen c = true → String.ofList cs ≠ String.singleton c := by
    intro c hc he
    have hcs : cs = [c] := by simpa using congrArg String.toList he
    have hplain : IsPlain c := h c (by rw [hcs]; exact List.mem_singleton.2 rfl)
    rcases Text.eq_or_eq_of_isParen hc with rfl | rfl
    · exact hplain.2.1 rfl
    · exact hplain.2.2 rfl
  unfold ofPiece
  split
  · rename_i he
    exact absurd he (hparen '(' rfl)
  · rename_i he
    exact absurd he (hparen ')' rfl)
  · rename_i he
    rw [he]
    rfl
  · rename_i he
    rw [he]
    rfl
  · rename_i hand hor
    rw [ofWord, Connective.ofSymbol?, if_neg hand, if_neg hor]

/-- The tokens of the words of a padded text. -/
def pieces (cs : List Char) : List Token :=
  (Text.words (Text.padded cs)).map fun w => ofPiece (String.ofList w)

/-! ## The same cuts -/

theorem pieces_of_plain {cs : List Char} (h : ∀ c ∈ cs, IsPlain c) :
    pieces cs = ofRun (String.ofList cs) := by
  have hblank : ∀ c ∈ cs, Text.isBlank c = false := fun c hc => (Text.isPlain_iff.1 (h c hc)).1
  have hparen : ∀ c ∈ cs, Text.isParen c = false := fun c hc => (Text.isPlain_iff.1 (h c hc)).2
  rw [pieces, Text.padded_of_not_isParen hparen, Text.words_of_not_blank hblank]
  by_cases hnil : cs = []
  · rw [hnil]
    rfl
  · have hne : String.ofList cs ≠ "" := mt String.ofList_eq_empty_iff.1 hnil
    rw [if_neg hnil, ofRun, if_neg hne, List.map_singleton, ofPiece_of_plain h]

theorem pieces_blank {b : Char} (hb : Text.isBlank b = true) (before after : List Char) :
    pieces (before ++ b :: after) = pieces before ++ pieces after := by
  have hparen : Text.isParen b = false := by
    rw [Bool.eq_false_iff]
    intro hparen
    rw [Text.isBlank_of_isParen hparen] at hb
    cases hb
  rw [pieces, Text.padded_append, Text.padded_cons_of_not_isParen hparen,
    Text.words_append_blank _ hb, List.map_append]
  rfl

theorem pieces_paren {c : Char} (hc : Text.isParen c = true) (before after : List Char) :
    pieces (before ++ c :: after) = pieces before ++ ofByte c.toUInt8 :: pieces after := by
  have hspace : Text.isBlank ' ' = true := rfl
  have hpadded : Text.padded (before ++ c :: after) =
      Text.padded before ++ ' ' :: ([c] ++ ' ' :: Text.padded after) := by
    rw [Text.padded_append, Text.padded_cons_of_isParen hc]
    rfl
  have hword : Text.words [c] = [[c]] :=
    Text.words_of_unbroken ⟨by simp, by simpa using Text.isBlank_of_isParen hc⟩
  have hpiece : ofPiece (String.ofList [c]) = ofByte c.toUInt8 := by
    rcases Text.eq_or_eq_of_isParen hc with rfl | rfl <;> rfl
  rw [pieces, hpadded, Text.words_append_blank _ hspace, Text.words_append_blank _ hspace, hword,
    List.map_append, List.map_append, List.map_singleton, hpiece]
  rfl

/-- **The tokens of a text are the words of its padded text.** -/
theorem tokensOf_eq_pieces (cs : List Char) : tokensOf cs = pieces cs := by
  induction cs using Text.run_induction (P := IsPlain) with
  | run r hr => rw [tokensOf_of_plain hr, pieces_of_plain hr]
  | cut r c rest hr hc ih =>
    -- what is not plain is a blank or a parenthesis, and both functions are cut there
    rcases Text.isBlank_or_isParen hc with hblank | hparen
    · rw [tokensOf_blank hblank, pieces_blank hblank, tokensOf_of_plain hr, pieces_of_plain hr, ih]
    · rw [tokensOf_paren hparen, pieces_paren hparen, tokensOf_of_plain hr, pieces_of_plain hr, ih]

/-- **The tokens together are the text without its blanks.** -/
theorem join_text_scan (text : String) :
    String.join ((scan text).map Token.text) =
      String.ofList (text.toList.filter (!Text.isBlank ·)) := by
  have htext : ∀ w : List Char, (ofPiece (String.ofList w)).text.toList = w := fun w => by
    rw [text_ofPiece, String.toList_ofList]
  have hpieces : (pieces text.toList).map (·.text.toList) =
      Text.words (Text.padded text.toList) := by
    rw [pieces, List.map_map]
    exact (List.map_congr_left fun w _ => htext w).trans (List.map_id' _)
  apply String.toList_inj.1
  calc (String.join ((scan text).map Token.text)).toList
      = ((pieces text.toList).map (·.text.toList)).flatten := by
        rw [String.toList_join, List.flatMap_map, scan_eq_tokensOf, tokensOf_eq_pieces,
          List.flatMap_def]
    _ = text.toList.filter (!Text.isBlank ·) := by
        rw [hpieces, Text.flatten_words, Text.filter_padded]
    _ = (String.ofList (text.toList.filter (!Text.isBlank ·))).toList :=
        String.toList_ofList.symm

/-- **Padding and slicing give the tokens of a text**, of every text: the words of the padded text
are its tokens, no slice of its words falls inside a character, the tokens together are the text
without its blanks, and a word holds neither blanks nor parentheses. -/
theorem scan_eq_pieces_and_slices (text : String) :
    scan text = (Text.words (Text.padded text.toList)).map (fun w => ofPiece (String.ofList w)) ∧
      sliceWords? ((Text.words text.toList).map String.ofList) = some (scan text) ∧
      String.join ((scan text).map Token.text) =
        String.ofList (text.toList.filter (!Text.isBlank ·)) ∧
      ∀ w, .word w ∈ scan text →
        w ≠ "" ∧ ∀ c ∈ w.toList, Text.isBlank c = false ∧ c ≠ '(' ∧ c ≠ ')' := by
  refine ⟨tokensOf_eq_pieces text.toList, sliceWords?_words text.toList, join_text_scan text, ?_⟩
  intro w hw
  have hword : IsWord w := isWord_of_mem_scan hw
  exact ⟨hword.ne_empty, hword.plain⟩

/-- Characters of two bytes before and behind parentheses. -/
theorem scan_eq_pieces_and_slices_wide :
    sliceWords? ((Text.words "(größe > 1)AND(b = é)".toList).map String.ofList) =
        some [.openParen, .word "größe", .word ">", .word "1", .closeParen, .connective .and,
          .openParen, .word "b", .word "=", .word "é", .closeParen] ∧
      .word "é" ∈ scan "(größe > 1)AND(b = é)" ∧
      ∀ c ∈ "é".toList, Text.isBlank c = false ∧ c ≠ '(' ∧ c ≠ ')' := by
  have hscan : scan "(größe > 1)AND(b = é)" =
      [.openParen, .word "größe", .word ">", .word "1", .closeParen, .connective .and,
        .openParen, .word "b", .word "=", .word "é", .closeParen] := by
    decide +kernel
  have hmem : .word "é" ∈ scan "(größe > 1)AND(b = é)" := by
    rw [hscan]
    decide +kernel
  obtain ⟨-, hslices, -, hwords⟩ := scan_eq_pieces_and_slices "(größe > 1)AND(b = é)"
  exact ⟨hscan ▸ hslices, hmem, (hwords "é" hmem).2⟩

end Token

end BusinessRules
