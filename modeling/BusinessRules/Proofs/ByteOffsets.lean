import BusinessRules.Proofs.Scanning
import BusinessRules.Proofs.Words

/-!
# Tokens sliced out of a text

The tokens of a word can be sliced out of it at byte offsets: its first parenthesis is searched,
what stands before is sliced off, the byte at the offset tells which parenthesis it is, and the
search goes on behind that byte. Offsets count bytes, and a character has one to four of them.

* `Text.sliceTo?`, `Text.sliceFrom?`, `Text.slice?` — the parts of a text before, behind and
  between offsets, `none` inside a character;
* `Text.parenOffset?` — the offset of the first parenthesis;
* `Token.sliceWord?`, `Token.sliceWords?` — the tokens of a word and of several, `none` where an
  offset lies inside a character or outside the text.

Principal results: `Text.sliceTo?_append`, `Text.sliceFrom?_append` (a text is sliced where two
texts meet) and `Token.sliceWords?_words` (every slice of the words of a text lies between
characters, and the tokens are those of one pass over the text).
-/

namespace BusinessRules

namespace Text

/-! ## Slices -/

/-- The text before an offset; `none` behind the end of the text and inside a character. -/
def sliceTo? (text : String) (offset : Nat) : Option String :=
  (text.pos? ⟨offset⟩).map fun p => (text.sliceTo p).copy

/-- The text from an offset on; `none` behind the end of the text and inside a character. -/
def sliceFrom? (text : String) (offset : Nat) : Option String :=
  (text.pos? ⟨offset⟩).map fun p => (text.sliceFrom p).copy

/-- Where two texts meet is a position between characters. -/
theorem pos?_append (before after : String) :
    ∃ p, (before ++ after).pos? ⟨before.utf8ByteSize⟩ = some p ∧ p.Splits before after := by
  have hvalid : (⟨before.utf8ByteSize⟩ : String.Pos.Raw).IsValid (before ++ after) :=
    String.Pos.Raw.isValid_iff_exists_append.2 ⟨before, after, rfl, rfl⟩
  have hslice : String.Pos.Raw.isValidForSlice (before ++ after).toSlice ⟨before.utf8ByteSize⟩ =
      true := by
    simpa using hvalid
  refine ⟨(before ++ after).pos ⟨before.utf8ByteSize⟩ hvalid, ?_, rfl, rfl⟩
  rw [String.pos?, String.Slice.pos?, dif_pos hslice]
  rfl

theorem sliceTo?_append (before after : String) :
    sliceTo? (before ++ after) before.utf8ByteSize = some before := by
  obtain ⟨p, hp, hsplits⟩ := pos?_append before after
  rw [sliceTo?, hp, Option.map_some, hsplits.copy_sliceTo_eq]

theorem sliceFrom?_append (before after : String) :
    sliceFrom? (before ++ after) before.utf8ByteSize = some after := by
  obtain ⟨p, hp, hsplits⟩ := pos?_append before after
  rw [sliceFrom?, hp, Option.map_some, hsplits.copy_sliceFrom_eq]

/-- The text between two offsets; `none` outside the text and inside a character. -/
def slice? (text : String) (start stop : Nat) : Option String :=
  (sliceTo? text stop).bind (sliceFrom? · start)

theorem slice?_append (before inside after : String) :
    slice? (before ++ inside ++ after) before.utf8ByteSize (before ++ inside).utf8ByteSize =
      some inside := by
  rw [slice?, sliceTo?_append, Option.bind_some, sliceFrom?_append]

example : sliceTo? "é(" 1 = none ∧ sliceTo? "é(" 2 = some "é" := by decide +kernel

theorem utf8ByteSize_of_sliceFrom? {text rest : String} {offset : Nat}
    (h : sliceFrom? text offset = some rest) :
    text.utf8ByteSize = offset + rest.utf8ByteSize := by
  obtain ⟨p, hp, rfl⟩ := Option.map_eq_some_iff.1 h
  have hoffset : p.offset.byteIdx = offset := by
    unfold String.pos? String.Slice.pos? at hp
    split at hp
    · cases hp
      rfl
    · cases hp
  have hsplits := p.splits
  have hsize := congrArg String.utf8ByteSize hsplits.eq_append
  rw [String.utf8ByteSize_append] at hsize
  rw [hsize, ← hoffset, hsplits.offset_eq_rawEndPos]
  rfl

/-! ## Parentheses -/

def isParen (c : Char) : Bool := c = '(' || c = ')'

theorem eq_or_eq_of_isParen {c : Char} (h : isParen c = true) : c = '(' ∨ c = ')' := by
  simpa [isParen] using h

theorem isBlank_of_isParen {c : Char} (h : isParen c = true) : isBlank c = false := by
  rcases eq_or_eq_of_isParen h with rfl | rfl <;> rfl

/-- Blanks and parentheses cut a text, all other characters are plain. -/
theorem isPlain_iff {c : Char} : IsPlain c ↔ isBlank c = false ∧ isParen c = false := by
  simp [IsPlain, isParen]

theorem isBlank_or_isParen {c : Char} (h : ¬ IsPlain c) : isBlank c = true ∨ isParen c = true := by
  cases hblank : isBlank c
  · simpa [isPlain_iff, hblank] using h
  · exact .inl rfl

theorem utf8ByteSize_singleton {c : Char} (h : isParen c = true) :
    (String.singleton c).utf8ByteSize = 1 := by
  rcases eq_or_eq_of_isParen h with rfl | rfl <;> rfl

/-- The byte offset of the first parenthesis. -/
def parenOffset? (text : String) : Option Nat :=
  (text.find? isParen).map (·.offset.byteIdx)

/-- The byte at an offset; `none` behind the end of the text. -/
def byte? (text : String) (offset : Nat) : Option UInt8 := text.toByteArray.data[offset]?

theorem parenOffset?_eq_none {text : String} (h : ∀ c ∈ text.toList, isParen c = false) :
    parenOffset? text = none := by
  rw [parenOffset?, Option.map_eq_none_iff, Option.eq_none_iff_forall_ne_some]
  intro p hp
  obtain ⟨before, c, after, hsplits, hc, -⟩ := String.find?_bool_eq_some_iff_splits.1 hp
  have hmem : c ∈ text.toList := by simp [hsplits.eq_append]
  rw [h c hmem] at hc
  cases hc

theorem parenOffset?_append {before : String} (h : ∀ c ∈ before.toList, isParen c = false)
    {c : Char} (hc : isParen c = true) (after : String) :
    parenOffset? (before ++ (String.singleton c ++ after)) = some before.utf8ByteSize := by
  obtain ⟨p, -, hsplits⟩ := pos?_append before (String.singleton c ++ after)
  have hfind := String.find?_bool_eq_some_iff_splits.2 ⟨before, c, after, hsplits, hc, h⟩
  rw [parenOffset?, hfind, Option.map_some, hsplits.offset_eq_rawEndPos]
  rfl

/-- Behind a text, a parenthesis is one byte. -/
theorem byte?_append (before : String) {c : Char} (hc : isParen c = true) (after : String) :
    byte? (before ++ (String.singleton c ++ after)) before.utf8ByteSize = some c.toUInt8 := by
  have hone : [c].utf8Encode.data = #[c.toUInt8] := by
    rcases eq_or_eq_of_isParen hc with rfl | rfl <;> decide
  have hsize : before.toByteArray.data.size = before.utf8ByteSize := String.size_toByteArray
  rw [byte?, String.toByteArray_append, String.toByteArray_append, ByteArray.data_append,
    ByteArray.data_append, String.toByteArray_singleton, hone,
    Array.getElem?_append_right (Nat.le_of_eq hsize), hsize, Nat.sub_self,
    Array.getElem?_append_left Nat.one_pos]
  rfl

end Text

namespace Token

/-! ## The search -/

/-- The parenthesis of a byte. -/
def ofByte (byte : UInt8) : Token :=
  if byte = '('.toUInt8 then .openParen else .closeParen

/-- The token of a run; an empty one is no token. -/
def ofRun (run : String) : List Token := if run = "" then [] else [ofWord run]

/-- The token before an offset; before offset zero stands none. -/
def sliceBefore? (text : String) (offset : Nat) : Option (List Token) :=
  if offset = 0 then some [] else (Text.sliceTo? text offset).map fun run => [ofWord run]

/-- The tokens sliced out of a word. -/
def sliceWord? (text : String) : Option (List Token) :=
  match Text.parenOffset? text with
  | none => some (ofRun text)
  | some offset =>
    match sliceBefore? text offset, Text.byte? text offset,
      hrest : Text.sliceFrom? text (offset + 1) with
    | some before, some byte, some rest =>
      have := Text.utf8ByteSize_of_sliceFrom? hrest
      (sliceWord? rest).map fun behind => before ++ ofByte byte :: behind
    | _, _, _ => none
termination_by text.utf8ByteSize

/-- The tokens sliced out of words one after the other. -/
def sliceWords? : List String → Option (List Token)
  | [] => some []
  | w :: ws =>
    match sliceWord? w, sliceWords? ws with
    | some tokens, some behind => some (tokens ++ behind)
    | _, _ => none

/-- A text without parentheses is one run. -/
theorem sliceWord?_of_not_isParen {text : String} (h : ∀ c ∈ text.toList, Text.isParen c = false) :
    sliceWord? text = some (ofRun text) := by
  rw [sliceWord?, Text.parenOffset?_eq_none h]

theorem sliceBefore?_append (before after : String) :
    sliceBefore? (before ++ after) before.utf8ByteSize = some (ofRun before) := by
  rw [sliceBefore?, Text.sliceTo?_append, ofRun]
  by_cases hnil : before = ""
  · rw [if_pos hnil, if_pos (String.utf8ByteSize_eq_zero_iff.2 hnil)]
  · rw [if_neg hnil, if_neg (mt String.utf8ByteSize_eq_zero_iff.1 hnil), Option.map_some]

/-- A text with a parenthesis is the run before it, the parenthesis and what is found behind. -/
theorem sliceWord?_append {before : String} (h : ∀ c ∈ before.toList, Text.isParen c = false)
    {c : Char} (hc : Text.isParen c = true) (after : String) :
    sliceWord? (before ++ (String.singleton c ++ after)) =
      (sliceWord? after).map fun behind => ofRun before ++ ofByte c.toUInt8 :: behind := by
  have hrest : Text.sliceFrom? (before ++ (String.singleton c ++ after))
      (before.utf8ByteSize + 1) = some after := by
    have hsize : (before ++ String.singleton c).utf8ByteSize = before.utf8ByteSize + 1 := by
      rw [String.utf8ByteSize_append, Text.utf8ByteSize_singleton hc]
    rw [← hsize, ← String.append_assoc, Text.sliceFrom?_append]
  rw [sliceWord?, Text.parenOffset?_append h hc]
  simp only [sliceBefore?_append, Text.byte?_append before hc]
  split
  · rename_i hbefore hbyte hafter
    rw [hrest] at hafter
    cases hbefore
    cases hbyte
    cases hafter
    rfl
  · rename_i hnone
    exact absurd hrest (hnone _ _ _ rfl rfl)

/-! ## The same tokens -/

theorem tokensOf_of_plain {cs : List Char} (h : ∀ c ∈ cs, IsPlain c) :
    tokensOf cs = ofRun (String.ofList cs) := by
  by_cases hnil : cs = []
  · rw [hnil]
    rfl
  · have hne : String.ofList cs ≠ "" := mt String.ofList_eq_empty_iff.1 hnil
    rw [tokensOf_run hnil h, ofRun, if_neg hne]

theorem tokensOf_paren {c : Char} (hc : Text.isParen c = true) (before after : List Char) :
    tokensOf (before ++ c :: after) = tokensOf before ++ ofByte c.toUInt8 :: tokensOf after := by
  rcases Text.eq_or_eq_of_isParen hc with rfl | rfl
  · exact tokensOf_openParen before after
  · exact tokensOf_closeParen before after

/-- **Every slice of a text without blanks lies between characters**, and its tokens are those of
one pass. -/
theorem sliceWord?_eq {cs : List Char} (h : ∀ c ∈ cs, Text.isBlank c = false) :
    sliceWord? (String.ofList cs) = some (tokensOf cs) := by
  -- from one parenthesis to the next, as the search goes
  induction cs using Text.run_induction (P := (Text.isParen · = false)) with
  | run r hr =>
    have hplain : ∀ c ∈ r, IsPlain c := fun c hc => Text.isPlain_iff.2 ⟨h c hc, hr c hc⟩
    rw [sliceWord?_of_not_isParen (by simpa using hr), tokensOf_of_plain hplain]
  | cut r c rest hr hc ih =>
    have hc : Text.isParen c = true := by simpa using hc
    have hrest : sliceWord? (String.ofList rest) = some (tokensOf rest) :=
      ih fun d hd => h d (by simp [hd])
    have hplain : ∀ d ∈ r, IsPlain d := fun d hd =>
      Text.isPlain_iff.2 ⟨h d (by simp [hd]), hr d hd⟩
    rw [String.ofList_append, String.ofList_cons, sliceWord?_append (by simpa using hr) hc, hrest,
      Option.map_some, tokensOf_paren hc, tokensOf_of_plain hplain]

theorem sliceWords?_eq {words : List (List Char)} (h : ∀ w ∈ words, Text.Unbroken w) :
    sliceWords? (words.map String.ofList) = some (words.flatMap tokensOf) := by
  induction words with
  | nil => rfl
  | cons w ws ih =>
    obtain ⟨hw, hws⟩ := List.forall_mem_cons.1 h
    rw [List.map_cons, sliceWords?, sliceWord?_eq hw.not_blank, ih hws, List.flatMap_cons]

/-- **The tokens sliced out of the words of a text are those of one pass over the text**, and no
slice fails. -/
theorem sliceWords?_words (cs : List Char) :
    sliceWords? ((Text.words cs).map String.ofList) = some (tokensOf cs) := by
  have hcut : ∀ before b after, Text.isBlank b = true →
      tokensOf (before ++ b :: after) = tokensOf before ++ tokensOf after :=
    fun before _ after hb => tokensOf_blank hb before after
  rw [sliceWords?_eq fun w => Text.unbroken_of_mem_words, Text.flatMap_words tokensOf_nil hcut]

end Token

end BusinessRules
