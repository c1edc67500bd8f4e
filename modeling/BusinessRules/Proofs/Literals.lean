import BusinessRules.Evaluation.Literal
import BusinessRules.Proofs.ByteOffsets
import BusinessRules.Proofs.TextBytes
import Mathlib.Data.List.Basic

/-!
# Literals by their bytes

A literal is what stands inside one pair of quotes, or the whole text without such a pair. It is an
integer if it consists of digits, one at least, whose value fits; in every other case it is a text.
The same literal is found on the bytes: the quotes are sliced off at byte offsets, every byte has to
be a digit, and the digits are read one after the other until the value no longer fits.

* `Decimal.placeValue` — the value of digits by their places;
* `Literal.Unquoted` — a text and what stands inside its quotes;
* `Literal.Spells` — a text of digits and its value;
* `Literal.ofBytes?` — the literal found on the bytes, `none` where a slice fails.

Principal results: `Decimal.value_eq_placeValue` (digits read from the left have the value of their
places), `Literal.unquoted_iff` (one pair of quotes at most), `Literal.ofRaw_eq_integer_iff`,
`Literal.readDigits?_eq_some_iff` (reading stops exactly where the value does not fit),
`Literal.ofBytes?_eq` (no slice fails) and `Literal.ofRaw_of_unquoted`.
-/

namespace BusinessRules

namespace Decimal

/-! ## Values -/

/-- The value of digits: each counts as often as its place says. -/
def placeValue : List Char → Nat
  | [] => 0
  | c :: rest => digitValue c * tenTo rest.length + placeValue rest

theorem foldl_digits (cs : List Char) (n : Nat) :
    cs.foldl (fun n c => 10 * n + digitValue c) n = n * tenTo cs.length + placeValue cs := by
  induction cs generalizing n with
  | nil => simp [tenTo, placeValue]
  | cons c rest ih =>
    have hten : tenTo (rest.length + 1) = 10 * tenTo rest.length := Nat.mul_comm _ _
    rw [List.foldl_cons, ih, placeValue, List.length_cons, hten]
    simp only [Nat.add_mul, Nat.mul_assoc, Nat.mul_left_comm n 10, Nat.add_assoc]

/-- **Digits read from the left have the value of their places.** -/
theorem value_eq_placeValue (cs : List Char) : value cs = placeValue cs := by
  rw [value, foldl_digits, Nat.zero_mul, Nat.zero_add]

end Decimal

namespace Literal

/-! ## Quotes -/

/-- The two quotes. -/
def quotes : List Char := ['\'', '"']

/-- What stands inside the quotes of a text: the text without its first and last character if these
are the same quote and two characters, otherwise the whole text. -/
inductive Unquoted (raw : String) : String → Prop where
  | quoted {quote : Char} {text : String} (mark : quote ∈ quotes)
      (spelling : raw.toList = quote :: (text.toList ++ [quote])) : Unquoted raw text
  | whole (bare : ∀ quote ∈ quotes, ∀ inside, raw.toList ≠ quote :: (inside ++ [quote])) :
      Unquoted raw raw

theorem stripQuotes_quoted {quote : Char} (mark : quote ∈ quotes) (inside : List Char) :
    stripQuotes (quote :: (inside ++ [quote])) = inside := by
  have hquote : quote = '\'' ∨ quote = '"' := by simpa [quotes] using mark
  rw [stripQuotes, if_pos ⟨hquote, List.getLast?_concat⟩, List.dropLast_concat]

theorem stripQuotes_bare {cs : List Char}
    (bare : ∀ quote ∈ quotes, ∀ inside, cs ≠ quote :: (inside ++ [quote])) :
    stripQuotes cs = cs := by
  cases cs with
  | nil => rfl
  | cons c rest =>
    rw [stripQuotes, if_neg]
    rintro ⟨hquote, hlast⟩
    obtain ⟨inside, rfl⟩ := List.getLast?_eq_some_iff.1 hlast
    exact bare c (by simpa [quotes] using hquote) inside rfl

/-- **At most one pair of quotes is taken off**, and what is left is determined. -/
theorem unquoted_iff {raw text : String} :
    Unquoted raw text ↔ text = String.ofList (stripQuotes raw.toList) := by
  constructor
  · intro h
    cases h with
    | quoted mark spelling => rw [spelling, stripQuotes_quoted mark, String.ofList_toList]
    | whole bare => rw [stripQuotes_bare bare, String.ofList_toList]
  · rintro rfl
    by_cases h : ∃ quote ∈ quotes, ∃ inside, raw.toList = quote :: (inside ++ [quote])
    · obtain ⟨quote, mark, inside, hraw⟩ := h
      refine .quoted mark ?_
      rw [hraw, stripQuotes_quoted mark, String.toList_ofList]
    · have bare : ∀ quote ∈ quotes, ∀ inside, raw.toList ≠ quote :: (inside ++ [quote]) := by
        intro quote mark inside hraw
        exact h ⟨quote, mark, inside, hraw⟩
      rw [stripQuotes_bare bare, String.ofList_toList]
      exact .whole bare

/-! ## Integers -/

/-- A text of digits, one at least, with the given value. -/
structure Spells (text : String) (n : Nat) : Prop where
  ne_empty : text ≠ ""
  digits : ∀ c ∈ text.toList, c.isDigit = true
  value_eq : Decimal.placeValue text.toList = n

section Outcomes

variable {raw text : String} {n : Fin bound}

/-- The digits inside the quotes, in the form in which a literal is found. -/
theorem spells_ofList_iff {body : List Char} {m : Nat} :
    Spells (String.ofList body) m ↔
      (body ≠ [] ∧ body.all Char.isDigit = true) ∧ Decimal.value body = m := by
  rw [List.all_eq_true, Decimal.value_eq_placeValue]
  constructor
  · intro h
    have hbody := h.digits
    have hvalue := h.value_eq
    rw [String.toList_ofList] at hbody hvalue
    exact ⟨⟨fun hnil => h.ne_empty (by rw [hnil, String.ofList_nil]), hbody⟩, hvalue⟩
  · rintro ⟨⟨hne, hbody⟩, hvalue⟩
    exact ⟨by simpa using hne, by simpa using hbody, by simpa using hvalue⟩

/-- **A literal is an integer exactly if digits stand inside the quotes and their value fits.** -/
theorem ofRaw_eq_integer_iff (h : Unquoted raw text) :
    ofRaw raw = .integer n ↔ Spells text n.val := by
  obtain rfl := unquoted_iff.1 h
  rw [spells_ofList_iff]
  unfold ofRaw
  generalize stripQuotes raw.toList = body
  dsimp only
  split_ifs with hdigits hfits
  · simp [hdigits, Fin.ext_iff]
  · have hvalue : Decimal.value body ≠ n.val := fun heq => hfits (heq ▸ n.isLt)
    simp [hvalue]
  · simp only [hdigits, false_and]

theorem ofRaw_integer_or_text (h : Unquoted raw text) :
    (∃ n, ofRaw raw = .integer n) ∨ ofRaw raw = .text text := by
  obtain rfl := unquoted_iff.1 h
  unfold ofRaw
  dsimp only
  split_ifs with hdigits hfits
  · exact .inl ⟨_, rfl⟩
  · exact .inr rfl
  · exact .inr rfl

/-- In every other case it is the text inside the quotes. -/
theorem ofRaw_eq_text_iff (h : Unquoted raw text) {s : String} :
    ofRaw raw = .text s ↔ s = text ∧ ∀ n : Fin bound, ¬ Spells text n.val := by
  rcases ofRaw_integer_or_text h with ⟨n, hraw⟩ | hraw
  · have hspells := (ofRaw_eq_integer_iff h).1 hraw
    simp only [hraw, reduceCtorEq, false_iff]
    exact fun hnone => hnone.2 n hspells
  · have hnone (n : Fin bound) : ¬ Spells text n.val := by
      rw [← ofRaw_eq_integer_iff h, hraw]
      exact Literal.noConfusion
    rw [hraw, Literal.text.injEq, eq_comm]
    exact (and_iff_left hnone).symm

end Outcomes

/-! ## Slices -/

/-- The text without its quotes, sliced at byte offsets; `none` if an offset lies inside a
character. -/
def sliceQuotes? (raw : String) : List Char → Option String
  | [] => some raw
  | quote :: others =>
    if 2 ≤ raw.utf8ByteSize ∧ raw.toList.head? = some quote ∧ raw.toList.getLast? = some quote then
      Text.slice? raw 1 (raw.utf8ByteSize - 1)
    else sliceQuotes? raw others

theorem utf8ByteSize_of_mem_quotes {quote : Char} (mark : quote ∈ quotes) :
    (String.singleton quote).utf8ByteSize = 1 := by
  simp only [quotes, List.mem_cons, List.not_mem_nil, or_false] at mark
  rcases mark with rfl | rfl <;> rfl

theorem slice?_quoted {quote : Char} (mark : quote ∈ quotes) {raw text : String}
    (spelling : raw.toList = quote :: (text.toList ++ [quote])) :
    Text.slice? raw 1 (raw.utf8ByteSize - 1) = some text := by
  have hsize := utf8ByteSize_of_mem_quotes mark
  have hraw : raw = String.singleton quote ++ text ++ String.singleton quote := by
    rw [← String.toList_inj, spelling]
    simp
  have hstop : raw.utf8ByteSize - 1 = (String.singleton quote ++ text).utf8ByteSize := by
    rw [hraw, String.utf8ByteSize_append, hsize, Nat.add_sub_cancel]
  have hslice := Text.slice?_append (String.singleton quote) text (String.singleton quote)
  rwa [← hraw, ← hstop, hsize] at hslice

/-- A lone quote has one byte, and every longer text that begins with one has two at least. -/
theorem two_le_utf8ByteSize_iff {quote : Char} (mark : quote ∈ quotes) {raw : String}
    {rest : List Char} (spelling : raw.toList = quote :: rest) : 2 ≤ raw.utf8ByteSize ↔ rest ≠ [] := by
  have hraw : raw = String.singleton quote ++ String.ofList rest := by
    rw [← String.toList_inj, spelling]
    simp
  rw [hraw, String.utf8ByteSize_append, utf8ByteSize_of_mem_quotes mark]
  have hempty : (String.ofList rest).utf8ByteSize = 0 ↔ rest = [] := by
    rw [String.utf8ByteSize_eq_zero_iff, String.ofList_eq_empty_iff]
  rw [Ne, ← hempty]
  omega

theorem sliceQuotes?_quoted {quote : Char} (hquote : quote ∈ quotes) {raw text : String}
    (spelling : raw.toList = quote :: (text.toList ++ [quote])) {marks : List Char}
    (mark : quote ∈ marks) : sliceQuotes? raw marks = some text := by
  have hlong : 2 ≤ raw.utf8ByteSize := (two_le_utf8ByteSize_iff hquote spelling).2 (by simp)
  have hhead : raw.toList.head? = some quote := by rw [spelling, List.head?_cons]
  have hlast : raw.toList.getLast? = some quote := by
    rw [spelling, ← List.cons_append, List.getLast?_concat]
  induction marks with
  | nil => exact absurd mark List.not_mem_nil
  | cons m others ih =>
    rw [sliceQuotes?]
    split_ifs with hm
    · exact slice?_quoted hquote spelling
    · refine ih ((List.mem_cons.1 mark).resolve_left ?_)
      rintro rfl
      exact hm ⟨hlong, hhead, hlast⟩

theorem sliceQuotes?_bare {raw : String} {marks : List Char} (hmarks : ∀ m ∈ marks, m ∈ quotes)
    (bare : ∀ quote ∈ marks, ∀ inside, raw.toList ≠ quote :: (inside ++ [quote])) :
    sliceQuotes? raw marks = some raw := by
  induction marks with
  | nil => rfl
  | cons m others ih =>
    obtain ⟨hm, hothers⟩ := List.forall_mem_cons.1 hmarks
    obtain ⟨hbare, hbares⟩ := List.forall_mem_cons.1 bare
    rw [sliceQuotes?, if_neg, ih hothers hbares]
    rintro ⟨hlong, hhead, hlast⟩
    obtain ⟨rest, hraw⟩ := List.head?_eq_some_iff.1 hhead
    have hrest := (two_le_utf8ByteSize_iff hm hraw).1 hlong
    rw [hraw, List.getLast?_cons_of_ne_nil hrest] at hlast
    obtain ⟨inside, rfl⟩ := List.getLast?_eq_some_iff.1 hlast
    exact hbare inside hraw

/-- **No slice fails**: what stands inside the quotes begins and ends between characters. -/
theorem sliceQuotes?_eq {raw text : String} (h : Unquoted raw text) :
    sliceQuotes? raw quotes = some text := by
  cases h with
  | quoted mark spelling => exact sliceQuotes?_quoted mark spelling mark
  | whole bare => exact sliceQuotes?_bare (fun _ hm => hm) bare

/-! ## Digits read from bytes -/

/-- A number with the digit of a byte behind it. -/
def appendDigit (n : Nat) (b : UInt8) : Nat := 10 * n + (b.toNat - 48)

/-- Reads digits behind a number; `none` as soon as the number does not fit. -/
def readDigits? (n : Fin bound) : List UInt8 → Option (Fin bound)
  | [] => some n
  | b :: rest =>
    if h : appendDigit n b < bound then readDigits? ⟨appendDigit n b, h⟩ rest else none

theorem le_appendDigit (n : Nat) (b : UInt8) : n ≤ appendDigit n b := by
  unfold appendDigit
  omega

theorem le_foldl_appendDigit (bs : List UInt8) (n : Nat) : n ≤ bs.foldl appendDigit n := by
  induction bs generalizing n with
  | nil => exact Nat.le_refl n
  | cons b rest ih => exact Nat.le_trans (le_appendDigit n b) (ih (appendDigit n b))

/-- **Reading stops exactly where the number does not fit**: no number on the way wraps. -/
theorem readDigits?_eq_some_iff {bs : List UInt8} {n m : Fin bound} :
    readDigits? n bs = some m ↔ bs.foldl appendDigit n = m.val := by
  induction bs generalizing n with
  | nil => rw [readDigits?, Option.some.injEq, List.foldl_nil, Fin.ext_iff]
  | cons b rest ih =>
    rw [readDigits?, List.foldl_cons]
    split_ifs with hfits
    · exact ih
    · -- a number that does not fit does not shrink again
      have hle := le_foldl_appendDigit rest (appendDigit n b)
      have hlt := m.isLt
      exact iff_of_false not_false (by omega)

/-- The value of the bytes of digits is that of the digits. -/
theorem foldl_appendDigit_bytes {text : String} (hdigits : ∀ c ∈ text.toList, c.isDigit = true) :
    (Text.bytes text).foldl appendDigit 0 = Decimal.placeValue text.toList := by
  rw [Text.bytes_of_isDigit hdigits, List.foldl_map, ← Decimal.value_eq_placeValue, Decimal.value]
  refine List.foldl_ext _ _ _ fun n c hc => ?_
  have hcode := Text.isDigit_iff.1 (hdigits c hc)
  rw [appendDigit, Decimal.digitValue, UInt8.toNat_ofNat', Nat.mod_eq_of_lt (by omega)]

/-- A text spells a number below the bound exactly if its bytes are digits, one at least, and
reading them gives that number. -/
theorem spells_iff_readDigits? {text : String} {n : Fin bound} :
    Spells text n.val ↔
      (text ≠ "" ∧ (Text.bytes text).all Text.isDigitByte = true) ∧
        readDigits? ⟨0, by decide⟩ (Text.bytes text) = some n := by
  rw [List.all_eq_true, Text.forall_isDigitByte_bytes, readDigits?_eq_some_iff]
  constructor
  · intro h
    exact ⟨⟨h.ne_empty, h.digits⟩, by rw [foldl_appendDigit_bytes h.digits, h.value_eq]⟩
  · rintro ⟨⟨hne, hdigits⟩, hvalue⟩
    exact ⟨hne, hdigits, by rw [← foldl_appendDigit_bytes hdigits, hvalue]⟩

/-- The literal of a text, found on its bytes; `none` if a slice fails. -/
def ofBytes? (raw : String) : Option Literal :=
  (sliceQuotes? raw quotes).map fun text =>
    if text ≠ "" ∧ (Text.bytes text).all Text.isDigitByte = true then
      match readDigits? ⟨0, by decide⟩ (Text.bytes text) with
      | some n => .integer n
      | none => .text text
    else .text text

/-- **The literal found on the bytes is that of the characters.** -/
theorem ofBytes?_eq (raw : String) : ofBytes? raw = some (ofRaw raw) := by
  obtain ⟨text, h⟩ : ∃ text, Unquoted raw text := ⟨_, unquoted_iff.2 rfl⟩
  rw [ofBytes?, sliceQuotes?_eq h, Option.map_some, Option.some.injEq]
  split_ifs with hdigits
  · split
    · rename_i n hread
      exact ((ofRaw_eq_integer_iff h).2 (spells_iff_readDigits?.2 ⟨hdigits, hread⟩)).symm
    · rename_i hread
      refine ((ofRaw_eq_text_iff h).2 ⟨rfl, fun n hn => ?_⟩).symm
      rw [(spells_iff_readDigits?.1 hn).2] at hread
      cases hread
  · exact ((ofRaw_eq_text_iff h).2 ⟨rfl, fun n hn => hdigits (spells_iff_readDigits?.1 hn).1⟩).symm

/-- **A literal is decided by what stands inside the quotes of its text.** That is determined; the
literal is the integer `n` exactly if digits stand there that spell `n`, and that text exactly if it
spells no number below the bound; and it is found on the bytes without a slice that fails. -/
theorem ofRaw_of_unquoted (raw : String) :
    ∃ text, (∀ other, Unquoted raw other ↔ other = text) ∧
      (∀ n : Fin bound, ofRaw raw = .integer n ↔ Spells text n.val) ∧
      (∀ s, ofRaw raw = .text s ↔ s = text ∧ ∀ n : Fin bound, ¬ Spells text n.val) ∧
      ofBytes? raw = some (ofRaw raw) := by
  have h : Unquoted raw (String.ofList (stripQuotes raw.toList)) := unquoted_iff.2 rfl
  exact ⟨_, fun _ => unquoted_iff, fun _ => ofRaw_eq_integer_iff h, fun _ => ofRaw_eq_text_iff h,
    ofBytes?_eq raw⟩

example : ofRaw "'0009223372036854775807'" = .integer ⟨9223372036854775807, by decide⟩ ∧
    ofRaw "9223372036854775808" = .text "9223372036854775808" ∧
    ofRaw "\"'5'\"" = .text "'5'" := by
  decide +kernel

end Literal

end BusinessRules
