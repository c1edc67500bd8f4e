import BusinessRules.Text.Blank
import Mathlib.Tactic.SplitIfs

/-!
# The bytes of a text

A text is stored as bytes, one to four for a character. Two questions about the characters have the
same answer when they are asked of the bytes: which of two texts comes first, and whether a text
consists of digits.

* `Text.bytes`, `Text.codePoints` — a text as numbers;
* `Text.Precedes` — the lexicographic order of lists of numbers;
* `Text.DiffersBelow` — two byte lists whose first difference is a smaller byte on the left.

Principal results: `Text.lt_iff_codePoints` (texts are ordered by their code points),
`Text.precedes_bytes_iff` (the order of the bytes is that of the code points) and
`Text.forall_isDigitByte_bytes` (a text of digit bytes is one of digits).
-/

namespace BusinessRules.Text

def bytes (text : String) : List UInt8 := text.toByteArray.data.toList

def codePoints (text : String) : List Nat := text.toList.map Char.toNat

theorem bytes_eq_flatMap (text : String) :
    bytes text = text.toList.flatMap String.utf8EncodeChar := by
  rw [bytes, ← String.utf8Encode_toList, List.utf8Encode, List.toList_data_toByteArray]

theorem bytes_inj {s t : String} : bytes s = bytes t ↔ s = t := by
  unfold bytes
  rw [Array.toList_inj, ← ByteArray.ext_iff, String.toByteArray_inj]

theorem codePoints_inj {s t : String} : codePoints s = codePoints t ↔ s = t := by
  unfold codePoints
  rw [List.map_inj_right fun c d h => Char.toNat_inj.1 h, String.toList_inj]

/-! ## Orders -/

/-- The lexicographic order: a list comes before the lists that it begins, and otherwise the first
difference decides. -/
def Precedes {α : Type} (lt : α → α → Prop) (xs ys : List α) : Prop := List.Lex lt xs ys

theorem toNat_lt_toNat {c d : Char} : c.toNat < d.toNat ↔ c < d := Iff.rfl

/-- Texts are ordered by their code points. -/
theorem lt_iff_codePoints {s t : String} :
    s < t ↔ Precedes (· < ·) (codePoints s) (codePoints t) := by
  rw [String.lt_iff, codePoints, codePoints]
  generalize s.toList = cs
  generalize t.toList = ds
  induction cs generalizing ds with
  | nil => cases ds <;> simp [Precedes]
  | cons c rest ih =>
    cases ds with
    | nil => simp [Precedes]
    | cons d others =>
      rw [List.cons_lt_cons_iff, ih others, List.map_cons, List.map_cons, Precedes, Precedes,
        List.cons_lex_cons_iff, toNat_lt_toNat, Char.toNat_inj]

/-- The first difference of two byte lists is a smaller byte in the first. -/
inductive DiffersBelow : List UInt8 → List UInt8 → Prop where
  | here {a b : UInt8} {r s : List UInt8} (less : a < b) : DiffersBelow (a :: r) (b :: s)
  | behind {a : UInt8} {r s : List UInt8} (further : DiffersBelow r s) :
      DiffersBelow (a :: r) (a :: s)

theorem DiffersBelow.precedes {xs ys : List UInt8} (h : DiffersBelow xs ys) (us vs : List UInt8) :
    Precedes (· < ·) (xs ++ us) (ys ++ vs) := by
  induction h with
  | here less => exact .rel less
  | behind further ih => exact .cons ih

theorem DiffersBelow.of_le {m n : Nat} {r s : List UInt8} (hn : n < 256) (hle : m ≤ n)
    (h : m = n → DiffersBelow r s) :
    DiffersBelow (UInt8.ofNat m :: r) (UInt8.ofNat n :: s) := by
  by_cases heq : m = n
  · rw [heq]
    exact .behind (h heq)
  · refine .here (UInt8.lt_iff_toNat_lt.2 ?_)
    rw [UInt8.toNat_ofNat', UInt8.toNat_ofNat']
    omega

/-! ## Encodings -/

/-- The first byte of a code point's encoding. Its value grows with the length of the encoding. -/
def leadByte (v : Nat) : Nat :=
  if v ≤ 0x7f then v
  else if v ≤ 0x7ff then v / 64 + 0xc0
  else if v ≤ 0xffff then v / 4096 + 0xe0
  else v / 262144 + 0xf0

/-- A byte behind the first, which holds one digit to the base 64. -/
def digitByte (v : Nat) : UInt8 := UInt8.ofNat (v % 64 + 0x80)

/-- The bytes behind the first of a code point's encoding. -/
def behindLead (v : Nat) : List UInt8 :=
  if v ≤ 0x7f then []
  else if v ≤ 0x7ff then [digitByte v]
  else if v ≤ 0xffff then [digitByte (v / 64), digitByte v]
  else [digitByte (v / 4096), digitByte (v / 64), digitByte v]

theorem toNat_lt (c : Char) : c.toNat < 0x110000 := by
  have hvalid := c.valid
  simp only [UInt32.isValidChar, Nat.isValidChar] at hvalid
  show c.val.toNat < _
  omega

theorem utf8EncodeChar_eq (c : Char) :
    String.utf8EncodeChar c = UInt8.ofNat (leadByte c.toNat) :: behindLead c.toNat := by
  have hmax := toNat_lt c
  have hcode : c.val.toNat = c.toNat := rfl
  unfold String.utf8EncodeChar leadByte behindLead digitByte
  dsimp only
  rw [hcode]
  generalize c.toNat = v at hmax
  -- the remainders of the leading digits do nothing, as there are no higher digits
  split_ifs with hone htwo hthree
  · rfl
  · rw [Nat.mod_eq_of_lt (by omega : v / 64 < 0x20)]
  · rw [Nat.mod_eq_of_lt (by omega : v / 4096 < 0x10)]
  · rw [Nat.mod_eq_of_lt (by omega : v / 262144 < 0x08)]

theorem leadByte_lt {v : Nat} (h : v < 0x110000) : leadByte v < 256 := by
  unfold leadByte
  split_ifs <;> omega

theorem leadByte_le {v w : Nat} (h : v ≤ w) (hw : w < 0x110000) : leadByte v ≤ leadByte w := by
  unfold leadByte
  split_ifs <;> omega

/-- Two code points with the same first byte have encodings of one length. -/
theorem of_leadByte_eq {v w : Nat} (hlt : v < w) (hw : w < 0x110000)
    (h : leadByte v = leadByte w) :
    (0x7f < v ∧ w ≤ 0x7ff ∧ v / 64 = w / 64) ∨ (0x7ff < v ∧ w ≤ 0xffff ∧ v / 4096 = w / 4096) ∨
      (0xffff < v ∧ v / 262144 = w / 262144) := by
  unfold leadByte at h
  split_ifs at h <;> omega

theorem DiffersBelow.digit {v w : Nat} {r s : List UInt8} (hle : v % 64 ≤ w % 64)
    (h : v % 64 = w % 64 → DiffersBelow r s) :
    DiffersBelow (digitByte v :: r) (digitByte w :: s) :=
  .of_le (by omega) (by omega) fun heq => h (by omega)

/-- The encoding of a smaller character differs below that of a larger one. -/
theorem differsBelow_utf8EncodeChar {c d : Char} (h : c < d) :
    DiffersBelow (String.utf8EncodeChar c) (String.utf8EncodeChar d) := by
  have hlt : c.toNat < d.toNat := h
  have hmax := toNat_lt d
  rw [utf8EncodeChar_eq, utf8EncodeChar_eq]
  refine .of_le (leadByte_lt hmax) (leadByte_le (Nat.le_of_lt hlt) hmax) fun heq => ?_
  generalize c.toNat = v at hlt heq
  generalize d.toNat = w at hlt heq hmax
  -- with equal first bytes, the digits behind them decide from left to right
  unfold behindLead
  rcases of_leadByte_eq hlt hmax heq with ⟨hv, hw, htop⟩ | ⟨hv, hw, htop⟩ | ⟨hv, htop⟩
  · rw [if_neg (by omega), if_pos (by omega), if_neg (by omega), if_pos hw]
    exact .digit (by omega) fun hlast => absurd hlast (by omega)
  · rw [if_neg (by omega), if_neg (by omega), if_pos (by omega), if_neg (by omega),
      if_neg (by omega), if_pos hw]
    exact .digit (by omega) fun _ => .digit (by omega) fun hlast => absurd hlast (by omega)
  · rw [if_neg (by omega), if_neg (by omega), if_neg (by omega), if_neg (by omega),
      if_neg (by omega), if_neg (by omega)]
    exact .digit (by omega) fun _ => .digit (by omega) fun _ =>
      .digit (by omega) fun hlast => absurd hlast (by omega)

/-! ## The order of the bytes -/

theorem precedes_append_left (p xs ys : List UInt8) :
    Precedes (· < ·) (p ++ xs) (p ++ ys) ↔ Precedes (· < ·) xs ys := by
  induction p with
  | nil => rfl
  | cons b rest ih =>
    rw [List.cons_append, List.cons_append, Precedes, List.cons_lex_cons_iff, ← Precedes, ih]
    simp

theorem not_precedes_of_precedes {xs ys : List UInt8} (h : Precedes (· < ·) xs ys) :
    ¬ Precedes (· < ·) ys xs :=
  List.lex_asymm (fun hlt => UInt8.lt_asymm hlt) h

/-- **The bytes of texts are ordered as their characters are.** -/
theorem precedes_bytes_iff {s t : String} : Precedes (· < ·) (bytes s) (bytes t) ↔ s < t := by
  rw [String.lt_iff, bytes_eq_flatMap, bytes_eq_flatMap]
  generalize s.toList = cs
  generalize t.toList = ds
  induction cs generalizing ds with
  | nil =>
    cases ds with
    | nil => simp [Precedes]
    | cons d others => simp [Precedes, utf8EncodeChar_eq]
  | cons c rest ih =>
    cases ds with
    | nil => simp [Precedes]
    | cons d others =>
      rw [List.flatMap_cons, List.flatMap_cons, List.cons_lt_cons_iff]
      rcases Std.lt_trichotomy c d with hlt | rfl | hgt
      · simpa [hlt] using (differsBelow_utf8EncodeChar hlt).precedes _ _
      · rw [precedes_append_left, ih others]
        simp
      · have hbytes := (differsBelow_utf8EncodeChar hgt).precedes
          (others.flatMap String.utf8EncodeChar) (rest.flatMap String.utf8EncodeChar)
        simp [not_precedes_of_precedes hbytes, Char.lt_asymm hgt, (Char.ne_of_lt hgt).symm]

/-! ## Digits -/

/-- A byte that is the character of a digit. -/
def isDigitByte (b : UInt8) : Bool := 0x30 ≤ b && b ≤ 0x39

theorem isDigit_iff {c : Char} : c.isDigit = true ↔ 48 ≤ c.toNat ∧ c.toNat ≤ 57 := by
  simp only [Char.isDigit, Bool.and_eq_true, decide_eq_true_eq, ge_iff_le, UInt32.le_iff_toNat_le]
  exact Iff.rfl

theorem isDigitByte_ofNat {n : Nat} (h : n < 256) :
    isDigitByte (UInt8.ofNat n) = true ↔ 48 ≤ n ∧ n ≤ 57 := by
  simp [isDigitByte, UInt8.le_iff_toNat_le, UInt8.toNat_ofNat', Nat.mod_eq_of_lt h]

/-- The bytes of a character are digits exactly if it is one: all others begin with a byte beyond
the digits. -/
theorem forall_isDigitByte_utf8EncodeChar {c : Char} :
    (∀ b ∈ String.utf8EncodeChar c, isDigitByte b = true) ↔ c.isDigit = true := by
  have hmax := toNat_lt c
  rw [utf8EncodeChar_eq, List.forall_mem_cons, isDigitByte_ofNat (leadByte_lt hmax), isDigit_iff]
  generalize c.toNat = v at hmax
  unfold leadByte behindLead
  split_ifs with hone htwo hthree
  · simp
  all_goals omega

/-- **A text of digit bytes is one of digits.** -/
theorem forall_isDigitByte_bytes {text : String} :
    (∀ b ∈ bytes text, isDigitByte b = true) ↔ ∀ c ∈ text.toList, c.isDigit = true := by
  rw [bytes_eq_flatMap]
  simp only [List.mem_flatMap, forall_exists_index, and_imp]
  constructor
  · intro h c hc
    exact forall_isDigitByte_utf8EncodeChar.1 fun b hb => h b c hc hb
  · intro h b c hc hb
    exact forall_isDigitByte_utf8EncodeChar.2 (h c hc) b hb

/-- A digit is one byte, its code point. -/
theorem bytes_of_isDigit {text : String} (h : ∀ c ∈ text.toList, c.isDigit = true) :
    bytes text = text.toList.map fun c => UInt8.ofNat c.toNat := by
  rw [bytes_eq_flatMap]
  generalize text.toList = cs at h
  induction cs with
  | nil => rfl
  | cons c rest ih =>
    obtain ⟨hc, hrest⟩ := List.forall_mem_cons.1 h
    have hone : c.toNat ≤ 0x7f := by
      rw [isDigit_iff] at hc
      omega
    rw [List.flatMap_cons, ih hrest, utf8EncodeChar_eq, leadByte, behindLead, if_pos hone,
      if_pos hone]
    rfl

end BusinessRules.Text
