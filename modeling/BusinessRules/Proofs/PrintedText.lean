import BusinessRules.Proofs.DocumentText

/-!
# Printed documents

The compact text of a document is one of its texts, so it is read back as the document it was
printed from. All that can go wrong is a numeral that is no spelling of a number; those of natural
numbers are fine.

* `Document.quoted` — a document whose strings all spell texts;
* `Numeral.WellSpelled`, `Document.WellSpelled` — numerals that the grammar knows.

Principal results: `Lexeme.spelledBy_printString` (strings, with their escapes),
`Numeral.wellSpelled_ofNat` and `Document.read?_print`.
-/

namespace BusinessRules

open Decimal

/-! ## Numerals -/

namespace Decimal

theorem digitsOnto_eq_cons {n : Nat} (hn : 0 < n) (rest : List Char) :
    ∃ d ds, digitsOnto n rest = d :: ds ∧ d ≠ '0' := by
  have hlead : ∀ {d : Nat}, d < 10 → 0 < d → digitChar d ≠ '0' := by decide
  fun_induction digitsOnto n rest with
  | case1 n rest hone => exact ⟨_, _, rfl, hlead hone hn⟩
  | case2 n rest _ ih => exact ih (by omega)

end Decimal

namespace Json

theorem wholeDigits_digits (n : Nat) : WholeDigits (digits n) := by
  rcases Nat.eq_zero_or_pos n with rfl | hn
  · have hzero : digits 0 = ['0'] := by decide +kernel
    rw [hzero]
    exact .zero
  · obtain ⟨d, ds, hdigits, hd⟩ := digitsOnto_eq_cons hn []
    have hall : ∀ c ∈ digits n, c.isDigit = true := isDigit_of_mem_digits
    rw [digits, hdigits] at hall ⊢
    exact .other hd ⟨List.cons_ne_nil _ _, hall⟩

end Json

/-- A numeral whose digits the grammar allows. -/
structure Decimal.Numeral.WellSpelled (n : Numeral) : Prop where
  whole : Json.WholeDigits n.whole
  fraction : n.fraction ≠ [] → Json.Digits n.fraction
  exponent : ∀ e ∈ n.exponent, Json.Digits e.digits

theorem Decimal.Numeral.wellSpelled_ofNat (n : Nat) : (Numeral.ofNat n).WellSpelled where
  whole := Json.wholeDigits_digits n
  fraction h := absurd rfl h
  exponent := nofun

namespace Json

theorem numeralSpelled_print {n : Numeral} (h : n.WellSpelled) : NumeralSpelled n n.print := by
  obtain ⟨negative, whole, fraction, exponent⟩ := n
  have hfraction : FractionSpelled fraction (if fraction = [] then [] else '.' :: fraction) := by
    split
    · rename_i hnil
      rw [hnil]
      exact .absent
    · rename_i hne
      exact .digits (h.fraction hne)
  have hexponent : ∀ e ∈ exponent, ExponentSpelled (some e) e.print := by
    rintro ⟨negative, ds⟩ he
    cases negative with
    | true => exact .minus (.inl rfl) (h.exponent _ he)
    | false => exact .plus (.inl rfl) (h.exponent _ he)
  unfold Numeral.print
  rw [List.append_assoc, List.append_assoc]
  cases exponent with
  | none => exact .mk negative h.whole hfraction .absent
  | some e => exact .mk negative h.whole hfraction (hexponent e rfl)

/-! ## Strings -/

theorem hexCode?_fourHexDigits : ∀ n < 0x20,
    hexCode? '0' '0' (Nat.digitChar (n / 16 % 16)) (Nat.digitChar (n % 16)) = some n := by
  decide

/-- What is written for a character is a unit that spells it. -/
theorem exists_unit_stringChar (c : Char) :
    ∃ unit : StringUnit, unit.SpelledBy (stringChar c) ∧
      ∀ units spelled,
        Quotation.ofUnits (unit :: units) spelled = .ofUnits units (c :: spelled) := by
  unfold stringChar
  split_ifs with hmark hbackslash hb hf hn hr ht hcontrol
  all_goals subst_vars
  · exact ⟨.char '"', .letter rfl, fun _ _ => rfl⟩
  · exact ⟨.char '\\', .letter rfl, fun _ _ => rfl⟩
  · exact ⟨.char '\x08', .letter rfl, fun _ _ => rfl⟩
  · exact ⟨.char '\x0c', .letter rfl, fun _ _ => rfl⟩
  · exact ⟨.char '\n', .letter rfl, fun _ _ => rfl⟩
  · exact ⟨.char '\r', .letter rfl, fun _ _ => rfl⟩
  · exact ⟨.char '\t', .letter rfl, fun _ _ => rfl⟩
  · have hlow : isLowSurrogate c.toNat = false := by simp [isLowSurrogate]; omega
    have hhigh : isHighSurrogate c.toNat = false := by simp [isHighSurrogate]; omega
    refine ⟨.code c.toNat, .code (hexCode?_fourHexDigits _ hcontrol), fun units spelled => ?_⟩
    rw [Quotation.ofUnits.eq_def]
    simp [hlow, hhigh, Char.ofNat_toNat]
  · exact ⟨.char c, .plain (Nat.not_lt.1 hcontrol) hmark hbackslash, fun _ _ => rfl⟩

theorem exists_units_stringChars (cs : List Char) :
    ∃ units, UnitsSpelled units (cs.flatMap stringChar) ∧
      ∀ spelled,
        Quotation.ofUnits units spelled = .text (String.ofList (spelled.reverse ++ cs)) := by
  induction cs with
  | nil => exact ⟨[], .nil, fun spelled => by rw [List.append_nil]; rfl⟩
  | cons c cs ih =>
    obtain ⟨unit, hunit, hofUnit⟩ := exists_unit_stringChar c
    obtain ⟨units, hunits, hofUnits⟩ := ih
    refine ⟨unit :: units, .cons hunit hunits, fun spelled => ?_⟩
    rw [hofUnit, hofUnits, List.reverse_cons, List.append_assoc]
    rfl

/-- **A string is written as it is spelled.** -/
theorem Lexeme.spelledBy_printString (s : String) :
    (Lexeme.string (.text s)).SpelledBy (printString s).toList := by
  obtain ⟨units, hunits, hofUnits⟩ := exists_units_stringChars s.toList
  have hspelled := Lexeme.SpelledBy.string hunits
  rw [hofUnits, List.reverse_nil, List.nil_append, String.ofList_toList] at hspelled
  rw [printString, String.toList_ofList]
  exact hspelled

/-! ## Documents -/

namespace Document

mutual

/-- The document with every string as one that spells its text. -/
def quoted : Document String → Document Quotation
  | .null => .null
  | .bool b => .bool b
  | .number n => .number n
  | .string s => .string (.text s)
  | .array items => .array (quotedItems items)
  | .object members => .object (quotedMembers members)

def quotedItems : List (Document String) → List (Document Quotation)
  | [] => []
  | item :: rest => item.quoted :: quotedItems rest

def quotedMembers : List (String × Document String) → List (Quotation × Document Quotation)
  | [] => []
  | (key, value) :: rest => (.text key, value.quoted) :: quotedMembers rest

end

mutual

/-- All numerals of a document are well spelled. -/
def WellSpelled : Document String → Prop
  | .number n => n.WellSpelled
  | .array items => ItemsWellSpelled items
  | .object members => MembersWellSpelled members
  | _ => True

def ItemsWellSpelled : List (Document String) → Prop
  | [] => True
  | item :: rest => item.WellSpelled ∧ ItemsWellSpelled rest

def MembersWellSpelled : List (String × Document String) → Prop
  | [] => True
  | (_, value) :: rest => value.WellSpelled ∧ MembersWellSpelled rest

end

end Document

/-- A lexeme in front of others, without a space. -/
theorem Lexeme.SpelledBy.append {lexeme : Lexeme} {lexemes : List Lexeme} {cs rest : List Char}
    (h : lexeme.SpelledBy cs) (hrest : Lexeme.Spelled lexemes rest) :
    Lexeme.Spelled (lexeme :: lexemes) (cs ++ rest) := by
  have hnone : AllSpace [] := nofun
  exact .cons hnone h hrest

namespace Document

theorem toList_print_array (items : List (Document String)) :
    (Document.array items).print.toList =
      '[' :: ([','].intercalate ((itemTexts items).map String.toList) ++ [']']) := by
  rw [print, String.toList_append, String.toList_append, String.toList_intercalate]
  rfl

theorem toList_print_object (members : List (String × Document String)) :
    (Document.object members).print.toList =
      '\x7b' :: ([','].intercalate ((memberTexts members).map String.toList) ++ ['\x7d']) := by
  rw [print, String.toList_append, String.toList_append, String.toList_intercalate]
  rfl

theorem map_toList_memberTexts (key : String) (value : Document String)
    (members : List (String × Document String)) :
    (memberTexts ((key, value) :: members)).map String.toList =
      ((printString key).toList ++ ':' :: value.print.toList) ::
        (memberTexts members).map String.toList := by
  rw [memberTexts, List.map_cons, String.toList_append, String.toList_append, List.append_assoc]
  rfl

mutual

/-- The text of a document in front of other lexemes. -/
theorem spelled_print_append (d : Document String) (h : d.WellSpelled) {others : List Lexeme}
    {rest : List Char} (hrest : Lexeme.Spelled others rest) :
    Lexeme.Spelled (d.quoted.lexemes ++ others) (d.print.toList ++ rest) := by
  cases d with
  | null => exact Lexeme.SpelledBy.null.append hrest
  | bool b => cases b <;> exact Lexeme.SpelledBy.append (by constructor) hrest
  | number n =>
    rw [print, String.toList_ofList]
    exact (Lexeme.SpelledBy.number (numeralSpelled_print h)).append hrest
  | string s => exact (Lexeme.spelledBy_printString s).append hrest
  | array items =>
    have hclose := Lexeme.SpelledBy.closeBracket.append hrest
    rw [toList_print_array, quoted, lexemes]
    cases items with
    | nil => exact Lexeme.SpelledBy.openBracket.append hclose
    | cons item items =>
      have hitem := spelled_print_append item h.1 (spelled_itemTexts_append items h.2 hclose)
      have hall := Lexeme.SpelledBy.openBracket.append hitem
      rw [quotedItems, itemLexemes, itemTexts, List.map_cons, intercalate_cons, intercalate_cons]
      simpa only [List.append_assoc, List.cons_append, List.nil_append] using hall
  | object members =>
    have hclose := Lexeme.SpelledBy.closeBrace.append hrest
    rw [toList_print_object, quoted, lexemes]
    cases members with
    | nil => exact Lexeme.SpelledBy.openBrace.append hclose
    | cons member members =>
      obtain ⟨key, value⟩ := member
      have hvalue := spelled_print_append value h.1 (spelled_memberTexts_append members h.2 hclose)
      have hkey := (Lexeme.spelledBy_printString key).append
        (Lexeme.SpelledBy.colon.append hvalue)
      have hall := Lexeme.SpelledBy.openBrace.append hkey
      rw [quotedMembers, memberLexemes, map_toList_memberTexts, intercalate_cons, intercalate_cons]
      simpa only [List.append_assoc, List.cons_append, List.nil_append] using hall

theorem spelled_itemTexts_append (items : List (Document String)) (h : ItemsWellSpelled items)
    {others : List Lexeme} {rest : List Char} (hrest : Lexeme.Spelled others rest) :
    Lexeme.Spelled ((itemLexemes (quotedItems items)).flatMap ([.comma] ++ ·) ++ others)
      (((itemTexts items).map String.toList).flatMap ([','] ++ ·) ++ rest) := by
  cases items with
  | nil => exact hrest
  | cons item items =>
    have hitem := spelled_print_append item h.1 (spelled_itemTexts_append items h.2 hrest)
    have hall := Lexeme.SpelledBy.comma.append hitem
    rw [quotedItems, itemLexemes, itemTexts, List.map_cons, List.flatMap_cons, List.flatMap_cons]
    simpa only [List.append_assoc, List.cons_append, List.nil_append] using hall

theorem spelled_memberTexts_append (members : List (String × Document String))
    (h : MembersWellSpelled members) {others : List Lexeme} {rest : List Char}
    (hrest : Lexeme.Spelled others rest) :
    Lexeme.Spelled ((memberLexemes (quotedMembers members)).flatMap ([.comma] ++ ·) ++ others)
      (((memberTexts members).map String.toList).flatMap ([','] ++ ·) ++ rest) := by
  cases members with
  | nil => exact hrest
  | cons member members =>
    obtain ⟨key, value⟩ := member
    have hvalue := spelled_print_append value h.1 (spelled_memberTexts_append members h.2 hrest)
    have hkey := (Lexeme.spelledBy_printString key).append (Lexeme.SpelledBy.colon.append hvalue)
    have hall := Lexeme.SpelledBy.comma.append hkey
    rw [quotedMembers, memberLexemes, map_toList_memberTexts, List.flatMap_cons, List.flatMap_cons]
    simpa only [List.append_assoc, List.cons_append, List.nil_append] using hall

end

/-- **A printed document is read back**, unless it holds a numeral that spells no number. -/
theorem read?_print {d : Document String} (h : d.WellSpelled) :
    Document.read? d.print = some d.quoted := by
  have hend : Lexeme.Spelled [] [] := .nil nofun
  have hprint := d.spelled_print_append h hend
  rw [List.append_nil, List.append_nil] at hprint
  exact read?_eq_some_iff.2 hprint

end Document

end Json

end BusinessRules
