import BusinessRules.Json.Lexeme
import Mathlib.Data.List.Chain
import Mathlib.Data.List.TakeWhile

/-!
# The spelling of lexemes

The grammar of JSON text below the level of values, and the scanner as its inverse. A lexeme has
one spelling, unless it is a string or the exponent of a numeral; lexemes follow each other with
spaces anywhere between them.

* `Digits`, `WholeDigits`, `FractionSpelled`, `ExponentSpelled`, `NumeralSpelled` — numerals;
* `StringUnit.SpelledBy`, `UnitsSpelled` — what stands between the marks of a string;
* `Lexeme.SpelledBy`, `Lexeme.Spelled` — one lexeme, and lexemes with the spaces around them.

Principal results: `Lexeme.scan?_of_spelled` (what is spelled is scanned, unless two numerals touch)
and `Lexeme.spelled_of_scan?` (what is scanned was spelled).
-/

namespace BusinessRules.Json

open Decimal

/-! ## Runs of characters -/

section Runs

variable {p : Char → Bool} {run rest : List Char}

theorem takeWhile_run (hrun : ∀ c ∈ run, p c = true) (hrest : ∀ c ∈ rest.head?, p c = false) :
    (run ++ rest).takeWhile p = run := by
  rw [List.takeWhile_append_of_pos hrun]
  cases rest with
  | nil => simp
  | cons c more => simp [hrest c rfl]

theorem dropWhile_run (hrun : ∀ c ∈ run, p c = true) (hrest : ∀ c ∈ rest.head?, p c = false) :
    (run ++ rest).dropWhile p = rest := by
  rw [List.dropWhile_append_of_pos hrun]
  cases rest with
  | nil => rfl
  | cons c more => simp [hrest c rfl]

theorem dropWhile_head? (cs : List Char) : ∀ c ∈ (cs.dropWhile p).head?, p c = false := by
  intro c hc
  have h := List.head?_dropWhile_not p cs
  rw [Option.mem_def.1 hc] at h
  simpa using h

end Runs

/-! ## Numerals -/

/-- Digits, one at least. -/
structure Digits (cs : List Char) : Prop where
  ne_nil : cs ≠ []
  digit : ∀ c ∈ cs, c.isDigit = true

/-- No digit comes next. -/
def NoDigit (rest : List Char) : Prop := ∀ c ∈ rest.head?, c.isDigit = false

/-- The digits before the point: a zero by itself, or digits of which the first is another. -/
inductive WholeDigits : List Char → Prop where
  | zero : WholeDigits ['0']
  | other {d : Char} {ds : List Char} (lead : d ≠ '0') (digits : Digits (d :: ds)) :
      WholeDigits (d :: ds)

/-- The digits behind the point, with the point; without any there is no point either. -/
inductive FractionSpelled : List Char → List Char → Prop where
  | absent : FractionSpelled [] []
  | digits {ds : List Char} (digits : Digits ds) : FractionSpelled ds ('.' :: ds)

/-- The exponent part: its letter in either case, its sign, which may be left out when it is
positive, and its digits. -/
inductive ExponentSpelled : Option Exponent → List Char → Prop where
  | absent : ExponentSpelled none []
  | unsigned {mark : Char} {ds : List Char} (letter : mark = 'e' ∨ mark = 'E')
      (digits : Digits ds) : ExponentSpelled (some ⟨false, ds⟩) (mark :: ds)
  | plus {mark : Char} {ds : List Char} (letter : mark = 'e' ∨ mark = 'E')
      (digits : Digits ds) : ExponentSpelled (some ⟨false, ds⟩) (mark :: '+' :: ds)
  | minus {mark : Char} {ds : List Char} (letter : mark = 'e' ∨ mark = 'E')
      (digits : Digits ds) : ExponentSpelled (some ⟨true, ds⟩) (mark :: '-' :: ds)

/-- A numeral: a minus sign or none, the digits before the point, and two parts that may be
absent. -/
inductive NumeralSpelled : Numeral → List Char → Prop where
  | mk (negative : Bool) {whole fraction f e : List Char} {exponent : Option Exponent}
      (hwhole : WholeDigits whole) (hfraction : FractionSpelled fraction f)
      (hexponent : ExponentSpelled exponent e) :
      NumeralSpelled ⟨negative, whole, fraction, exponent⟩
        ((if negative then ['-'] else []) ++ (whole ++ (f ++ e)))

/-- Nothing comes next that could belong to a numeral. -/
def NumeralStops (rest : List Char) : Prop :=
  ∀ c ∈ rest.head?, c.isDigit = false ∧ c ≠ '.' ∧ c ≠ 'e' ∧ c ≠ 'E'

theorem NumeralStops.noDigit {rest : List Char} (h : NumeralStops rest) : NoDigit rest :=
  fun c hc => (h c hc).1

theorem WholeDigits.exists_cons {whole : List Char} (h : WholeDigits whole) :
    ∃ d ds, whole = d :: ds ∧ d.isDigit = true := by
  cases h with
  | zero => exact ⟨'0', [], rfl, rfl⟩
  | other lead digits => exact ⟨_, _, rfl, digits.digit _ (List.mem_cons_self ..)⟩

theorem FractionSpelled.noDigit {fraction f rest : List Char} (h : FractionSpelled fraction f)
    (hrest : NoDigit rest) : NoDigit (f ++ rest) := by
  cases h with
  | absent => exact hrest
  | digits digits =>
    intro c hc
    cases hc
    rfl

theorem ExponentSpelled.head? {exponent : Option Exponent} {e rest : List Char}
    (h : ExponentSpelled exponent e) {c : Char} (hc : c ∈ (e ++ rest).head?) :
    c ∈ rest.head? ∨ c = 'e' ∨ c = 'E' := by
  cases h with
  | absent => exact .inl hc
  | unsigned letter digits | plus letter digits | minus letter digits =>
    cases hc
    exact .inr letter

theorem readDigits?_eq_some_iff {cs ds rest : List Char} :
    readDigits? cs = some (ds, rest) ↔ Digits ds ∧ NoDigit rest ∧ cs = ds ++ rest := by
  unfold readDigits?
  constructor
  · intro h
    split at h
    · cases h
    · rename_i d more htake
      cases h
      refine ⟨⟨List.cons_ne_nil _ _, fun c hc => ?_⟩, dropWhile_head? cs, ?_⟩
      · exact List.mem_takeWhile_imp (htake ▸ hc)
      · rw [← htake, List.takeWhile_append_dropWhile]
  · rintro ⟨hds, hrest, rfl⟩
    rw [takeWhile_run hds.digit hrest, dropWhile_run hds.digit hrest]
    cases ds with
    | nil => exact absurd rfl hds.ne_nil
    | cons d more => rfl

theorem readWhole?_append {whole rest : List Char} (h : WholeDigits whole) (hrest : NoDigit rest) :
    readWhole? (whole ++ rest) = some (whole, rest) := by
  cases h with
  | zero => rfl
  | other lead digits =>
    rw [List.cons_append, readWhole?]
    · exact readDigits?_eq_some_iff.2 ⟨digits, hrest, rfl⟩
    · intro more heq
      exact lead (List.cons.inj heq).1

theorem wholeDigits_of_readWhole? {cs whole rest : List Char}
    (h : readWhole? cs = some (whole, rest)) : WholeDigits whole ∧ cs = whole ++ rest := by
  unfold readWhole? at h
  split at h
  · cases h
    exact ⟨.zero, rfl⟩
  · rename_i hlead
    obtain ⟨hdigits, -, rfl⟩ := readDigits?_eq_some_iff.1 h
    cases whole with
    | nil => exact absurd rfl hdigits.ne_nil
    | cons d ds => exact ⟨.other (fun hd => hlead _ (by rw [hd]; rfl)) hdigits, rfl⟩

theorem readFraction?_append {fraction f rest : List Char} (h : FractionSpelled fraction f)
    (hdigit : NoDigit rest) (hpoint : rest.head? ≠ some '.') :
    readFraction? (f ++ rest) = some (fraction, rest) := by
  cases h with
  | absent =>
    rw [List.nil_append, readFraction?]
    rintro more rfl
    exact hpoint rfl
  | digits digits => exact readDigits?_eq_some_iff.2 ⟨digits, hdigit, rfl⟩

theorem fractionSpelled_of_readFraction? {cs fraction rest : List Char}
    (h : readFraction? cs = some (fraction, rest)) :
    ∃ f, FractionSpelled fraction f ∧ cs = f ++ rest := by
  unfold readFraction? at h
  split at h
  · obtain ⟨hdigits, -, rfl⟩ := readDigits?_eq_some_iff.1 h
    exact ⟨'.' :: fraction, .digits hdigits, rfl⟩
  · cases h
    exact ⟨[], .absent, rfl⟩

/-- Takes the sign of an exponent off, if there is one, and says whether it is a minus sign. -/
def cutSign : List Char → Bool × List Char
  | '-' :: rest => (true, rest)
  | '+' :: rest => (false, rest)
  | cs => (false, cs)

theorem readExponent?_cons {c : Char} (letter : c = 'e' ∨ c = 'E') (cs : List Char) :
    readExponent? (c :: cs) = (readDigits? (cutSign cs).2).map fun (ds, rest) =>
      (some ⟨(cutSign cs).1, ds⟩, rest) :=
  if_pos letter

theorem readExponent?_append {exponent : Option Exponent} {e rest : List Char}
    (h : ExponentSpelled exponent e) (hrest : NumeralStops rest) :
    readExponent? (e ++ rest) = some (exponent, rest) := by
  cases h with
  | absent =>
    cases rest with
    | nil => rfl
    | cons c more =>
      obtain ⟨-, -, hlower, hupper⟩ := hrest c rfl
      exact if_neg (not_or.2 ⟨hlower, hupper⟩)
  | unsigned letter digits =>
    rename_i mark ds
    have hsign : cutSign (ds ++ rest) = (false, ds ++ rest) := by
      cases ds with
      | nil => exact absurd rfl digits.ne_nil
      | cons d ds =>
        have hd := digits.digit d (List.mem_cons_self ..)
        rw [List.cons_append, cutSign]
        · rintro more heq
          cases heq
          cases hd
        · rintro more heq
          cases heq
          cases hd
    rw [List.cons_append, readExponent?_cons letter, hsign,
      readDigits?_eq_some_iff.2 ⟨digits, hrest.noDigit, rfl⟩]
    rfl
  | plus letter digits | minus letter digits =>
    rw [List.cons_append, readExponent?_cons letter]
    simp only [List.cons_append, cutSign,
      readDigits?_eq_some_iff.2 ⟨digits, hrest.noDigit, rfl⟩, Option.map_some]

theorem exponentSpelled_of_readExponent? {cs rest : List Char} {exponent : Option Exponent}
    (h : readExponent? cs = some (exponent, rest)) :
    ∃ e, ExponentSpelled exponent e ∧ cs = e ++ rest := by
  cases cs with
  | nil =>
    cases h
    exact ⟨[], .absent, rfl⟩
  | cons c more =>
    by_cases letter : c = 'e' ∨ c = 'E'
    · rw [readExponent?_cons letter] at h
      obtain ⟨⟨ds, left⟩, hread, heq⟩ := Option.map_eq_some_iff.1 h
      cases heq
      obtain ⟨hdigits, -, happend⟩ := readDigits?_eq_some_iff.1 hread
      unfold cutSign at happend ⊢
      split at happend <;> dsimp only at happend <;> subst happend
      · exact ⟨c :: '-' :: ds, .minus letter hdigits, rfl⟩
      · exact ⟨c :: '+' :: ds, .plus letter hdigits, rfl⟩
      · exact ⟨c :: ds, .unsigned letter hdigits, rfl⟩
    · have habsent : readExponent? (c :: more) = some (none, c :: more) := if_neg letter
      rw [habsent] at h
      cases h
      exact ⟨[], .absent, rfl⟩

/-- Takes the minus sign of a numeral off, and says whether there is one. -/
def cutMinus : List Char → Bool × List Char
  | '-' :: rest => (true, rest)
  | cs => (false, cs)

theorem cutMinus_append (negative : Bool) {whole : List Char} (h : WholeDigits whole)
    (rest : List Char) :
    cutMinus ((if negative then ['-'] else []) ++ (whole ++ rest)) = (negative, whole ++ rest) := by
  cases negative with
  | true => rfl
  | false =>
    obtain ⟨d, ds, rfl, hd⟩ := h.exists_cons
    show cutMinus (d :: (ds ++ rest)) = _
    rw [cutMinus]
    · rfl
    · rintro more heq
      cases heq
      cases hd

theorem eq_append_cutMinus (cs : List Char) :
    cs = (if (cutMinus cs).1 then ['-'] else []) ++ (cutMinus cs).2 := by
  unfold cutMinus
  split <;> rfl

theorem readNumeral?_eq (cs : List Char) :
    readNumeral? cs =
      (readWhole? (cutMinus cs).2).bind fun (whole, afterWhole) =>
        (readFraction? afterWhole).bind fun (fraction, afterFraction) =>
          (readExponent? afterFraction).bind fun (exponent, rest) =>
            some (⟨(cutMinus cs).1, whole, fraction, exponent⟩, rest) :=
  rfl

/-- **A numeral is read as it is spelled**, if nothing comes next that could belong to it. -/
theorem readNumeral?_append {n : Numeral} {cs rest : List Char} (h : NumeralSpelled n cs)
    (hrest : NumeralStops rest) : readNumeral? (cs ++ rest) = some (n, rest) := by
  cases h with
  | mk negative hwhole hfraction hexponent =>
    rename_i whole fraction f e exponent
    have hend : ∀ c ∈ (e ++ rest).head?, c.isDigit = false ∧ c ≠ '.' := by
      intro c hc
      rcases hexponent.head? hc with hc | rfl | rfl
      · exact ⟨(hrest c hc).1, (hrest c hc).2.1⟩
      · exact ⟨rfl, by decide⟩
      · exact ⟨rfl, by decide⟩
    have hdigit : NoDigit (e ++ rest) := fun c hc => (hend c hc).1
    have hpoint : (e ++ rest).head? ≠ some '.' := fun hc => (hend '.' hc).2 rfl
    rw [readNumeral?_eq, List.append_assoc, List.append_assoc, List.append_assoc,
      cutMinus_append negative hwhole]
    simp only [readWhole?_append hwhole (hfraction.noDigit hdigit),
      readFraction?_append hfraction hdigit hpoint, readExponent?_append hexponent hrest,
      Option.bind_some]

theorem numeralSpelled_of_readNumeral? {n : Numeral} {cs rest : List Char}
    (h : readNumeral? cs = some (n, rest)) :
    ∃ front, NumeralSpelled n front ∧ cs = front ++ rest := by
  rw [readNumeral?_eq] at h
  obtain ⟨⟨whole, afterWhole⟩, hwhole, h⟩ := Option.bind_eq_some_iff.1 h
  obtain ⟨⟨fraction, afterFraction⟩, hfraction, h⟩ := Option.bind_eq_some_iff.1 h
  obtain ⟨⟨exponent, left⟩, hexponent, h⟩ := Option.bind_eq_some_iff.1 h
  cases h
  obtain ⟨hdigits, hunsigned⟩ := wholeDigits_of_readWhole? hwhole
  obtain ⟨f, hf, rfl⟩ := fractionSpelled_of_readFraction? hfraction
  obtain ⟨e, he, rfl⟩ := exponentSpelled_of_readExponent? hexponent
  refine ⟨_, .mk (cutMinus cs).1 hdigits hf he, ?_⟩
  rw [List.append_assoc, List.append_assoc, List.append_assoc, ← hunsigned]
  exact eq_append_cutMinus cs

/-! ## Strings -/

/-- A unit of a string: a character that stands for itself, a letter behind a backslash, or the four
hexadecimal digits of a code. -/
inductive StringUnit.SpelledBy : StringUnit → List Char → Prop where
  | plain {c : Char} (printable : 0x20 ≤ c.toNat) (mark : c ≠ '"') (backslash : c ≠ '\\') :
      SpelledBy (.char c) [c]
  | letter {l c : Char} (escape : letterEscape? l = some c) : SpelledBy (.char c) ['\\', l]
  | code {a b c d : Char} {n : Nat} (digits : hexCode? a b c d = some n) :
      SpelledBy (.code n) ['\\', 'u', a, b, c, d]

/-- Units one after the other. -/
inductive UnitsSpelled : List StringUnit → List Char → Prop where
  | nil : UnitsSpelled [] []
  | cons {unit : StringUnit} {units : List StringUnit} {cs rest : List Char}
      (first : unit.SpelledBy cs) (others : UnitsSpelled units rest) :
      UnitsSpelled (unit :: units) (cs ++ rest)

theorem StringUnit.SpelledBy.readUnits? {unit : StringUnit} {cs : List Char}
    (h : unit.SpelledBy cs) (rest : List Char) (read : List StringUnit) :
    readUnits? (cs ++ rest) read = Json.readUnits? rest (unit :: read) := by
  cases h with
  | plain printable _ backslash =>
    simp [Json.readUnits?, backslash, Nat.not_lt.2 printable]
  | letter escape =>
    rename_i l c
    have hl : l ≠ 'u' := by rintro rfl; cases escape
    simp [Json.readUnits?, hl, escape]
  | code digits => simp [Json.readUnits?, digits]

/-- **A string is read up to its closing mark.** -/
theorem readUnits?_append {units : List StringUnit} {cs : List Char} (h : UnitsSpelled units cs)
    (rest : List Char) (read : List StringUnit) :
    readUnits? (cs ++ '"' :: rest) read = some (read.reverse ++ units, rest) := by
  induction h generalizing read with
  | nil => simp [readUnits?]
  | cons first others ih => rw [List.append_assoc, first.readUnits?, ih]; simp

theorem unitsSpelled_of_readUnits? {cs rest : List Char} {read all : List StringUnit}
    (h : readUnits? cs read = some (all, rest)) :
    ∃ units body, all = read.reverse ++ units ∧ UnitsSpelled units body ∧
      cs = body ++ '"' :: rest := by
  -- what the recursion has passed is put in front of what is left to read
  have hpass {unit : StringUnit} {front left : List Char} {read : List StringUnit}
      (hunit : unit.SpelledBy front)
      (hleft : ∃ units body, all = (unit :: read).reverse ++ units ∧ UnitsSpelled units body ∧
        left = body ++ '"' :: rest) :
      ∃ units body, all = read.reverse ++ units ∧ UnitsSpelled units body ∧
        front ++ left = body ++ '"' :: rest := by
    obtain ⟨units, body, hall, hspelled, rfl⟩ := hleft
    exact ⟨unit :: units, front ++ body, by simp [hall], .cons hunit hspelled,
      (List.append_assoc ..).symm⟩
  fun_induction readUnits? cs read with
  | case1 => cases h
  | case2 left read =>
    cases h
    exact ⟨[], [], (List.append_nil _).symm, .nil, rfl⟩
  | case3 => cases h
  | case4 a b c d left read n digits ih => exact hpass (.code digits) (ih h)
  | case5 => cases h
  | case6 l left read _ c escape ih => exact hpass (.letter escape) (ih h)
  | case7 => cases h
  | case8 c left read mark _ backslash allowed ih =>
    have hallowed : ¬ c.toNat < 0x20 ∧ c ≠ '\\' := by simpa using allowed
    exact hpass (.plain (Nat.not_lt.1 hallowed.1) mark hallowed.2) (ih h)

/-! ## Lexemes -/

/-- The spelling of one lexeme. -/
inductive Lexeme.SpelledBy : Lexeme → List Char → Prop where
  | openBrace : SpelledBy .openBrace ['\x7b']
  | closeBrace : SpelledBy .closeBrace ['\x7d']
  | openBracket : SpelledBy .openBracket ['[']
  | closeBracket : SpelledBy .closeBracket [']']
  | comma : SpelledBy .comma [',']
  | colon : SpelledBy .colon [':']
  | null : SpelledBy .null ['n', 'u', 'l', 'l']
  | true : SpelledBy (.bool true) ['t', 'r', 'u', 'e']
  | false : SpelledBy (.bool false) ['f', 'a', 'l', 's', 'e']
  | number {n : Numeral} {cs : List Char} (numeral : NumeralSpelled n cs) :
      SpelledBy (.number n) cs
  | string {units : List StringUnit} {body : List Char} (inside : UnitsSpelled units body) :
      SpelledBy (.string (.ofUnits units [])) ('"' :: (body ++ ['"']))

/-- Spaces and nothing else. -/
def AllSpace (cs : List Char) : Prop := ∀ c ∈ cs, isSpace c = true

/-- Lexemes one after the other, with spaces anywhere between them. -/
inductive Lexeme.Spelled : List Lexeme → List Char → Prop where
  | nil {spaces : List Char} (blank : AllSpace spaces) : Spelled [] spaces
  | cons {lexeme : Lexeme} {lexemes : List Lexeme} {spaces cs rest : List Char}
      (blank : AllSpace spaces) (first : lexeme.SpelledBy cs) (others : Spelled lexemes rest) :
      Spelled (lexeme :: lexemes) (spaces ++ (cs ++ rest))

/-- A numeral. -/
def Lexeme.IsNumber : Lexeme → Prop
  | .number _ => True
  | _ => False

theorem NumeralSpelled.exists_cons {n : Numeral} {cs : List Char} (h : NumeralSpelled n cs) :
    ∃ c more, cs = c :: more ∧ (c = '-' ∨ c.isDigit = true) := by
  cases h with
  | mk negative hwhole _ _ =>
    cases negative with
    | true => exact ⟨'-', _, rfl, .inl rfl⟩
    | false =>
      obtain ⟨d, ds, rfl, hd⟩ := hwhole.exists_cons
      exact ⟨d, _, rfl, .inr hd⟩

theorem Lexeme.take?_numeral {c : Char} (hc : c = '-' ∨ c.isDigit = true) (more : List Char) :
    Lexeme.take? (c :: more) =
      (readNumeral? (c :: more)).map fun (n, left) => (.number n, left) := by
  have hne {d : Char} (hd : d ≠ '-' ∧ d.isDigit = false) : c ≠ d := by
    rintro rfl
    rcases hc with rfl | hc
    · exact hd.1 rfl
    · rw [hd.2] at hc
      cases hc
  rw [Lexeme.take?]
  all_goals
    intro rest heq
    exact hne (by decide) (List.cons.inj heq).1

/-- **A lexeme is taken as it is spelled.** A numeral ends where nothing comes next that could
belong to it, every other lexeme by itself. -/
theorem Lexeme.SpelledBy.take?_append {lexeme : Lexeme} {cs : List Char} (h : lexeme.SpelledBy cs)
    {rest : List Char} (hrest : lexeme.IsNumber → NumeralStops rest) :
    Lexeme.take? (cs ++ rest) = some (lexeme, rest) := by
  cases h with
  | number numeral =>
    obtain ⟨c, more, rfl, hc⟩ := numeral.exists_cons
    rw [List.cons_append, Lexeme.take?_numeral hc, ← List.cons_append,
      readNumeral?_append numeral (hrest trivial)]
    rfl
  | string inside =>
    rw [List.cons_append, List.append_assoc, Lexeme.take?, readQuotation?, List.singleton_append,
      readUnits?_append inside]
    rfl
  | _ => rfl

theorem Lexeme.spelledBy_of_take? {cs rest : List Char} {lexeme : Lexeme}
    (h : Lexeme.take? cs = some (lexeme, rest)) :
    ∃ front, lexeme.SpelledBy front ∧ cs = front ++ rest := by
  unfold Lexeme.take? at h
  split at h
  · cases h; exact ⟨_, .openBrace, rfl⟩
  · cases h; exact ⟨_, .closeBrace, rfl⟩
  · cases h; exact ⟨_, .openBracket, rfl⟩
  · cases h; exact ⟨_, .closeBracket, rfl⟩
  · cases h; exact ⟨_, .comma, rfl⟩
  · cases h; exact ⟨_, .colon, rfl⟩
  · obtain ⟨⟨q, left⟩, hread, heq⟩ := Option.map_eq_some_iff.1 h
    cases heq
    obtain ⟨⟨units, left⟩, hunits, heq⟩ := Option.map_eq_some_iff.1 hread
    cases heq
    obtain ⟨units, body, rfl, hspelled, rfl⟩ := unitsSpelled_of_readUnits? hunits
    exact ⟨_, .string hspelled, by simp⟩
  · cases h; exact ⟨_, .null, rfl⟩
  · cases h; exact ⟨_, .true, rfl⟩
  · cases h; exact ⟨_, .false, rfl⟩
  · obtain ⟨⟨n, left⟩, hread, heq⟩ := Option.map_eq_some_iff.1 h
    cases heq
    obtain ⟨front, hspelled, happend⟩ := numeralSpelled_of_readNumeral? hread
    exact ⟨front, .number hspelled, happend⟩

/-! ## Scanning -/

theorem isSpace_not_numeral {c : Char} (h : isSpace c = true) :
    c ≠ '-' ∧ c.isDigit = false ∧ c ≠ '.' ∧ c ≠ 'e' ∧ c ≠ 'E' := by
  have hone : ((c = ' ' ∨ c = '\t') ∨ c = '\n') ∨ c = '\r' := by simpa [isSpace] using h
  rcases hone with ((rfl | rfl) | rfl) | rfl <;> decide

/-- What a lexeme begins with: no space, and for all but numerals nothing that could belong to a
numeral. -/
theorem Lexeme.SpelledBy.exists_cons {lexeme : Lexeme} {cs : List Char} (h : lexeme.SpelledBy cs) :
    ∃ c more, cs = c :: more ∧ isSpace c = Bool.false ∧
      (¬ lexeme.IsNumber → NumeralStops (c :: more)) := by
  have hstops {c : Char} {more : List Char}
      (hc : c.isDigit = Bool.false ∧ c ≠ '.' ∧ c ≠ 'e' ∧ c ≠ 'E') : NumeralStops (c :: more) := by
    intro d hd
    cases hd
    exact hc
  cases h with
  | number numeral =>
    obtain ⟨c, more, rfl, hc⟩ := numeral.exists_cons
    refine ⟨c, more, rfl, ?_, fun hnot => absurd trivial hnot⟩
    refine Bool.eq_false_iff.2 fun hspace => ?_
    obtain ⟨hminus, hdigit, -⟩ := isSpace_not_numeral hspace
    rcases hc with hc | hc
    · exact hminus hc
    · exact Bool.noConfusion (hdigit.symm.trans hc)
  | _ => exact ⟨_, _, rfl, by decide, fun _ => hstops (by decide)⟩

theorem AllSpace.numeralStops {spaces rest : List Char} (h : AllSpace spaces)
    (hrest : NumeralStops rest) : NumeralStops (spaces ++ rest) := by
  cases spaces with
  | nil => exact hrest
  | cons c more =>
    intro d hd
    cases hd
    exact (isSpace_not_numeral (h c (List.mem_cons_self ..))).2

/-- In front of lexemes of which the first is no numeral, a numeral ends. -/
theorem Lexeme.Spelled.numeralStops {lexemes : List Lexeme} {cs : List Char}
    (h : Lexeme.Spelled lexemes cs) (hfirst : ∀ lexeme ∈ lexemes.head?, ¬ lexeme.IsNumber) :
    NumeralStops cs := by
  cases h with
  | nil blank =>
    rw [← List.append_nil cs]
    exact blank.numeralStops fun _ hc => nomatch hc
  | cons blank first others =>
    obtain ⟨c, more, rfl, -, hstops⟩ := first.exists_cons
    refine blank.numeralStops fun d hd => ?_
    cases hd
    exact hstops (hfirst _ rfl) c rfl

/-- No numeral follows a numeral. -/
def Lexeme.Apart (lexemes : List Lexeme) : Prop :=
  lexemes.IsChain fun lexeme next => lexeme.IsNumber → ¬ next.IsNumber

theorem Lexeme.scanOnto?_of_spelled {lexemes : List Lexeme} {cs : List Char}
    (h : Lexeme.Spelled lexemes cs) (hapart : Lexeme.Apart lexemes) {steps : Nat}
    (hsteps : cs.length ≤ steps) (read : List Lexeme) :
    Lexeme.scanOnto? steps cs read = some (read.reverse ++ lexemes) := by
  induction h generalizing steps read with
  | nil blank =>
    have hnone : ∀ c ∈ ([] : List Char).head?, isSpace c = Bool.false := nofun
    have hdrop := dropWhile_run blank hnone
    rw [List.append_nil] at hdrop
    unfold Lexeme.scanOnto?
    rw [hdrop, List.append_nil]
  | cons blank first others ih =>
    rename_i lexeme lexemes spaces cs rest
    obtain ⟨c, more, hcs, hspace, -⟩ := first.exists_cons
    have hdrop : (spaces ++ (cs ++ rest)).dropWhile isSpace = c :: (more ++ rest) := by
      rw [dropWhile_run blank, hcs, List.cons_append]
      intro d hd
      rw [hcs] at hd
      cases hd
      exact hspace
    have hlength := congrArg List.length hcs
    simp only [List.length_append, List.length_cons] at hsteps hlength
    obtain ⟨steps, rfl⟩ : ∃ left, steps = left + 1 := ⟨steps - 1, by omega⟩
    have htake : Lexeme.take? (c :: (more ++ rest)) = some (lexeme, rest) := by
      rw [← List.cons_append, ← hcs]
      refine first.take?_append fun hnumber => others.numeralStops fun next hnext => ?_
      exact (List.isChain_cons.1 hapart).1 next hnext hnumber
    unfold Lexeme.scanOnto?
    rw [hdrop]
    simp only [htake]
    rw [ih (List.isChain_cons.1 hapart).2 (by omega)]
    simp

/-- **The scanner finds the lexemes that a text spells.** -/
theorem Lexeme.scan?_of_spelled {lexemes : List Lexeme} {text : String}
    (h : Lexeme.Spelled lexemes text.toList) (hapart : Lexeme.Apart lexemes) :
    Lexeme.scan? text = some lexemes :=
  Lexeme.scanOnto?_of_spelled h hapart (Nat.le_refl _) []

theorem Lexeme.spelled_of_scanOnto? {steps : Nat} {cs : List Char} {read all : List Lexeme}
    (h : Lexeme.scanOnto? steps cs read = some all) :
    ∃ lexemes, all = read.reverse ++ lexemes ∧ Lexeme.Spelled lexemes cs := by
  fun_induction Lexeme.scanOnto? steps cs read with
  | case1 _ cs read hdrop =>
    cases h
    have hspaces : cs.takeWhile isSpace = cs := by
      have hsplit := List.takeWhile_append_dropWhile (p := isSpace) (l := cs)
      rwa [hdrop, List.append_nil] at hsplit
    refine ⟨[], (List.append_nil _).symm, .nil fun c hc => ?_⟩
    rw [← hspaces] at hc
    exact List.mem_takeWhile_imp hc
  | case2 => cases h
  | case3 => cases h
  | case4 cs read c rest steps hdrop lexeme left htake ih =>
    obtain ⟨lexemes, rfl, hspelled⟩ := ih h
    obtain ⟨front, hfirst, hfront⟩ := Lexeme.spelledBy_of_take? htake
    refine ⟨lexeme :: lexemes, by simp, ?_⟩
    rw [← List.takeWhile_append_dropWhile (p := isSpace) (l := cs), hdrop, hfront]
    exact .cons (fun c hc => List.mem_takeWhile_imp hc) hfirst hspelled

theorem Lexeme.spelled_of_scan? {text : String} {lexemes : List Lexeme}
    (h : Lexeme.scan? text = some lexemes) : Lexeme.Spelled lexemes text.toList := by
  obtain ⟨found, rfl, hspelled⟩ := Lexeme.spelled_of_scanOnto? h
  exact hspelled

end BusinessRules.Json
