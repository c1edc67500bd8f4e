import BusinessRules.Proofs.PrintedText
import BusinessRules.Settings
import Mathlib.Data.List.Nodup

/-!
# Settings and their texts

A JSON object gives settings exactly if it has no keys but those of the two fields, none of them
twice, if every value is an integer that 64 bits hold, and if a limit on rule texts is not zero.
What it does not give is filled in, and the order of its members does not matter. Settings that are
written out are read back.

* `Settings.IsCount` — an integer from zero up to 64 bits, as it is spelled;
* `Settings.Admissible` — members that give settings;
* `Settings.Gives` — the settings they give;
* `Settings.members` — the members that settings are written as.

Principal results: `Settings.isCount_iff_toJson?`, `Settings.readCount_eq_ok_iff`,
`Settings.readMembers_eq_ok_iff`, `Settings.ofText_eq_ok_iff` and
`Settings.ofText_object_and_print`.
-/

namespace BusinessRules

open Decimal (Numeral)
open Json (Document Quotation)

/-! ## Integers -/

theorem WideInt.ofInt?_eq_some_iff {i : Int} {n : WideInt} :
    WideInt.ofInt? i = some n ↔ i = n.val := by
  constructor
  · intro h
    unfold WideInt.ofInt? at h
    split_ifs at h
    cases h
    rfl
  · rintro rfl
    exact WideInt.ofInt?_val n

/-- A numeral spells an integer exactly if it is spelled like one, fits, and is no zero with a minus
sign, however the others are read. -/
theorem Number.ofNumeralBy?_eq_integer_iff {float? : Numeral → Option Decimal.Binary64}
    {n : Numeral} {i : WideInt} :
    Number.ofNumeralBy? float? n = some (.integer i) ↔
      n.isInteger = true ∧ ¬ (n.negative = true ∧ n.toInt = 0) ∧ n.toInt = i.val := by
  have hfloat : (float? n).map Number.float ≠ some (.integer i) := by
    cases float? n <;> exact nofun
  unfold Number.ofNumeralBy?
  by_cases hspelled : n.isInteger = true ∧ ¬ (n.negative = true ∧ n.toInt = 0)
  · rw [← WideInt.ofInt?_eq_some_iff]
    cases hwide : WideInt.ofInt? n.toInt with
    | none => simp [hspelled]
    | some j => simp [hspelled]
  · rw [if_neg hspelled]
    exact ⟨fun h => absurd h hfloat, fun h => absurd ⟨h.1, h.2.1⟩ hspelled⟩

namespace Settings

/-! ## Counts -/

/-- A numeral that spells this integer: digits only, without a sign, a point or an exponent. So
`-0`, `1.0` and `1e3` are no counts: they are read as binary numbers, as `isCount_iff_toJson?`
says. -/
def IsCount (d : Document Quotation) (count : UInt64) : Prop :=
  ∃ n : Numeral, d = .number n ∧ n.negative = false ∧ n.isInteger = true ∧
    Decimal.value n.whole = count.toNat

theorem IsCount.unique {d : Document Quotation} {m n : UInt64} (hm : IsCount d m)
    (hn : IsCount d n) : m = n := by
  obtain ⟨a, rfl, -, -, ha⟩ := hm
  obtain ⟨b, heq, -, -, hb⟩ := hn
  cases heq
  exact UInt64.toNat_inj.1 (ha.symm.trans hb)

theorem readCount_number_eq_ok_iff {n : Numeral} {count : UInt64} :
    readCount (.number n) = .ok count ↔
      ∃ i : WideInt, number? n = some (.integer i) ∧ i.val = count.toNat := by
  cases hnumber : number? n with
  | none =>
    have hfound : found (.number n) = .error .outOfRange := by rw [found, hnumber]
    simp [readCount, hfound]
  | some number =>
    have hfound : found (.number n) = .ok (.ofNumber number) := by rw [found, hnumber]
    rw [readCount, hfound]
    cases number with
    | float x => simp [Json.Shown.ofNumber]
    | integer i =>
      simp only [Json.Shown.ofNumber, Option.some.injEq, Number.integer.injEq, exists_eq_left']
      by_cases hnegative : i.val < 0
      · have hne : i.val ≠ count.toNat := by omega
        simp [hnegative, hne]
      · have hbound : i.val.toNat < UInt64.size := by
          have := i.lt
          unfold UInt64.size
          omega
        rw [if_neg hnegative, Except.ok.injEq, ← UInt64.toNat_inj,
          UInt64.toNat_ofNat_of_lt' hbound]
        omega

/-- A numeral is spelled as a count exactly if it spells that integer, however the numerals that
spell no integer are read. -/
theorem isCount_number_iff {float? : Numeral → Option Decimal.Binary64} {n : Numeral}
    {count : UInt64} :
    IsCount (.number n) count ↔
      ∃ i : WideInt, Number.ofNumeralBy? float? n = some (.integer i) ∧ i.val = count.toNat := by
  have hbound := count.toNat_lt
  simp only [Number.ofNumeralBy?_eq_integer_iff]
  constructor
  · rintro ⟨m, heq, hnegative, hinteger, hvalue⟩
    cases heq
    have hval : n.toInt = count.toNat := by rw [Numeral.toInt, hnegative, ← hvalue]; rfl
    refine ⟨⟨count.toNat, by omega, by omega⟩, ⟨hinteger, ?_, hval⟩, rfl⟩
    rw [hnegative]
    exact fun h => nomatch h.1
  · rintro ⟨i, ⟨hinteger, hsigned, hval⟩, hcount⟩
    rw [hcount] at hval
    cases hnegative : n.negative with
    | true =>
      have hzero : n.toInt = 0 := by
        rw [Numeral.toInt, if_pos hnegative] at hval ⊢
        omega
      exact absurd ⟨hnegative, hzero⟩ hsigned
    | false =>
      rw [Numeral.toInt, hnegative] at hval
      exact ⟨n, rfl, hnegative, hinteger, Int.ofNat_inj.1 hval⟩

/-- A document is spelled as a count exactly if its value is that integer. -/
theorem isCount_iff_toJson? {d : Document Quotation} {count : UInt64} :
    IsCount d count ↔
      ∃ i : WideInt, d.toJson? Quotation.text? = some (.number (.integer i)) ∧
        i.val = count.toNat := by
  cases d with
  | number n => simpa [Document.toJson?, Number.ofNumeral?] using isCount_number_iff
  | _ => simp [IsCount, Document.toJson?, Json.ofMembers]

/-- **A value is read as a count exactly if it is spelled as one.** -/
theorem readCount_eq_ok_iff {d : Document Quotation} {count : UInt64} :
    readCount d = .ok count ↔ IsCount d count := by
  cases d with
  | number n => rw [readCount_number_eq_ok_iff, isCount_number_iff, number?]
  | string q => cases q <;> simp [readCount, found, IsCount]
  | _ => simp [readCount, found, IsCount]

/-! ## Members -/

/-- The value of a field. -/
def get (s : Settings) : Field → UInt64
  | .cacheCapacity => s.cacheCapacity
  | .maxRuleLength => s.maxRuleLength

theorem ext_get {s t : Settings} (h : ∀ field, s.get field = t.get field) : s = t := by
  obtain ⟨_, _⟩ := s
  obtain ⟨_, _⟩ := t
  exact Settings.mk.injEq .. ▸ ⟨h .cacheCapacity, h .maxRuleLength⟩

theorem Field.ofKey?_eq_some {key : String} {field : Field} :
    Field.ofKey? key = some field ↔ key = field.key := by
  unfold Field.ofKey?
  constructor
  · intro h
    split_ifs at h with hcache hlength <;> cases h
    · exact hcache
    · exact hlength
  · rintro rfl
    cases field <;> rfl

theorem Field.key_inj {a b : Field} (h : a.key = b.key) : a = b := by
  have ha := Field.ofKey?_eq_some.2 h
  rw [Field.ofKey?_eq_some.2 (rfl : a.key = a.key)] at ha
  exact Option.some.inj ha

theorem Draft.get?_put_self (d : Draft) (field : Field) (count : UInt64) :
    (d.put field count).get? field = some count := by
  cases field <;> rfl

theorem Draft.get?_put_of_ne (d : Draft) {field other : Field} (h : other ≠ field)
    (count : UInt64) : (d.put field count).get? other = d.get? other := by
  cases field <;> cases other
  case cacheCapacity.cacheCapacity | maxRuleLength.maxRuleLength => exact absurd rfl h
  all_goals rfl

theorem Draft.ext_get? {a b : Draft} (h : ∀ field, a.get? field = b.get? field) : a = b := by
  obtain ⟨_, _⟩ := a
  obtain ⟨_, _⟩ := b
  have hcache := h .cacheCapacity
  have hlength := h .maxRuleLength
  dsimp only [Draft.get?] at hcache hlength
  rw [hcache, hlength]

/-- What a draft gains from members: every key is that of a field which is not given before, none
comes twice, every value is a count and goes to its field, and the other fields stay as they are. -/
structure Fills (members : List (Quotation × Document Quotation)) (d d' : Draft) : Prop where
  filled : ∀ member ∈ members, ∃ field count, member.1 = .text field.key ∧ d.get? field = none ∧
    IsCount member.2 count ∧ d'.get? field = some count
  once : (members.map (·.1)).Nodup
  others : ∀ field, (∀ member ∈ members, member.1 ≠ .text field.key) → d'.get? field = d.get? field

theorem Fills.get?_eq_none {members : List (Quotation × Document Quotation)} {d d' : Draft}
    (h : Fills members d d') {field : Field} {value : Document Quotation}
    (hmember : (.text field.key, value) ∈ members) : d.get? field = none := by
  obtain ⟨_, _, hkey, hfree, -, -⟩ := h.filled _ hmember
  cases Field.key_inj (Quotation.text.inj hkey)
  exact hfree

section Fills

variable {field : Field} {value : Document Quotation} {count : UInt64}
  {rest : List (Quotation × Document Quotation)} {d d' : Draft}

/-- Behind a member, the others fill the draft that has its value. -/
theorem Fills.tail (h : Fills ((.text field.key, value) :: rest) d d')
    (hcount : IsCount value count) : Fills rest (d.put field count) d' := by
  obtain ⟨hfirst, hrest⟩ := List.forall_mem_cons.1 h.filled
  obtain ⟨hnew, honce⟩ := List.nodup_cons.1 h.once
  refine ⟨fun member hmember => ?_, honce, fun other hother => ?_⟩
  · obtain ⟨other, number, hkey, hfree, hnumber, hgets⟩ := hrest member hmember
    have hne : other ≠ field := by
      rintro rfl
      exact hnew (List.mem_map.2 ⟨member, hmember, hkey⟩)
    exact ⟨other, number, hkey, (d.get?_put_of_ne hne count).trans hfree, hnumber, hgets⟩
  · by_cases hsame : other = field
    · subst hsame
      obtain ⟨first, number, hkey, -, hnumber, hgets⟩ := hfirst
      cases Field.key_inj (Quotation.text.inj hkey)
      rw [hgets, Draft.get?_put_self, hnumber.unique hcount]
    · rw [d.get?_put_of_ne hsame]
      refine h.others other (List.forall_mem_cons.2 ⟨fun hkey => hsame ?_, hother⟩)
      exact (Field.key_inj (Quotation.text.inj hkey)).symm

/-- Members that fill a draft with a new value fill the draft without it, behind the member that
gives the value. -/
theorem Fills.cons (h : Fills rest (d.put field count) d') (hfree : d.get? field = none)
    (hcount : IsCount value count) : Fills ((.text field.key, value) :: rest) d d' := by
  have hnew : ∀ member ∈ rest, member.1 ≠ .text field.key := by
    rintro ⟨key, other⟩ hmember rfl
    have hnone := h.get?_eq_none hmember
    rw [Draft.get?_put_self] at hnone
    cases hnone
  refine ⟨List.forall_mem_cons.2 ⟨?_, fun member hmember => ?_⟩, ?_, fun other hother => ?_⟩
  · exact ⟨field, count, rfl, hfree, hcount,
      (h.others field hnew).trans (d.get?_put_self field count)⟩
  · obtain ⟨other, number, hkey, hother, hnumber, hgets⟩ := h.filled member hmember
    have hne : other ≠ field := by
      rintro rfl
      exact hnew member hmember hkey
    exact ⟨other, number, hkey, (d.get?_put_of_ne hne count).symm.trans hother, hnumber, hgets⟩
  · refine List.nodup_cons.2 ⟨fun hmem => ?_, h.once⟩
    obtain ⟨member, hmember, hkey⟩ := List.mem_map.1 hmem
    exact hnew member hmember hkey
  · obtain ⟨hfirst, hrest⟩ := List.forall_mem_cons.1 hother
    have hne : other ≠ field := by
      rintro rfl
      exact hfirst rfl
    rw [h.others other hrest, d.get?_put_of_ne hne]

end Fills

/-- A member is read exactly if its key is that of a field which is not given yet and its value is a
count, which goes to the field. -/
theorem readMembers_cons_eq_ok {key : Quotation} {value : Document Quotation}
    {rest : List (Quotation × Document Quotation)} {d d' : Draft} :
    readMembers ((key, value) :: rest) d = .ok d' ↔
      ∃ field count, key = .text field.key ∧ d.get? field = none ∧ IsCount value count ∧
        readMembers rest (d.put field count) = .ok d' := by
  constructor
  · intro h
    cases key with
    | faulty fault => cases h
    | text key =>
      rw [readMembers] at h
      split at h
      · cases h
      · rename_i field hfield
        split at h
        · cases h
        · rename_i hfree
          split at h
          · cases h
          · rename_i count hcount
            exact ⟨field, count, congrArg _ (Field.ofKey?_eq_some.1 hfield), hfree,
              readCount_eq_ok_iff.1 hcount, h⟩
  · rintro ⟨field, count, rfl, hfree, hcount, hrest⟩
    simp only [readMembers, Field.ofKey?_eq_some.2 rfl, hfree, readCount_eq_ok_iff.2 hcount, hrest]

/-- **Members are read into a draft exactly if they fill it.** -/
theorem readMembers_eq_ok_iff {members : List (Quotation × Document Quotation)} {d d' : Draft} :
    readMembers members d = .ok d' ↔ Fills members d d' := by
  induction members generalizing d with
  | nil =>
    rw [readMembers, Except.ok.injEq]
    constructor
    · rintro rfl
      exact ⟨nofun, List.nodup_nil, fun _ _ => rfl⟩
    · intro h
      exact Draft.ext_get? fun field => (h.others field nofun).symm
  | cons member rest ih =>
    obtain ⟨key, value⟩ := member
    rw [readMembers_cons_eq_ok]
    constructor
    · rintro ⟨field, count, rfl, hfree, hcount, hrest⟩
      exact (ih.1 hrest).cons hfree hcount
    · intro h
      obtain ⟨field, count, hkey, hfree, hcount, -⟩ := h.filled _ (List.mem_cons_self ..)
      dsimp only at hkey hcount
      subst hkey
      exact ⟨field, count, rfl, hfree, hcount, ih.2 (h.tail hcount)⟩

/-! ## Object texts -/

/-- Members that give settings: keys of the two fields, none twice, counts for values, and no limit
on rule texts that is zero. -/
structure Admissible (members : List (Quotation × Document Quotation)) : Prop where
  known : ∀ member ∈ members, ∃ field : Field, member.1 = .text field.key
  once : (members.map (·.1)).Nodup
  counts : ∀ member ∈ members, ∃ count, IsCount member.2 count
  positive : ∀ value, (.text Field.maxRuleLength.key, value) ∈ members → ¬ IsCount value 0

/-- The settings that members give: their values, and the defaults for the other fields. -/
def Gives (members : List (Quotation × Document Quotation)) (s : Settings) : Prop :=
  ∀ field, (∀ value, (.text field.key, value) ∈ members → IsCount value (s.get field)) ∧
    ((∀ value, (.text field.key, value) ∉ members) → s.get field = ({} : Settings).get field)

theorem Draft.finish_eq_ok_iff {d : Draft} {s : Settings} :
    d.finish = .ok s ↔
      (∀ field, s.get field = (d.get? field).getD (({} : Settings).get field)) ∧
        s.maxRuleLength ≠ 0 := by
  obtain ⟨cacheCapacity, maxRuleLength⟩ := s
  have hfields : (∀ field, (⟨cacheCapacity, maxRuleLength⟩ : Settings).get field =
      (d.get? field).getD (({} : Settings).get field)) ↔
        d.cacheCapacity.getD 1024 = cacheCapacity ∧ d.maxRuleLength.getD 4096 = maxRuleLength := by
    constructor
    · intro h
      exact ⟨(h .cacheCapacity).symm, (h .maxRuleLength).symm⟩
    · rintro ⟨hcache, hlength⟩ (_ | _)
      · exact hcache.symm
      · exact hlength.symm
  rw [hfields]
  unfold Draft.finish
  dsimp only
  split_ifs with hzero
  · refine ⟨nofun, ?_⟩
    rintro ⟨⟨-, rfl⟩, hne⟩
    exact absurd hzero hne
  · rw [Except.ok.injEq, Settings.mk.injEq]
    constructor
    · rintro ⟨hcache, hlength⟩
      exact ⟨⟨hcache, hlength⟩, hlength ▸ hzero⟩
    · exact And.left

theorem ofText_of_spelledBy {text : String} {members : List (Quotation × Document Quotation)}
    (h : (Document.object members).SpelledBy text) {s : Settings} :
    ofText text = .ok s ↔ ∃ d, Fills members {} d ∧ d.finish = .ok s := by
  have hread : Document.read? text = some (.object members) := Document.read?_eq_some_iff.2 h
  simp only [ofText, hread, ofDocument, ← readMembers_eq_ok_iff]
  cases readMembers members {} with
  | error fault => simp
  | ok d => simp

/-- The draft in which the fields that members name have the values of settings. -/
def Draft.named (members : List (Quotation × Document Quotation)) (s : Settings) : Draft where
  cacheCapacity :=
    if ∃ member ∈ members, member.1 = .text Field.cacheCapacity.key then some s.cacheCapacity
    else none
  maxRuleLength :=
    if ∃ member ∈ members, member.1 = .text Field.maxRuleLength.key then some s.maxRuleLength
    else none

theorem Draft.get?_named (members : List (Quotation × Document Quotation)) (s : Settings)
    (field : Field) :
    (Draft.named members s).get? field =
      if ∃ member ∈ members, member.1 = .text field.key then some (s.get field) else none := by
  cases field <;> rfl

theorem Draft.get?_empty (field : Field) : ({} : Draft).get? field = none := by
  cases field <;> rfl

section Members

variable {members : List (Quotation × Document Quotation)} {s : Settings}

/-- Members that fill a draft which can be finished are admissible, and give what it is finished
to. -/
theorem Fills.admissible_and_gives {d : Draft} (h : Fills members {} d)
    (hfinish : d.finish = .ok s) : Admissible members ∧ Gives members s := by
  obtain ⟨hget, hpositive⟩ := Draft.finish_eq_ok_iff.1 hfinish
  have hgiven {field : Field} {value : Document Quotation}
      (hmember : (.text field.key, value) ∈ members) : IsCount value (s.get field) := by
    obtain ⟨other, count, hkey, -, hcount, hd⟩ := h.filled _ hmember
    cases Field.key_inj (Quotation.text.inj hkey)
    rw [hget, hd]
    exact hcount
  refine ⟨⟨fun member hmember => ?_, h.once, fun member hmember => ?_, ?_⟩,
    fun field => ⟨fun value => hgiven, fun habsent => ?_⟩⟩
  · obtain ⟨field, _, hkey, -⟩ := h.filled _ hmember
    exact ⟨field, hkey⟩
  · obtain ⟨_, count, -, -, hcount, -⟩ := h.filled _ hmember
    exact ⟨count, hcount⟩
  · intro value hmember hzero
    exact hpositive ((hgiven hmember).unique hzero)
  · have hothers := h.others field fun member hmember hkey => habsent member.2 (hkey ▸ hmember)
    rw [hget, hothers, Draft.get?_empty]
    rfl

theorem Gives.fills_named (h : Gives members s) (hadmissible : Admissible members) :
    Fills members {} (.named members s) := by
  refine ⟨fun member hmember => ?_, hadmissible.once, fun field hno => ?_⟩
  · obtain ⟨field, hkey⟩ := hadmissible.known member hmember
    refine ⟨field, s.get field, hkey, Draft.get?_empty field, (h field).1 _ (hkey ▸ hmember), ?_⟩
    rw [Draft.get?_named, if_pos ⟨member, hmember, hkey⟩]
  · rw [Draft.get?_named, if_neg fun ⟨member, hmember, hkey⟩ => hno member hmember hkey,
      Draft.get?_empty]

theorem Gives.finish_named (h : Gives members s) (hadmissible : Admissible members) :
    (Draft.named members s).finish = .ok s := by
  have habsent {field : Field} (hno : ¬ ∃ member ∈ members, member.1 = .text field.key) :
      s.get field = ({} : Settings).get field :=
    (h field).2 fun value hmember => hno ⟨_, hmember, rfl⟩
  refine Draft.finish_eq_ok_iff.2 ⟨fun field => ?_, fun hzero => ?_⟩
  · rw [Draft.get?_named]
    split_ifs with hnamed
    · rfl
    · exact habsent hnamed
  · by_cases hnamed : ∃ member ∈ members, member.1 = .text Field.maxRuleLength.key
    · obtain ⟨member, hmember, hkey⟩ := hnamed
      have hmember : (.text Field.maxRuleLength.key, member.2) ∈ members := hkey ▸ hmember
      exact hadmissible.positive _ hmember (hzero ▸ (h .maxRuleLength).1 _ hmember)
    · have hdefault : s.maxRuleLength = 4096 := habsent hnamed
      rw [hdefault] at hzero
      exact absurd hzero (by decide)

end Members

/-- **An object text gives settings exactly if its members are admissible**, and then those that its
members give. -/
theorem ofText_eq_ok_iff {text : String} {members : List (Quotation × Document Quotation)}
    (h : (Document.object members).SpelledBy text) {s : Settings} :
    ofText text = .ok s ↔ Admissible members ∧ Gives members s := by
  rw [ofText_of_spelledBy h]
  constructor
  · rintro ⟨d, hfills, hfinish⟩
    exact hfills.admissible_and_gives hfinish
  · rintro ⟨hadmissible, hgives⟩
    exact ⟨.named members s, hgives.fills_named hadmissible, hgives.finish_named hadmissible⟩

theorem Admissible.exists_gives {members : List (Quotation × Document Quotation)}
    (h : Admissible members) : ∃ s, Gives members s := by
  have hfield (field : Field) : ∃ count : UInt64,
      (∀ value, (.text field.key, value) ∈ members → IsCount value count) ∧
        ((∀ value, (.text field.key, value) ∉ members) →
          count = ({} : Settings).get field) := by
    by_cases hgiven : ∃ value, (.text field.key, value) ∈ members
    · obtain ⟨value, hvalue⟩ := hgiven
      obtain ⟨count, hcount⟩ := h.counts _ hvalue
      refine ⟨count, fun other hother => ?_, fun habsent => absurd hvalue (habsent value)⟩
      cases List.inj_on_of_nodup_map h.once hvalue hother rfl
      exact hcount
    · exact ⟨_, fun value hvalue => absurd ⟨value, hvalue⟩ hgiven, fun _ => rfl⟩
  obtain ⟨cacheCapacity, hcache⟩ := hfield .cacheCapacity
  obtain ⟨maxRuleLength, hlength⟩ := hfield .maxRuleLength
  refine ⟨⟨cacheCapacity, maxRuleLength⟩, fun field => ?_⟩
  cases field with
  | cacheCapacity => exact hcache
  | maxRuleLength => exact hlength

section Order

variable {members members' : List (Quotation × Document Quotation)}

theorem Admissible.perm (h : Admissible members) (hperm : members.Perm members') :
    Admissible members' where
  known member hmember := h.known member (hperm.mem_iff.2 hmember)
  once := (hperm.map (·.1)).nodup_iff.1 h.once
  counts member hmember := h.counts member (hperm.mem_iff.2 hmember)
  positive value hvalue := h.positive value (hperm.mem_iff.2 hvalue)

theorem Gives.perm {s : Settings} (h : Gives members s) (hperm : members.Perm members') :
    Gives members' s := fun field =>
  ⟨fun value hvalue => (h field).1 value (hperm.mem_iff.2 hvalue),
    fun habsent => (h field).2 fun value hvalue => habsent value (hperm.mem_iff.1 hvalue)⟩

end Order

/-! ## Settings as text -/

/-- The members that settings are written as. -/
def members (s : Settings) : List (Quotation × Document Quotation) :=
  [Field.cacheCapacity, .maxRuleLength].map fun field =>
    (.text field.key, .number (.ofNat (s.get field).toNat))

theorem spelledBy_print (s : Settings) : (Document.object s.members).SpelledBy s.print :=
  have hnumerals : s.toDocument.WellSpelled :=
    ⟨Numeral.wellSpelled_ofNat _, Numeral.wellSpelled_ofNat _, trivial⟩
  Document.read?_eq_some_iff.1 (Document.read?_print hnumerals)

theorem mem_members {s : Settings} {key : Quotation} {value : Document Quotation} :
    (key, value) ∈ s.members ↔
      ∃ field : Field, key = .text field.key ∧ value = .number (.ofNat (s.get field).toNat) := by
  constructor
  · intro h
    obtain ⟨field, -, heq⟩ := List.mem_map.1 h
    cases heq
    exact ⟨field, rfl, rfl⟩
  · rintro ⟨field, rfl, rfl⟩
    exact List.mem_map_of_mem (by cases field <;> decide)

theorem isCount_of_mem_members {s : Settings} {field : Field} {value : Document Quotation}
    (h : (.text field.key, value) ∈ s.members) : IsCount value (s.get field) := by
  obtain ⟨other, hkey, rfl⟩ := mem_members.1 h
  cases Field.key_inj (Quotation.text.inj hkey)
  exact ⟨_, rfl, rfl, rfl, Decimal.value_digits _⟩

theorem admissible_members {s : Settings} (h : 1 ≤ s.maxRuleLength) : Admissible s.members where
  known := by
    rintro ⟨key, value⟩ hmember
    obtain ⟨field, hkey, -⟩ := mem_members.1 hmember
    exact ⟨field, hkey⟩
  once := by
    show ([Field.cacheCapacity, .maxRuleLength].map fun field => Quotation.text field.key).Nodup
    decide
  counts := by
    rintro ⟨key, value⟩ hmember
    obtain ⟨field, rfl, -⟩ := mem_members.1 hmember
    exact ⟨s.get field, isCount_of_mem_members hmember⟩
  positive value hmember hzero := by
    have hlimit : s.maxRuleLength = 0 := (isCount_of_mem_members hmember).unique hzero
    rw [hlimit] at h
    exact absurd h (by decide)

theorem gives_members (s : Settings) : Gives s.members s := fun field =>
  ⟨fun _ => isCount_of_mem_members,
    fun habsent => absurd (mem_members.2 ⟨field, rfl, rfl⟩) (habsent _)⟩

/-- **Settings are what the members of an object say, and writing them out is undone by reading.**
The text of an object gives settings exactly if its members are admissible: known keys, none twice,
integers from zero up to 64 bits, and no limit of zero. The settings have the given values, and the
defaults for what is not given, in whatever order the members come. An integer is one as a value is
read, whose number may be an integer or a binary number. Settings with a limit of one at least are
read back from their own text. -/
theorem ofText_object_and_print :
    (∀ text members, (Document.object members).SpelledBy text →
      ((∃ s, ofText text = .ok s) ↔ Admissible members) ∧
      (∀ s, ofText text = .ok s → Gives members s) ∧
      ∀ other members', (Document.object members').SpelledBy other → members'.Perm members →
        ∀ s, ofText other = .ok s ↔ ofText text = .ok s) ∧
    (∀ (d : Document Quotation) (count : UInt64), IsCount d count ↔
      ∃ i : WideInt, d.toJson? Quotation.text? = some (.number (.integer i)) ∧
        i.val = count.toNat) ∧
    ∀ s : Settings, 1 ≤ s.maxRuleLength → ofText s.print = .ok s := by
  refine ⟨fun text members htext => ⟨?_, fun s hs => ((ofText_eq_ok_iff htext).1 hs).2, ?_⟩,
    fun d count => isCount_iff_toJson?, fun s hlimit => ?_⟩
  · constructor
    · rintro ⟨s, hs⟩
      exact ((ofText_eq_ok_iff htext).1 hs).1
    · intro hadmissible
      obtain ⟨s, hgives⟩ := hadmissible.exists_gives
      exact ⟨s, (ofText_eq_ok_iff htext).2 ⟨hadmissible, hgives⟩⟩
  · intro other members' hother hperm s
    rw [ofText_eq_ok_iff hother, ofText_eq_ok_iff htext]
    exact ⟨fun h => ⟨h.1.perm hperm, h.2.perm hperm⟩,
      fun h => ⟨h.1.perm hperm.symm, h.2.perm hperm.symm⟩⟩
  · exact (ofText_eq_ok_iff s.spelledBy_print).2 ⟨admissible_members hlimit, s.gives_members⟩

/-- The largest limit there is, given first, with an escape in the other key and spaces around; then
in the other order; then as it is printed. -/
theorem ofText_object_and_print_reordered :
    let s : Settings := ⟨0, 18446744073709551615⟩
    ofText "\x7b \"max_rule_length\" : 18446744073709551615,\n\"cache\\u005fcapacity\":0\x7d" =
        .ok s ∧
      ofText "\x7b\"cache_capacity\": 0, \"max_rule_length\": 18446744073709551615\x7d" = .ok s ∧
      ofText s.print = .ok s := by
  intro s
  have hfirst : (Document.object s.members.reverse).SpelledBy
      "\x7b \"max_rule_length\" : 18446744073709551615,\n\"cache\\u005fcapacity\":0\x7d" :=
    Json.Lexeme.spelled_of_scan? (by decide +kernel)
  have hother : (Document.object s.members).SpelledBy
      "\x7b\"cache_capacity\": 0, \"max_rule_length\": 18446744073709551615\x7d" :=
    Json.Lexeme.spelled_of_scan? (by decide +kernel)
  have hlimit : 1 ≤ s.maxRuleLength := by decide
  obtain ⟨hobject, -, hprint⟩ := ofText_object_and_print
  obtain ⟨hgiven, hgives, horder⟩ := hobject _ _ hfirst
  have hreverse : s.members.reverse.Perm s.members := s.members.reverse_perm
  obtain ⟨t, ht⟩ := hgiven.2 ((admissible_members hlimit).perm hreverse.symm)
  obtain rfl : t = s := ext_get fun field =>
    have hmember := mem_members.2 ⟨field, rfl, rfl⟩
    ((hgives t ht field).1 _ (hreverse.mem_iff.2 hmember)).unique (isCount_of_mem_members hmember)
  exact ⟨ht, (horder _ _ hother hreverse.symm _).2 ht, hprint _ hlimit⟩

end Settings

end BusinessRules
