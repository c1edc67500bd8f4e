import BusinessRules.Proofs.Conversion
import BusinessRules.Proofs.StoredForm

/-!
# Nodes part by part

Reading a value as a node puts the values found in it into the slots of a draft, one after the
other and in an order of their own for objects and for arrays. The order decides which fault is
reported, but not whether there is one: what is read is the part that the value has in each slot.

* `Json.part?` — the part of a value in a slot; a null is no part, and a member without a slot
  counts for nothing;
* `Json.SpellsNode` — the values that have parts;
* `StoredNode.Draft.Holds` — a slot of a draft, filled from a part;
* `StoredNode.Spelled` — a node and the value it is read from, part by part.

Principal results: `StoredNode.Draft.putAll_eq_ok_iff` (values of different slots are read one by
one) and `StoredNode.ofJson_eq_ok_iff` (reading a value is reading its parts).
-/

namespace BusinessRules

open StoredNode (Slot)

/-! ## Parts -/

namespace StoredNode

/-- The key of a slot in an object. -/
def Slot.key : Slot → String
  | .kind => "type"
  | .value => "value"
  | .left => "left"
  | .right => "right"

/-- The place of a slot in an array. -/
def Slot.position : Slot → Nat
  | .kind => 0
  | .value => 1
  | .left => 2
  | .right => 3

theorem Slot.ofKey?_eq_some {key : String} {slot : Slot} :
    ofKey? key = some slot ↔ slot.key = key := by
  constructor
  · intro h
    unfold ofKey? at h
    repeat' split at h
    all_goals cases h
    all_goals subst_vars; rfl
  · rintro rfl
    cases slot <;> rfl

theorem Slot.key_inj {slot other : Slot} : slot.key = other.key ↔ slot = other := by
  rw [← ofKey?_eq_some, ofKey?_eq_some.2 rfl, Option.some.injEq, eq_comm]

end StoredNode

namespace Json

/-- What a value has in a slot: in an object under the key, in an array at the place. -/
def inSlot? : Json → Slot → Option Json
  | .object members, slot => Members.find? members slot.key
  | .array items, slot => items[slot.position]?
  | _, _ => none

/-- A null is no part. -/
def present : Option Json → Option Json
  | some .null => none
  | entry => entry

/-- The part of a value in a slot. -/
def part? (v : Json) (slot : Slot) : Option Json := present (v.inSlot? slot)

theorem present_some {v : Json} (h : v ≠ .null) : present (some v) = some v := by
  cases v with
  | null => exact absurd rfl h
  | bool | number | string | array | object => rfl

theorem eq_of_present_eq {entry : Option Json} {v : Json} (h : present entry = some v) :
    entry = some v := by
  unfold present at h
  split at h
  · cases h
  · exact h

theorem present_eq_string {entry : Option Json} {s : String} :
    present entry = some (.string s) ↔ entry = some (.string s) :=
  ⟨eq_of_present_eq, fun h => by rw [h]; rfl⟩

/-- The values that can spell a node: an object, or an array of one to four items. -/
def SpellsNode : Json → Prop
  | .object _ => True
  | .array items => 1 ≤ items.length ∧ items.length ≤ 4
  | _ => False

/-! ## Parts are smaller -/

theorem mem_children_of_part? {v w : Json} {slot : Slot} (h : v.part? slot = some w) :
    w ∈ v.children := by
  have hentry := eq_of_present_eq h
  cases v with
  | object members =>
    obtain ⟨member, hfound, rfl⟩ := Option.map_eq_some_iff.1 hentry
    exact List.mem_map_of_mem (List.mem_of_find?_eq_some hfound)
  | array items => exact List.mem_of_getElem? hentry
  | null | bool | number | string => cases hentry

theorem Sorted.child {v w : Json} (h : v.Sorted) (hw : w ∈ v.children) : w.Sorted := by
  cases v with
  | object members =>
    obtain ⟨-, hmembers⟩ := h
    induction members with
    | nil => cases hw
    | cons member rest ih =>
      rcases List.mem_cons.1 hw with rfl | hw
      · exact hmembers.1
      · exact ih hw hmembers.2
  | array items =>
    induction items with
    | nil => cases hw
    | cons item rest ih =>
      rcases List.mem_cons.1 hw with rfl | hw
      · exact h.1
      · exact ih h.2 hw
  | null | bool | number | string => cases hw

theorem Sorted.part {v w : Json} (h : v.Sorted) {slot : Slot} (hw : v.part? slot = some w) :
    w.Sorted :=
  h.child (mem_children_of_part? hw)

theorem size_lt_of_part? {v w : Json} {slot : Slot} (h : v.part? slot = some w) :
    w.size < v.size := by
  have hpending : ∀ values : List Json, w ∈ values →
      w.size ≤ pendingSize (values.map (·, 0)) := by
    intro values hmem
    induction values with
    | nil => cases hmem
    | cons value rest ih =>
      rw [List.map_cons, pendingSize]
      rcases List.mem_cons.1 hmem with rfl | hmem
      · omega
      · have hrest := ih hmem
        omega
  have hchildren := pendingSize_children v 0
  have hle := hpending v.children (mem_children_of_part? h)
  omega

theorem levels_lt_of_mem_children {v w : Json} (h : w ∈ v.children) : w.levels < v.levels := by
  cases v with
  | object members =>
    rw [levels]
    induction members with
    | nil => cases h
    | cons member rest ih =>
      rw [memberLevels]
      rcases List.mem_cons.1 h with rfl | h
      · show member.2.levels < _
        omega
      · have hrest := ih h
        omega
  | array items =>
    rw [levels]
    induction items with
    | nil => cases h
    | cons item rest ih =>
      rw [itemLevels]
      rcases List.mem_cons.1 h with rfl | h
      · omega
      · have hrest := ih h
        omega
  | null | bool | number | string => cases h

end Json

/-! ## Reading parts -/

namespace StoredNode

open Json

/-- Reading a side, where there is one, gives a node. -/
def ReadsSide (part : Option Json) (side : Option StoredNode) : Prop :=
  Option.Rel (fun v n => ofJson v = .ok n) part side

theorem ReadsSide.exists_node {v : Json} {side : Option StoredNode} (h : ReadsSide (some v) side) :
    ∃ n, side = some n ∧ ofJson v = .ok n := by
  cases h with
  | some hread => exact ⟨_, rfl, hread⟩

theorem ReadsSide.exists_part {part : Option Json} {n : StoredNode} (h : ReadsSide part (some n)) :
    ∃ v, part = some v ∧ ofJson v = .ok n := by
  cases h with
  | some hread => exact ⟨_, rfl, hread⟩

/-- A draft holds in a slot what reading an entry of that slot gives. -/
def Draft.Holds (d : Draft) : Slot → Option Json → Prop
  | .kind, entry => entry = d.kind.map .string
  | .value, entry => present entry = d.value.map .string
  | .left, entry => ReadsSide (present entry) d.left
  | .right, entry => ReadsSide (present entry) d.right

/-- A draft without what it has in a slot. -/
def Draft.erase (d : Draft) : Slot → Draft
  | .kind => { d with kind := none }
  | .value => { d with value := none }
  | .left => { d with left := none }
  | .right => { d with right := none }

theorem Draft.holds_erase {d : Draft} {slot other : Slot} (h : slot ≠ other)
    (entry : Option Json) : (d.erase other).Holds slot entry ↔ d.Holds slot entry := by
  cases slot <;> cases other
  case kind.kind | value.value | left.left | right.right => exact absurd rfl h
  all_goals exact Iff.rfl

theorem Draft.holds_none_iff {d : Draft} {slot : Slot} :
    d.Holds slot none ↔ d.erase slot = d := by
  obtain ⟨kind, value, left, right⟩ := d
  cases slot with
  | kind => cases kind <;> simp [Holds, erase]
  | value => cases value <;> simp [Holds, erase, present]
  | left => cases left <;> simp [Holds, erase, present, ReadsSide]
  | right => cases right <;> simp [Holds, erase, present, ReadsSide]

theorem Draft.erase_erase (d : Draft) (slot : Slot) : (d.erase slot).erase slot = d.erase slot := by
  cases slot <;> rfl

theorem Draft.eq_empty_of_holds_none {d : Draft} (h : ∀ slot, d.Holds slot none) : d = {} := by
  obtain ⟨kind, value, left, right⟩ := d
  obtain rfl : none = kind := congrArg Draft.kind (holds_none_iff.1 (h .kind))
  obtain rfl : none = value := congrArg Draft.value (holds_none_iff.1 (h .value))
  obtain rfl : none = left := congrArg Draft.left (holds_none_iff.1 (h .left))
  obtain rfl : none = right := congrArg Draft.right (holds_none_iff.1 (h .right))
  rfl

/-- A value is put into an empty slot exactly if the slot then holds what reading the value gives,
and the rest is as it was. -/
theorem Draft.put_eq_ok_iff {d : Draft} {slot : Slot} (h : d.erase slot = d) (v : Json)
    {d' : Draft} :
    d.put slot v (ofJson v) = .ok d' ↔ d'.Holds slot (some v) ∧ d'.erase slot = d := by
  obtain ⟨kind, value, left, right⟩ := d
  obtain ⟨kind', value', left', right'⟩ := d'
  cases slot with
  | kind =>
    obtain rfl : none = kind := congrArg Draft.kind h
    cases v <;> cases kind' <;> simp [put, Holds, erase, eq_comm]
  | value =>
    obtain rfl : none = value := congrArg Draft.value h
    cases v <;> cases value' <;> simp [put, Holds, erase, present, eq_comm, and_left_comm]
  | left =>
    obtain rfl : none = left := congrArg Draft.left h
    by_cases hnull : v = .null
    · subst hnull
      cases left' <;> simp [put, Holds, erase, present, ReadsSide, eq_comm]
    · rw [put_left hnull, Holds, present_some hnull]
      cases hread : ofJson v <;> cases left' <;>
        grind [Except.map, erase, ReadsSide, Option.rel_some_some, Option.not_rel_some_none]
  | right =>
    obtain rfl : none = right := congrArg Draft.right h
    by_cases hnull : v = .null
    · subst hnull
      cases right' <;> simp [put, Holds, erase, present, ReadsSide, eq_comm]
    · rw [put_right hnull, Holds, present_some hnull]
      cases hread : ofJson v <;> cases right' <;>
        grind [Except.map, erase, ReadsSide, Option.rel_some_some, Option.not_rel_some_none]

/-- Puts values into slots, one after the other. -/
def Draft.putAll (d : Draft) (entries : List (Slot × Json)) : Except NodeFault Draft :=
  entries.foldlM (fun d entry => d.put entry.1 entry.2 (ofJson entry.2)) d

theorem Draft.putAll_append (d : Draft) (xs ys : List (Slot × Json)) :
    d.putAll (xs ++ ys) = (d.putAll xs).bind fun d => d.putAll ys :=
  List.foldlM_append

theorem Draft.putAll_singleton (d : Draft) (entry : Slot × Json) :
    d.putAll [entry] = d.put entry.1 entry.2 (ofJson entry.2) := by
  rw [putAll, List.foldlM_cons]
  cases d.put entry.1 entry.2 (ofJson entry.2) <;> rfl

/-- **Entries of different slots are read exactly into the draft that holds all of them**, in
whatever order they come. -/
theorem Draft.putAll_eq_ok_iff {entries : List (Slot × Json)} (h : (entries.map (·.1)).Nodup)
    {d : Draft} :
    putAll {} entries = .ok d ↔ ∀ slot, d.Holds slot (entries.lookup slot) := by
  -- induction from the end: the last entry goes into a slot that the others leave empty
  obtain ⟨back, rfl⟩ : ∃ back : List (Slot × Json), entries = back.reverse :=
    ⟨entries.reverse, entries.reverse_reverse.symm⟩
  induction back generalizing d with
  | nil =>
    constructor
    · intro hd slot
      cases hd
      exact holds_none_iff.2 (by cases slot <;> rfl)
    · intro hd
      rw [eq_empty_of_holds_none hd]
      rfl
  | cons entry back ih =>
    obtain ⟨last, v⟩ := entry
    rw [List.reverse_cons, List.map_append, List.nodup_append] at h
    obtain ⟨hback, -, hnew⟩ := h
    have hvacant : back.reverse.lookup last = none := by
      rw [List.lookup_eq_none_iff]
      intro entry hentry
      have hne := hnew entry.1 (List.mem_map_of_mem hentry) last (by simp)
      simpa using hne.symm
    have hlast : (back.reverse ++ [(last, v)]).lookup last = some v := by
      simp [List.lookup_append, hvacant]
    have hother : ∀ slot, slot ≠ last →
        (back.reverse ++ [(last, v)]).lookup slot = back.reverse.lookup slot := by
      intro slot hne
      simp [List.lookup_append, List.lookup_cons, beq_eq_false_iff_ne.2 hne]
    rw [List.reverse_cons, putAll_append]
    constructor
    · intro hd
      cases hfirst : putAll {} back.reverse with
      | error e => rw [hfirst] at hd; cases hd
      | ok d₀ =>
        have hholds := (ih hback).1 hfirst
        have hempty := holds_none_iff.1 (hvacant ▸ hholds last)
        rw [hfirst, Except.bind, putAll_singleton, put_eq_ok_iff hempty] at hd
        obtain ⟨hd, rfl⟩ := hd
        intro slot
        by_cases hslot : slot = last
        · rw [hslot, hlast]
          exact hd
        · rw [hother slot hslot, ← holds_erase hslot]
          exact hholds slot
    · intro hd
      have hholds : ∀ slot, (d.erase last).Holds slot (back.reverse.lookup slot) := by
        intro slot
        by_cases hslot : slot = last
        · rw [hslot, hvacant]
          exact holds_none_iff.2 (d.erase_erase last)
        · rw [holds_erase hslot, ← hother slot hslot]
          exact hd slot
      rw [(ih hback).2 hholds, Except.bind, putAll_singleton,
        put_eq_ok_iff (d.erase_erase last)]
      exact ⟨hlast ▸ hd last, rfl⟩

/-! ## Objects and arrays -/

/-- The members of an object that have a slot. -/
def slotted (members : List (String × Json)) : List (Slot × Json) :=
  members.filterMap fun member => (Slot.ofKey? member.1).map (·, member.2)

theorem slotted_cons (key : String) (v : Json) (rest : List (String × Json)) :
    slotted ((key, v) :: rest) = ((Slot.ofKey? key).map (·, v)).toList ++ slotted rest := by
  rw [slotted, List.filterMap_cons]
  cases Slot.ofKey? key <;> rfl

theorem readMembers_eq_putAll (members : List (String × Json)) (d : Draft) :
    readMembers members d = d.putAll (slotted members) := by
  induction members generalizing d with
  | nil => rfl
  | cons member rest ih =>
    obtain ⟨key, v⟩ := member
    rw [readMembers, slotted_cons]
    cases Slot.ofKey? key with
    | none => exact ih d
    | some slot =>
      simp only [Option.map_some, Option.toList_some, Draft.putAll_append, Draft.putAll_singleton]
      cases d.put slot v (ofJson v) with
      | error e => rfl
      | ok d' => exact ih d'

theorem lookup_slotted (members : List (String × Json)) (slot : Slot) :
    (slotted members).lookup slot = (Json.object members).inSlot? slot := by
  rw [inSlot?]
  induction members with
  | nil => rfl
  | cons member rest ih =>
    obtain ⟨key, v⟩ := member
    rw [slotted_cons, Members.find?_cons, List.lookup_append, ih]
    cases hfound : Slot.ofKey? key with
    | none =>
      have hne : key ≠ slot.key := fun h => by
        rw [Slot.ofKey?_eq_some.2 h.symm] at hfound
        cases hfound
      rw [if_neg hne]
      rfl
    | some other =>
      obtain rfl := Slot.ofKey?_eq_some.1 hfound
      by_cases h : other = slot
      · subst h
        simp
      · simp [List.lookup_cons, beq_eq_false_iff_ne.2 (Ne.symm h), Slot.key_inj, h]

theorem nodup_slotted {members : List (String × Json)} (h : Members.Increasing members) :
    ((slotted members).map (·.1)).Nodup := by
  refine List.pairwise_map.2 (h.filterMap _ ?_)
  intro m m' hlt entry hentry entry' hentry' hslot
  obtain ⟨slot, hs, rfl⟩ := Option.map_eq_some_iff.1 hentry
  obtain ⟨slot', hs', rfl⟩ := Option.map_eq_some_iff.1 hentry'
  have hkeys : slot.key = slot'.key := congrArg Slot.key hslot
  rw [Slot.ofKey?_eq_some.1 hs, Slot.ofKey?_eq_some.1 hs'] at hkeys
  rw [hkeys] at hlt
  exact String.lt_irrefl _ hlt

theorem readItems_eq_putAll (slots : List Slot) (items : List Json) (d : Draft) :
    readItems slots items d = d.putAll (slots.zip items) := by
  induction slots generalizing items d with
  | nil => cases items <;> rfl
  | cons slot slots ih =>
    cases items with
    | nil => rfl
    | cons v rest =>
      simp only [readItems, List.zip_cons_cons, Draft.putAll, List.foldlM_cons]
      cases d.put slot v (ofJson v) with
      | error e => rfl
      | ok d' => exact ih rest d'

theorem lookup_zip_inOrder (items : List Json) (slot : Slot) :
    (Slot.inOrder.zip items).lookup slot = (Json.array items).inSlot? slot := by
  rcases items with _ | ⟨a, _ | ⟨b, _ | ⟨c, _ | ⟨e, rest⟩⟩⟩⟩ <;> cases slot <;> rfl

theorem nodup_zip_inOrder (items : List Json) :
    ((Slot.inOrder.zip items).map (·.1)).Nodup := by
  rcases items with _ | ⟨a, _ | ⟨b, _ | ⟨c, _ | ⟨e, rest⟩⟩⟩⟩ <;> simp [Slot.inOrder]

/-- A node is what reading a value gives, part by part. -/
structure Spelled (v : Json) (n : StoredNode) : Prop where
  spelling : v.SpellsNode
  kind : v.part? .kind = some (.string n.kind)
  value : v.part? .value = n.value.map .string
  left : ReadsSide (v.part? .left) n.left
  right : ReadsSide (v.part? .right) n.right

/-- The draft of a finished node. -/
def draft (n : StoredNode) : Draft := ⟨some n.kind, n.value, n.left, n.right⟩

theorem Draft.finish_eq_ok {d : Draft} {n : StoredNode} : d.finish = .ok n ↔ d = n.draft := by
  obtain ⟨kind, value, left, right⟩ := d
  obtain ⟨kind', value', left', right'⟩ := n
  cases kind <;> simp [finish, draft]

theorem holds_draft_iff {v : Json} (h : v.SpellsNode) {n : StoredNode} :
    (∀ slot, n.draft.Holds slot (v.inSlot? slot)) ↔ Spelled v n := by
  constructor
  · intro hd
    exact ⟨h, present_eq_string.2 (hd .kind), hd .value, hd .left, hd .right⟩
  · intro hn slot
    cases slot with
    | kind => exact present_eq_string.1 hn.kind
    | value => exact hn.value
    | left => exact hn.left
    | right => exact hn.right

/-- **Reading a value as a node is reading its parts.** -/
theorem ofJson_eq_ok_iff {v : Json} (h : v.Sorted) {n : StoredNode} :
    ofJson v = .ok n ↔ Spelled v n := by
  cases v with
  | object members =>
    have hspells : (Json.object members).SpellsNode := trivial
    have hread := Draft.putAll_eq_ok_iff (nodup_slotted h.1) (d := n.draft)
    simp only [← readMembers_eq_putAll, lookup_slotted] at hread
    rw [← holds_draft_iff hspells, ← hread, ofJson]
    cases readMembers members {} with
    | error e => simp
    | ok d => simp [Draft.finish_eq_ok]
  | array items =>
    cases items with
    | nil =>
      refine ⟨fun hok => ?_, fun hn => ?_⟩
      · rw [ofJson] at hok
        cases hok
      · exact absurd hn.spelling.1 (by simp)
    | cons item rest =>
      by_cases hmany : Slot.inOrder.length < (item :: rest).length
      · refine ⟨fun hok => ?_, fun hn => ?_⟩
        · rw [ofJson] at hok
          split at hok
          · cases hok
          · rw [if_pos hmany] at hok
            cases hok
        · exact absurd hn.spelling.2 (Nat.not_le.2 hmany)
      · have hspells : (Json.array (item :: rest)).SpellsNode := ⟨by simp, Nat.not_lt.1 hmany⟩
        have hread := Draft.putAll_eq_ok_iff (nodup_zip_inOrder (item :: rest)) (d := n.draft)
        simp only [← readItems_eq_putAll, lookup_zip_inOrder] at hread
        rw [← holds_draft_iff hspells, ← hread, ofJson]
        cases readItems Slot.inOrder (item :: rest) {} with
        | error e => simp
        | ok d => simp only [if_neg hmany, Draft.finish_eq_ok, Except.ok.injEq]
  | null | bool | number | string =>
    refine ⟨fun hok => ?_, fun hn => hn.spelling.elim⟩
    rw [ofJson] at hok
    · cases hok
    all_goals simp

end StoredNode

end BusinessRules
