import BusinessRules.Host.Session
import BusinessRules.Proofs.Depth

/-!
# Values of a host and back

A JSON value that becomes a value of the host is converted back to itself, unless it has too many
levels. The conversion counts a level for every value, scalars included; a stored expression, whose
leaves hold texts, has one level more than its expression.

* `Json.Sorted` — members in key order, in every object of a value;
* `JsonValue` — the values that are so: keys have no order of their own, so each object has one list
  of members;
* `Json.height` — the levels of a value, one for a scalar or an empty container.

Principal results: `HostValue.toJson_ofJson`, `Session.convert_ofJson` (the same as a call reports
it), `Session.convert_ofJson_of_height`, `Expr.sorted_toJson` and `Expr.height_toJson`.
-/

namespace BusinessRules

namespace Json

mutual

/-- The members of every object stand in the order of their keys. -/
def Sorted : Json → Prop
  | .array items => ItemsSorted items
  | .object members => Members.Increasing members ∧ MembersSorted members
  | _ => True

def ItemsSorted : List Json → Prop
  | [] => True
  | item :: rest => item.Sorted ∧ ItemsSorted rest

def MembersSorted : List (String × Json) → Prop
  | [] => True
  | (_, value) :: rest => value.Sorted ∧ MembersSorted rest

end

mutual

/-- The levels of a value, one for a scalar or an empty container. -/
def height : Json → Nat
  | .array items => itemsHeight items + 1
  | .object members => membersHeight members + 1
  | _ => 1

def itemsHeight : List Json → Nat
  | [] => 0
  | item :: rest => max item.height (itemsHeight rest)

def membersHeight : List (String × Json) → Nat
  | [] => 0
  | (_, value) :: rest => max value.height (membersHeight rest)

end

theorem height_pos (value : Json) : 0 < value.height := by
  cases value <;> simp [height]

/-! ## Objects inside objects -/

/-- A value inside so many objects. -/
def nest (objects : Nat) (value : Json) : Json :=
  Nat.repeat (fun inner => .object [("k", inner)]) objects value

theorem sorted_nest (objects : Nat) {value : Json} (h : value.Sorted) :
    (nest objects value).Sorted := by
  induction objects with
  | zero => exact h
  | succ n ih => exact ⟨List.pairwise_singleton _ _, ih, trivial⟩

theorem height_nest (objects : Nat) (value : Json) :
    (nest objects value).height = value.height + objects := by
  induction objects with
  | zero => rfl
  | succ n ih =>
    show max (nest n value).height 0 + 1 = value.height + n + 1
    rw [ih, Nat.max_zero]

theorem levels_nest (objects : Nat) (value : Json) :
    (nest objects value).levels = value.levels + objects := by
  induction objects with
  | zero => rfl
  | succ n ih =>
    show max (nest n value).levels 0 + 1 = value.levels + n + 1
    rw [ih, Nat.max_zero]

end Json

/-- A JSON value: the members of its objects stand in key order. -/
abbrev JsonValue := { value : Json // value.Sorted }

/-! ## There and back -/

namespace HostValue

open Json

theorem toJsonAt_of_lt {level : Nat} (h : maxDepth < level) (v : HostValue) :
    v.toJsonAt level = .error .tooDeep := by
  cases v <;> rw [toJsonAt, if_pos h]

mutual

/-- A value on a level converts back to itself if its levels fit below the limit. -/
theorem toJsonAt_ofJson (value : Json) (h : value.Sorted) (level : Nat) :
    (ofJson value).toJsonAt level =
      if level + value.height ≤ maxDepth + 1 then .ok value else .error .tooDeep := by
  have hpos := value.height_pos
  by_cases hlevel : maxDepth < level
  · rw [toJsonAt_of_lt hlevel, if_neg (by omega)]
  · have hchildren : level + 1 ≤ maxDepth + 1 := by omega
    cases value with
    | array items =>
      have hlevels : level + (itemsHeight items + 1) = level + 1 + itemsHeight items := by omega
      rw [ofJson, toJsonAt, if_neg hlevel, height, hlevels,
        itemsToJsonAt_itemsOfJson items h hchildren]
      by_cases hfit : level + 1 + itemsHeight items ≤ maxDepth + 1
      · simp only [if_pos hfit]
      · simp only [if_neg hfit]
    | object members =>
      obtain ⟨hincreasing, hsorted⟩ := h
      have hlevels : level + (membersHeight members + 1) = level + 1 + membersHeight members := by
        omega
      rw [ofJson, toJsonAt, if_neg hlevel, height, hlevels,
        entriesToJsonAt_entriesOfJson members hsorted hchildren]
      by_cases hfit : level + 1 + membersHeight members ≤ maxDepth + 1
      · simp only [if_pos hfit, ofMembers, Members.ofList_of_increasing hincreasing]
      · simp only [if_neg hfit]
    | number n =>
      cases n with
      | integer i =>
        simp only [ofJson, toJsonAt, if_neg hlevel, height, hchildren, if_true, WideInt.ofInt?_val]
      | float x => simp only [ofJson, toJsonAt, if_neg hlevel, height, hchildren, if_true]
    | null | bool | string =>
      simp only [ofJson, toJsonAt, if_neg hlevel, height, hchildren, if_true]

theorem itemsToJsonAt_itemsOfJson (items : List Json) (h : ItemsSorted items) {level : Nat}
    (hlevel : level ≤ maxDepth + 1) :
    itemsToJsonAt (itemsOfJson items) level =
      if level + itemsHeight items ≤ maxDepth + 1 then .ok items else .error .tooDeep := by
  cases items with
  | nil => rw [itemsOfJson, itemsToJsonAt, itemsHeight, if_pos (by omega)]
  | cons item rest =>
    have hitem := toJsonAt_ofJson item h.1 level
    have hrest := itemsToJsonAt_itemsOfJson rest h.2 hlevel
    have hmax : level + max item.height (itemsHeight rest) ≤ maxDepth + 1 ↔
        level + item.height ≤ maxDepth + 1 ∧ level + itemsHeight rest ≤ maxDepth + 1 := by omega
    rw [itemsOfJson, itemsToJsonAt, itemsHeight, hitem, hrest]
    simp only [hmax]
    by_cases hfirst : level + item.height ≤ maxDepth + 1
    · by_cases hothers : level + itemsHeight rest ≤ maxDepth + 1
      · simp only [hfirst, hothers, and_self, if_true]
      · simp only [hfirst, hothers, and_false, if_true, if_false]
    · simp only [hfirst, false_and, if_false]

theorem entriesToJsonAt_entriesOfJson (members : List (String × Json)) (h : MembersSorted members)
    {level : Nat} (hlevel : level ≤ maxDepth + 1) :
    entriesToJsonAt (entriesOfJson members) level =
      if level + membersHeight members ≤ maxDepth + 1 then .ok members else .error .tooDeep := by
  cases members with
  | nil => rw [entriesOfJson, entriesToJsonAt, membersHeight, if_pos (by omega)]
  | cons member rest =>
    obtain ⟨key, value⟩ := member
    have hvalue := toJsonAt_ofJson value h.1 level
    have hrest := entriesToJsonAt_entriesOfJson rest h.2 hlevel
    have hmax : level + max value.height (membersHeight rest) ≤ maxDepth + 1 ↔
        level + value.height ≤ maxDepth + 1 ∧ level + membersHeight rest ≤ maxDepth + 1 := by omega
    rw [entriesOfJson, entriesToJsonAt, membersHeight, hvalue, hrest]
    simp only [hmax]
    by_cases hfirst : level + value.height ≤ maxDepth + 1
    · by_cases hothers : level + membersHeight rest ≤ maxDepth + 1
      · simp only [hfirst, hothers, and_self, if_true]
      · simp only [hfirst, hothers, and_false, if_true, if_false]
    · simp only [hfirst, false_and, if_false]

end

/-- **A JSON value that becomes a value of the host is converted back to itself**, unless it has
more than `maxDepth` levels. -/
theorem toJson_ofJson (value : JsonValue) :
    (ofJson value).toJson =
      if value.val.height ≤ maxDepth then .ok value.val else .error .tooDeep := by
  have hlevels : 1 + value.val.height ≤ maxDepth + 1 ↔ value.val.height ≤ maxDepth := by omega
  simp only [toJson, toJsonAt_ofJson value.val value.property, hlevels]

end HostValue

namespace Session

open Json

theorem convert_ofJson (value : JsonValue) :
    convert (.ofJson value) =
      if value.val.height ≤ maxDepth then .ok value.val else .error (.conversion .tooDeep) := by
  rw [convert, HostValue.toJson_ofJson]
  split <;> rfl

/-- **From a value to the host and back is the identity up to an exact limit.** A value of at most
`maxDepth` levels is what its own value of the host is converted to; every deeper one is refused
with an error of the value, worded by the limit. -/
theorem convert_ofJson_of_height (value : JsonValue) :
    (value.val.height ≤ maxDepth → convert (.ofJson value) = .ok value.val) ∧
      (maxDepth < value.val.height →
        ∃ fault, convert (.ofJson value) = .error fault ∧ fault.category = .value ∧
          fault.message = "Value nests deeper than 256 levels") := by
  rw [convert_ofJson]
  constructor
  · exact fun hfits => if_pos hfits
  · intro hdeep
    rw [if_neg (Nat.not_le_of_lt hdeep)]
    exact ⟨.conversion .tooDeep, rfl, rfl, by decide +kernel⟩

/-- A number beyond the signed 64 bits, in as many objects as the limit allows and in one more: the
number takes a level as well. -/
theorem convert_ofJson_of_height_nested :
    let nested (containers : Nat) : Json :=
      Nat.repeat (fun v => .object [("k", v)]) containers
        (.number (.integer ⟨18446744073709551615, by decide, by decide⟩))
    convert (.ofJson (nested 255)) = .ok (nested 255) ∧
      ∃ fault, convert (.ofJson (nested 256)) = .error fault ∧ fault.category = .value ∧
        fault.message = "Value nests deeper than 256 levels" := by
  intro nested
  have hsorted (n : Nat) : (nested n).Sorted := Json.sorted_nest n trivial
  have hheight (n : Nat) : (nested n).height = 1 + n := Json.height_nest n _
  exact ⟨(convert_ofJson_of_height ⟨nested 255, hsorted 255⟩).1 (Nat.le_of_eq (hheight 255)),
    (convert_ofJson_of_height ⟨nested 256, hsorted 256⟩).2 (Nat.le_of_eq (hheight 256).symm)⟩

end Session

/-! ## Stored expressions -/

theorem Expr.sorted_toJson (e : Expr) : e.toJson.Sorted := by
  induction e with
  | leaf condition =>
    have hkeys : ["type", "value"].Pairwise (· < ·) := by decide
    exact ⟨Members.increasing_of_keys hkeys, trivial, trivial, trivial⟩
  | join op left right ihl ihr =>
    have hkeys : ["left", "right", "type", "value"].Pairwise (· < ·) := by decide
    exact ⟨Members.increasing_of_keys hkeys, ihl, ihr, trivial, trivial, trivial⟩

/-- The texts in the leaves of a stored expression are one level below its last node. -/
theorem Expr.height_toJson (e : Expr) : e.toJson.height = e.height + 1 := by
  induction e with
  | leaf condition => rfl
  | join op left right ihl ihr =>
    simp only [toJson, Json.height, Json.membersHeight, height, ihl, ihr]
    omega

end BusinessRules
