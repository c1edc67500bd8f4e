/-!
# Members in key order

The members of an object have no order of their own; they are kept as a list in strictly
increasing order of their keys, so that equal objects are equal lists:

* `Members.insert` — a member put in its place, replacing one of the same key;
* `Members.ofList` — members given in any order, a later one replacing an earlier one;
* `Members.find?` — the value of a key.

Principal result: `Members.ofList_of_increasing` (members in order stay as they are).
-/

namespace BusinessRules.Members

variable {α : Type}

/-- The keys increase strictly, so no two are equal. -/
def Increasing (members : List (String × α)) : Prop := members.Pairwise (fun a b => a.1 < b.1)

/-- Puts a member in its place, replacing one of the same key. -/
def insert (key : String) (value : α) : List (String × α) → List (String × α)
  | [] => [(key, value)]
  | (k, v) :: rest =>
    if key < k then (key, value) :: (k, v) :: rest
    else if key = k then (key, value) :: rest
    else (k, v) :: insert key value rest

/-- The members of a list given in any order; a later one replaces an earlier one. -/
def ofList (entries : List (String × α)) : List (String × α) :=
  entries.foldl (fun members entry => insert entry.1 entry.2 members) []

def find? (members : List (String × α)) (key : String) : Option α :=
  (members.find? (fun member => member.1 = key)).map (·.2)

theorem find?_cons (k : String) (v : α) (rest : List (String × α)) (key : String) :
    find? ((k, v) :: rest) key = if k = key then some v else find? rest key := by
  unfold find?
  rw [List.find?_cons]
  by_cases h : k = key <;> simp [h]

theorem increasing_of_keys {members : List (String × α)}
    (h : (members.map (·.1)).Pairwise (· < ·)) : Increasing members :=
  List.pairwise_map.1 h

/-- A member beyond all others is put behind them. -/
theorem insert_of_lt {key : String} {value : α} {members : List (String × α)}
    (h : ∀ m ∈ members, m.1 < key) : insert key value members = members ++ [(key, value)] := by
  induction members with
  | nil => rfl
  | cons m rest ih =>
    obtain ⟨hm, hrest⟩ := List.forall_mem_cons.1 h
    have hnot : ¬ key < m.1 := fun hlt => String.lt_irrefl _ (String.lt_trans hm hlt)
    have hne : key ≠ m.1 := by
      rintro rfl
      exact String.lt_irrefl _ hm
    rw [insert, if_neg hnot, if_neg hne, ih hrest]
    rfl

/-- Members that are in order already stay as they are. -/
theorem ofList_of_increasing {entries : List (String × α)} (h : Increasing entries) :
    ofList entries = entries := by
  suffices hfold : ∀ members : List (String × α), Increasing (members ++ entries) →
      entries.foldl (fun members entry => insert entry.1 entry.2 members) members =
        members ++ entries from hfold [] h
  clear h
  induction entries with
  | nil =>
    intro members _
    exact (List.append_nil members).symm
  | cons entry rest ih =>
    intro members h
    have hlt : ∀ m ∈ members, m.1 < entry.1 := fun m hm =>
      (List.pairwise_append.1 h).2.2 m hm entry (List.mem_cons_self ..)
    rw [List.foldl_cons, insert_of_lt hlt, ih _ (by simpa using h)]
    simp

end BusinessRules.Members
