import BusinessRules.Json.Basic

/-!
# Nesting of JSON values

How deeply arrays and objects nest, counted twice; `nesting` is the model of the function of that
name:

* `levels` — by recursion on the value: nothing for a scalar, one more than the deepest child for
  a container, one for an empty one;
* `nesting` — over a list of pending values with the level each stands on, without recursion into
  the value, so that no value is too deep for it.
-/

namespace BusinessRules.Json

mutual

/-- The nesting of containers, by recursion. -/
def levels : Json → Nat
  | .array items => itemLevels items + 1
  | .object members => memberLevels members + 1
  | _ => 0

def itemLevels : List Json → Nat
  | [] => 0
  | item :: rest => max item.levels (itemLevels rest)

def memberLevels : List (String × Json) → Nat
  | [] => 0
  | (_, value) :: rest => max value.levels (memberLevels rest)

end

/-- The values directly inside a value. -/
def children : Json → List Json
  | .array items => items
  | .object members => members.map (·.2)
  | _ => []

def isContainer : Json → Bool
  | .array _ => true
  | .object _ => true
  | _ => false

mutual

def size : Json → Nat
  | .array items => itemsSize items + 1
  | .object members => membersSize members + 1
  | _ => 1

def itemsSize : List Json → Nat
  | [] => 0
  | item :: rest => item.size + itemsSize rest

def membersSize : List (String × Json) → Nat
  | [] => 0
  | (_, value) :: rest => value.size + membersSize rest

end

def pendingSize : List (Json × Nat) → Nat
  | [] => 0
  | (value, _) :: rest => value.size + pendingSize rest

theorem pendingSize_items (items : List Json) (level : Nat) :
    pendingSize (items.map (·, level)) = itemsSize items := by
  induction items with
  | nil => rfl
  | cons item rest ih => simp [pendingSize, itemsSize, ih]

theorem pendingSize_members (members : List (String × Json)) (level : Nat) :
    pendingSize ((members.map (·.2)).map (·, level)) = membersSize members := by
  induction members with
  | nil => rfl
  | cons member rest ih => simp only [List.map_cons, pendingSize, membersSize, ih]

/-- The children of a value hold one value less than it does. -/
theorem pendingSize_children (value : Json) (level : Nat) :
    pendingSize (value.children.map (·, level)) + 1 = value.size := by
  cases value with
  | array items => simp [children, size, pendingSize_items]
  | object members => simp only [children, size, pendingSize_members]
  | _ => rfl

theorem pendingSize_append (xs ys : List (Json × Nat)) :
    pendingSize (xs ++ ys) = pendingSize xs + pendingSize ys := by
  induction xs with
  | nil => simp [pendingSize]
  | cons x rest ih => simp [pendingSize, ih, Nat.add_assoc]

/-- The deepest level of a container among pending values, at least `deepest`. -/
def deepestContainer (pending : List (Json × Nat)) (deepest : Nat) : Nat :=
  match pending with
  | [] => deepest
  | (value, level) :: rest =>
    deepestContainer (value.children.map (·, level + 1) ++ rest)
      (if value.isContainer then max deepest level else deepest)
termination_by pendingSize pending
decreasing_by
  rw [pendingSize_append]
  have h := pendingSize_children value (level + 1)
  rw [pendingSize]
  omega

/-- The nesting of containers, counted over a list of pending values. -/
def nesting (value : Json) : Nat := deepestContainer [(value, 1)] 0

end BusinessRules.Json
