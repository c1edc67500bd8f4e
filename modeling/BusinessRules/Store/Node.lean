import BusinessRules.Evaluation.Error
import BusinessRules.Json.Nesting
import BusinessRules.Json.Shown
import BusinessRules.Text.Position

/-!
# Stored expressions

Model of `NodeRecord`, of its conversions from and to a `Node` (`from`, `try_from`) and of
`Node.to_json`. Expressions are stored as JSON objects with the keys `type`, `value`, `left` and
`right`. Reading one back takes two passes: the first checks the shape of every node, the second
gives the nodes their meaning.

* `StoredNode` — a node by its shape alone;
* `NodeFault` — a wrong shape, with `NodeFault.message`;
* `StoredNode.ofJson` — the shape of a value, which may spell a node as an object or as an array;
* `StoredNode.toExpr` — the meaning of a node;
* `StoredNode.ofExpr`, `StoredNode.toDocument` — an expression as a node, and a node as text;
* `Expr.toJson`, `Expr.decode` — the stored form of an expression, and back.
-/

namespace BusinessRules

/-- A node of a stored expression, by its shape (`NodeRecord`). -/
structure StoredNode where
  kind : String
  value : Option String
  left : Option StoredNode
  right : Option StoredNode

/-- Why a value has not the shape of a node. -/
inductive NodeFault where
  /-- an object without its kind -/
  | missingType
  /-- neither an object nor an array -/
  | notNode (found : Json.Shown)
  /-- a kind or a value that is no string -/
  | notText (found : Json.Shown)
  /-- an array without items -/
  | noItems
  /-- an array of more than four items -/
  | tooManyItems (count : Nat)
  deriving DecidableEq

def NodeFault.message : NodeFault → String
  | .missingType => "missing field `type`"
  | .notNode found => "invalid type: " ++ found.text ++ ", expected struct NodeRecord"
  | .notText found => "invalid type: " ++ found.text ++ ", expected a string"
  | .noItems => "invalid length 0, expected struct NodeRecord with 4 elements"
  | .tooManyItems count =>
    "invalid length " ++ Decimal.ofNat count ++ ", expected fewer elements in array"

namespace StoredNode

/-! ## Shape -/

/-- The places of a node that a value can stand in. -/
inductive Slot where
  | kind
  | value
  | left
  | right
  deriving DecidableEq, Repr

/-- The slot of a key; other keys are ignored. -/
def Slot.ofKey? (key : String) : Option Slot :=
  if key = "type" then some .kind
  else if key = "value" then some .value
  else if key = "left" then some .left
  else if key = "right" then some .right
  else none

/-- The slots of the items of an array. -/
def Slot.inOrder : List Slot := [.kind, .value, .left, .right]

/-- A node in the course of reading. -/
structure Draft where
  kind : Option String := none
  value : Option String := none
  left : Option StoredNode := none
  right : Option StoredNode := none

/-- Puts a value into a slot, given what reading the value as a node yields. A null stands for an
absent part, but not for an absent kind. -/
def Draft.put (d : Draft) (slot : Slot) (value : Json) (node : Except NodeFault StoredNode) :
    Except NodeFault Draft :=
  match slot, value with
  | .kind, .string s => .ok { d with kind := some s }
  | .kind, other => .error (.notText other.shown)
  | _, .null => .ok d
  | .value, .string s => .ok { d with value := some s }
  | .value, other => .error (.notText other.shown)
  | .left, _ =>
    match node with
    | .error e => .error e
    | .ok n => .ok { d with left := some n }
  | .right, _ =>
    match node with
    | .error e => .error e
    | .ok n => .ok { d with right := some n }

/-- The node of a complete draft; it needs its kind. -/
def Draft.finish (d : Draft) : Except NodeFault StoredNode :=
  match d.kind with
  | none => .error .missingType
  | some kind => .ok ⟨kind, d.value, d.left, d.right⟩

mutual

/-- The shape of a value. Members are read in key order, items in the order of the slots, and the
first fault counts. -/
def ofJson : Json → Except NodeFault StoredNode
  | .object members =>
    match readMembers members {} with
    | .error e => .error e
    | .ok d => d.finish
  | .array [] => .error .noItems
  | .array (item :: rest) =>
    match readItems Slot.inOrder (item :: rest) {} with
    | .error e => .error e
    | .ok d =>
      if Slot.inOrder.length < (item :: rest).length then
        .error (.tooManyItems (item :: rest).length)
      else d.finish
  | other => .error (.notNode other.shown)

/-- Reads members into a draft. -/
def readMembers : List (String × Json) → Draft → Except NodeFault Draft
  | [], d => .ok d
  | (key, value) :: rest, d =>
    match Slot.ofKey? key with
    | none => readMembers rest d
    | some slot =>
      match d.put slot value (ofJson value) with
      | .error e => .error e
      | .ok d => readMembers rest d

/-- Reads items into the slots of a draft; items without a slot are left alone. -/
def readItems : List Slot → List Json → Draft → Except NodeFault Draft
  | slot :: slots, value :: rest, d =>
    match d.put slot value (ofJson value) with
    | .error e => .error e
    | .ok d => readItems slots rest d
  | _, _, d => .ok d

end

/-! ## Meaning -/

/-- The expression of a node. An operator needs its symbol and both sides; an operand needs its
condition, and what hangs below it means nothing. -/
def toExpr : StoredNode → Except EvaluationError Expr
  | ⟨kind, value, left, right⟩ =>
    if kind = NodeKind.operator.name then
      match value with
      | none => .error (.malformedNode .operator .value)
      | some symbol =>
        match Connective.ofSymbol? symbol with
        | none => .error (.unsupportedOperator symbol)
        | some op =>
          match left, right with
          | none, _ => .error (.malformedNode .operator .left)
          | some _, none => .error (.malformedNode .operator .right)
          | some l, some r =>
            match l.toExpr with
            | .error e => .error e
            | .ok x =>
              match r.toExpr with
              | .error e => .error e
              | .ok y => .ok (.join op x y)
    else if kind = NodeKind.operand.name then
      match value with
      | none => .error (.malformedNode .operand .value)
      | some condition => .ok (.leaf condition)
    else .error (.unsupportedNodeType kind)

/-- The node of an expression. -/
def ofExpr : Expr → StoredNode
  | .leaf condition => ⟨NodeKind.operand.name, some condition, none, none⟩
  | .join op left right =>
    ⟨NodeKind.operator.name, some op.symbol, some (ofExpr left), some (ofExpr right)⟩

/-- A node as text: the kind first, then the parts it has. -/
def toDocument : StoredNode → Json.Document String
  | ⟨kind, value, left, right⟩ =>
    .object (("type", .string kind) ::
      (match value with
        | none => []
        | some v => [("value", .string v)]) ++
      (match left with
        | none => []
        | some l => [("left", l.toDocument)]) ++
      (match right with
        | none => []
        | some r => [("right", r.toDocument)]))

end StoredNode

/-! ## Expressions -/

/-- Why a value denotes no expression. -/
inductive DecodeError where
  | shape (fault : NodeFault)
  | meaning (e : EvaluationError)
  deriving DecidableEq

/-- The wording of an error. A missing meaning may end in words of the stored value; a position
among them is taken for the place of the fault. -/
def DecodeError.message : DecodeError → String
  | .shape fault => fault.message
  | .meaning e => Text.restatePosition e.message

namespace Expr

/-- The stored form of an expression, its keys in order (`Node.to_json`). -/
def toJson : Expr → Json
  | .leaf condition =>
    .object [("type", .string NodeKind.operand.name), ("value", .string condition)]
  | .join op left right =>
    .object [("left", left.toJson), ("right", right.toJson),
      ("type", .string NodeKind.operator.name), ("value", .string op.symbol)]

/-- The expression that a value denotes, of any depth. The shape of the whole value is checked
before any meaning. -/
def decode (value : Json) : Except DecodeError Expr :=
  match StoredNode.ofJson value with
  | .error fault => .error (.shape fault)
  | .ok node =>
    match node.toExpr with
    | .error e => .error (.meaning e)
    | .ok e => .ok e

end Expr

end BusinessRules
