import BusinessRules.Error
import BusinessRules.Proofs.Depth

/-!
# The stored form of expressions

An expression is stored as a value and read back in two passes, the shape first and the meaning
then. Neither pass fails on what was stored, and together they give the expression back. Written out
as a node, an expression spells the same value.

Principal results: `Expr.decode_toJson` (at any depth), `Expr.ofJson_toJson` (up to `maxDepth`
levels) and `Expr.toJson_and_back` (the two ways of writing and the two of reading together).
-/

namespace BusinessRules

theorem Expr.toJson_ne_null (e : Expr) : e.toJson ≠ .null := by
  cases e <;> exact fun h => nomatch h

namespace StoredNode

theorem Draft.put_left {v : Json} (h : v ≠ .null) (d : Draft) (node : Except NodeFault StoredNode) :
    d.put .left v node = node.map fun n => { d with left := some n } := by
  cases v with
  | null => exact absurd rfl h
  | bool | number | string | array | object => cases node <;> rfl

theorem Draft.put_right {v : Json} (h : v ≠ .null) (d : Draft)
    (node : Except NodeFault StoredNode) :
    d.put .right v node = node.map fun n => { d with right := some n } := by
  cases v with
  | null => exact absurd rfl h
  | bool | number | string | array | object => cases node <;> rfl

/-- The shape of a stored expression is its node. -/
theorem ofJson_toJson (e : Expr) : ofJson e.toJson = .ok (ofExpr e) := by
  induction e with
  | leaf condition => rfl
  | join op left right ihl ihr =>
    have hleft : Slot.ofKey? "left" = some .left := by rfl
    have hright : Slot.ofKey? "right" = some .right := by rfl
    rw [Expr.toJson, ofJson, readMembers, hleft]
    simp only [ihl, Draft.put_left left.toJson_ne_null, Except.map]
    rw [readMembers, hright]
    simp only [ihr, Draft.put_right right.toJson_ne_null, Except.map]
    rfl

/-- The node of an expression means the expression. -/
theorem toExpr_ofExpr (e : Expr) : (ofExpr e).toExpr = .ok e := by
  induction e with
  | leaf condition => rw [ofExpr, toExpr, if_neg (by decide), if_pos rfl]
  | join op left right ihl ihr =>
    have hsymbol : Connective.ofSymbol? op.symbol = some op := Connective.ofSymbol?_eq_some.2 rfl
    rw [ofExpr, toExpr, if_pos rfl]
    simp only [hsymbol, ihl, ihr]

/-- The node of an expression, written with its kind first, spells the stored form, whose keys are
in order. -/
theorem toJson?_toDocument_ofExpr (e : Expr) :
    (ofExpr e).toDocument.toJson? some = some e.toJson := by
  induction e with
  | leaf condition =>
    have hkeys : ["type", "value"].Pairwise (· < ·) := by decide
    have hmembers : Members.ofList [("type", Json.string NodeKind.operand.name),
        ("value", .string condition)] = _ :=
      Members.ofList_of_increasing (Members.increasing_of_keys hkeys)
    simp only [ofExpr, toDocument, Expr.toJson, Json.Document.toJson?,
      Json.Document.membersToJson?, List.append_nil, Option.map_some, Json.ofMembers, hmembers]
  | join op left right ihl ihr =>
    have hleft : "left" < "type" ∧ "left" < "value" := by decide
    have hright : "right" < "type" ∧ ¬ "right" < "left" := by decide
    have hvalue : ¬ "value" < "type" := by decide
    have hmembers : Members.ofList [("type", Json.string NodeKind.operator.name),
        ("value", .string op.symbol), ("left", left.toJson), ("right", right.toJson)] =
        [("left", left.toJson), ("right", right.toJson),
          ("type", .string NodeKind.operator.name), ("value", .string op.symbol)] := by
      simp [Members.ofList, Members.insert, hleft, hright, hvalue]
    simp only [ofExpr, toDocument, Expr.toJson, Json.Document.toJson?,
      Json.Document.membersToJson?, List.cons_append, List.nil_append, Option.map_some,
      Json.ofMembers, ihl, ihr, hmembers]

end StoredNode

namespace Expr

/-- **An expression of any depth is read back from its stored form.** -/
theorem decode_toJson (e : Expr) : decode e.toJson = .ok e := by
  rw [decode, StoredNode.ofJson_toJson]
  simp only [StoredNode.toExpr_ofExpr]

/-- **Within the limit on levels the engine reads every expression back from its stored form.** -/
theorem ofJson_toJson (e : Expr) :
    ofJson e.toJson = if e.depth ≤ maxDepth then .ok e else .error (.evaluation .tooDeep) := by
  rw [ofJson, Json.nesting_eq_levels, levels_toJson, e.depth_eq_height, decode_toJson]
  by_cases h : e.height ≤ maxDepth
  · rw [if_neg (by omega), if_pos h]
  · rw [if_pos (by omega), if_neg h]

/-- **What is stored is what is written, and it is read back.** An expression written out as a node
spells its stored form; the node means the expression at any depth; and from the stored form the
engine reads it back up to the limit on levels, beyond which it refuses it as too deep. -/
theorem toJson_and_back (e : Expr) :
    (StoredNode.ofExpr e).toDocument.toJson? some = some e.toJson ∧
      (StoredNode.ofExpr e).toExpr = .ok e ∧
      ofJson e.toJson = if e.depth ≤ maxDepth then .ok e else .error (.evaluation .tooDeep) :=
  ⟨StoredNode.toJson?_toDocument_ofExpr e, StoredNode.toExpr_ofExpr e, ofJson_toJson e⟩

end Expr

/-- The truth value of a stored expression is that of the expression. -/
theorem evaluateStored_toJson {e : Expr} (h : e.depth ≤ maxDepth) (record : Record) :
    evaluateStored e.toJson record = (e.evaluate record).mapError .evaluation := by
  rw [evaluateStored, e.ofJson_toJson, if_pos h]
  dsimp only
  cases e.evaluate record <;> rfl

end BusinessRules
