import BusinessRules.Proofs.NodeParts

/-!
# Which values denote expressions

A stored expression is read from any value. The shapes of all nodes are looked at before any
meaning, so a fault of shape counts wherever it is, and a fault of meaning only where a meaning is
needed.

* `Json.NodeShaped` — the shape that a node must have, its sides apart;
* `Json.Reaches` — from a node to the nodes below it, also below an operand;
* `Json.Denotes` — the expression that a value stands for.

Principal results: `StoredNode.exists_ofJson_iff` (the values that have a shape),
`StoredNode.toExpr_eq_ok_iff` (those that have a meaning), `Expr.depth_le_nesting_of_decode` (no
meaning has more levels than its value), `Expr.ofJson_eq_ok_iff` and `Expr.ofJson_outcome` (which
outcome a value has).
-/

namespace BusinessRules

namespace Json

/-- A value of the shape of a node, its children apart: the kind is a text, and so is the value if
there is one. -/
structure NodeShaped (v : Json) : Prop where
  spelling : v.SpellsNode
  kind : ∃ s, v.part? .kind = some (.string s)
  value : ∀ part, v.part? .value = some part → ∃ s, part = .string s

/-- The nodes that are reached through left and right sides, whatever the kinds of the nodes on
the way. -/
inductive Reaches : Json → Json → Prop where
  | here {v : Json} : Reaches v v
  | left {v side w : Json} (part : v.part? .left = some side) (further : Reaches side w) :
      Reaches v w
  | right {v side w : Json} (part : v.part? .right = some side) (further : Reaches side w) :
      Reaches v w

/-- The expression that a value stands for. An operand needs its condition only; an operator needs
a connective and two sides that stand for expressions. -/
inductive Denotes : Json → Expr → Prop where
  | operand {v : Json} {condition : String} (kind : v.part? .kind = some (.string "operand"))
      (value : v.part? .value = some (.string condition)) : Denotes v (.leaf condition)
  | operator {v left right : Json} {op : Connective} {x y : Expr}
      (kind : v.part? .kind = some (.string "operator"))
      (value : v.part? .value = some (.string op.symbol))
      (leftPart : v.part? .left = some left) (rightPart : v.part? .right = some right)
      (leftMeaning : Denotes left x) (rightMeaning : Denotes right y) :
      Denotes v (.join op x y)

end Json

namespace StoredNode

open Json

/-! ## Shape -/

theorem Spelled.nodeShaped {v : Json} {n : StoredNode} (h : Spelled v n) : v.NodeShaped := by
  refine ⟨h.spelling, ⟨n.kind, h.kind⟩, ?_⟩
  intro part hpart
  rw [h.value] at hpart
  obtain ⟨s, -, rfl⟩ := Option.map_eq_some_iff.1 hpart
  exact ⟨s, rfl⟩

/-- Below a value that has been read every node has its shape. -/
theorem nodeShaped_of_reaches {v w : Json} (hw : v.Reaches w) (hv : v.Sorted) {n : StoredNode}
    (h : ofJson v = .ok n) : w.NodeShaped := by
  induction hw generalizing n with
  | here => exact ((ofJson_eq_ok_iff hv).1 h).nodeShaped
  | left part further ih =>
    obtain ⟨m, -, hm⟩ := (part ▸ ((ofJson_eq_ok_iff hv).1 h).left).exists_node
    exact ih (hv.part part) hm
  | right part further ih =>
    obtain ⟨m, -, hm⟩ := (part ▸ ((ofJson_eq_ok_iff hv).1 h).right).exists_node
    exact ih (hv.part part) hm

theorem exists_readsSide {part : Option Json}
    (h : ∀ v, part = some v → ∃ n, ofJson v = .ok n) : ∃ side, ReadsSide part side := by
  cases part with
  | none => exact ⟨none, .none⟩
  | some v =>
    obtain ⟨n, hn⟩ := h v rfl
    exact ⟨some n, .some hn⟩

/-- A value is read if every node below it has its shape. -/
theorem exists_ofJson_of_nodeShaped {v : Json} (hv : v.Sorted)
    (h : ∀ w, v.Reaches w → w.NodeShaped) : ∃ n, ofJson v = .ok n := by
  obtain ⟨hspells, ⟨kind, hkind⟩, htext⟩ := h v .here
  have hvalue : ∃ value : Option String, v.part? .value = value.map .string := by
    cases hpart : v.part? .value with
    | none => exact ⟨none, rfl⟩
    | some part =>
      obtain ⟨s, rfl⟩ := htext part hpart
      exact ⟨some s, rfl⟩
  obtain ⟨value, hvalue⟩ := hvalue
  obtain ⟨left, hleft⟩ := exists_readsSide fun side hside =>
    have := size_lt_of_part? hside
    exists_ofJson_of_nodeShaped (hv.part hside) fun w hw => h w (.left hside hw)
  obtain ⟨right, hright⟩ := exists_readsSide fun side hside =>
    have := size_lt_of_part? hside
    exists_ofJson_of_nodeShaped (hv.part hside) fun w hw => h w (.right hside hw)
  exact ⟨⟨kind, value, left, right⟩,
    (ofJson_eq_ok_iff hv).2 ⟨hspells, hkind, hvalue, hleft, hright⟩⟩
termination_by v.size

/-- **A value has the shape of a node exactly if every node it reaches has.** -/
theorem exists_ofJson_iff {v : Json} (hv : v.Sorted) :
    (∃ n, ofJson v = .ok n) ↔ ∀ w, v.Reaches w → w.NodeShaped :=
  ⟨fun ⟨_, hn⟩ _ hw => nodeShaped_of_reaches hw hv hn, exists_ofJson_of_nodeShaped hv⟩

/-! ## Meaning -/

theorem toExpr_eq_leaf_iff {n : StoredNode} {condition : String} :
    n.toExpr = .ok (.leaf condition) ↔
      n.kind = NodeKind.operand.name ∧ n.value = some condition := by
  obtain ⟨kind, value, left, right⟩ := n
  constructor
  · intro h
    unfold toExpr at h
    split at h
    · -- an operator means no leaf
      repeat' split at h
      all_goals cases h
    · split at h
      · rename_i hkind
        cases value with
        | none => cases h
        | some condition' => cases h; exact ⟨hkind, rfl⟩
      · cases h
  · rintro ⟨hkind, hvalue⟩
    dsimp only at hkind hvalue
    unfold toExpr
    rw [hkind, hvalue, if_neg (by decide), if_pos rfl]

theorem toExpr_eq_join_iff {n : StoredNode} {op : Connective} {x y : Expr} :
    n.toExpr = .ok (.join op x y) ↔
      n.kind = NodeKind.operator.name ∧ n.value = some op.symbol ∧
        ∃ l r, n.left = some l ∧ n.right = some r ∧ l.toExpr = .ok x ∧ r.toExpr = .ok y := by
  obtain ⟨kind, value, left, right⟩ := n
  constructor
  · intro h
    unfold toExpr at h
    split at h
    · rename_i hkind
      repeat' split at h
      all_goals cases h
      rename_i l r _ _ hsymbol hx hy
      exact ⟨hkind, congrArg some (Connective.ofSymbol?_eq_some.1 hsymbol).symm, l, r, rfl, rfl,
        hx, hy⟩
    · -- an operand means no join
      repeat' split at h
      all_goals cases h
  · rintro ⟨hkind, hvalue, l, r, hleft, hright, hx, hy⟩
    dsimp only at hkind hvalue hleft hright
    have hsymbol : Connective.ofSymbol? op.symbol = some op := Connective.ofSymbol?_eq_some.2 rfl
    subst hvalue hleft hright
    unfold toExpr
    rw [if_pos hkind]
    simp only [hsymbol, hx, hy]

/-- **A node means an expression exactly if the value it is read from denotes it.** -/
theorem toExpr_eq_ok_iff {v : Json} (hv : v.Sorted) {n : StoredNode} (h : ofJson v = .ok n)
    {e : Expr} : n.toExpr = .ok e ↔ v.Denotes e := by
  induction e generalizing v n with
  | leaf condition =>
    have hn := (ofJson_eq_ok_iff hv).1 h
    rw [toExpr_eq_leaf_iff]
    constructor
    · rintro ⟨hkind, hvalue⟩
      refine .operand ?_ ?_
      · rw [hn.kind, hkind]
        rfl
      · rw [hn.value, hvalue]
        rfl
    · rintro (⟨hkind, hvalue⟩ | _)
      rw [hn.kind, Option.some.injEq, Json.string.injEq] at hkind
      rw [hn.value] at hvalue
      exact ⟨hkind, by simpa using hvalue⟩
  | join op x y ihx ihy =>
    have hn := (ofJson_eq_ok_iff hv).1 h
    rw [toExpr_eq_join_iff]
    constructor
    · rintro ⟨hkind, hvalue, l, r, hl, hr, hx, hy⟩
      obtain ⟨left, hleft, hreadl⟩ := (hl ▸ hn.left).exists_part
      obtain ⟨right, hright, hreadr⟩ := (hr ▸ hn.right).exists_part
      refine .operator ?_ ?_ hleft hright ?_ ?_
      · rw [hn.kind, hkind]
        rfl
      · rw [hn.value, hvalue]
        rfl
      · exact (ihx (hv.part hleft) hreadl).1 hx
      · exact (ihy (hv.part hright) hreadr).1 hy
    · rintro (_ | ⟨hkind, hvalue, hleft, hright, hx, hy⟩)
      obtain ⟨l, hl, hreadl⟩ := (hleft ▸ hn.left).exists_node
      obtain ⟨r, hr, hreadr⟩ := (hright ▸ hn.right).exists_node
      rw [hn.kind, Option.some.injEq, Json.string.injEq] at hkind
      rw [hn.value] at hvalue
      exact ⟨hkind, by simpa using hvalue, l, r, hl, hr, (ihx (hv.part hleft) hreadl).2 hx,
        (ihy (hv.part hright) hreadr).2 hy⟩

/-! ## Levels -/

/-- The nodes that a draft has for sides. -/
def Draft.sides (d : Draft) : List StoredNode := d.left.toList ++ d.right.toList

theorem Draft.mem_sides_of_put {d d' : Draft} {slot : Slot} {v : Json}
    (h : d.put slot v (ofJson v) = .ok d') {m : StoredNode} (hm : m ∈ d'.sides) :
    m ∈ d.sides ∨ ofJson v = .ok m := by
  by_cases hnull : v = .null
  · subst hnull
    cases slot <;> cases h <;> exact .inl hm
  · cases slot with
    | kind | value => cases v <;> cases h <;> exact .inl hm
    | left =>
      rw [put_left hnull, map_eq_ok] at h
      obtain ⟨n, hread, rfl⟩ := h
      rcases List.mem_append.1 hm with hm | hm
      · exact .inr (List.mem_singleton.1 hm ▸ hread)
      · exact .inl (List.mem_append_right _ hm)
    | right =>
      rw [put_right hnull, map_eq_ok] at h
      obtain ⟨n, hread, rfl⟩ := h
      rcases List.mem_append.1 hm with hm | hm
      · exact .inl (List.mem_append_left _ hm)
      · exact .inr (List.mem_singleton.1 hm ▸ hread)

theorem Draft.mem_sides_of_putAll {entries : List (Slot × Json)} {d d' : Draft}
    (h : d.putAll entries = .ok d') {m : StoredNode} (hm : m ∈ d'.sides) :
    m ∈ d.sides ∨ ∃ entry ∈ entries, ofJson entry.2 = .ok m := by
  induction entries generalizing d with
  | nil =>
    cases h
    exact .inl hm
  | cons entry rest ih =>
    rw [← List.singleton_append, putAll_append, putAll_singleton] at h
    cases hfirst : d.put entry.1 entry.2 (ofJson entry.2) with
    | error fault => rw [hfirst] at h; cases h
    | ok next =>
      rw [hfirst] at h
      rcases ih h with hm | ⟨other, hother, hread⟩
      · rcases mem_sides_of_put hfirst hm with hm | hread
        · exact .inl hm
        · exact .inr ⟨entry, List.mem_cons_self .., hread⟩
      · exact .inr ⟨other, List.mem_cons_of_mem _ hother, hread⟩

/-- Reading a value puts values inside it into the slots of a draft, in whatever order. -/
theorem exists_putAll_of_ofJson {v : Json} {n : StoredNode} (h : ofJson v = .ok n) :
    ∃ entries, (∀ entry ∈ entries, entry.2 ∈ v.children) ∧
      Draft.putAll {} entries = .ok n.draft := by
  cases v with
  | object members =>
    rw [ofJson, readMembers_eq_putAll] at h
    refine ⟨slotted members, fun entry hentry => ?_, ?_⟩
    · obtain ⟨member, hmember, hslot⟩ := List.mem_filterMap.1 hentry
      obtain ⟨slot, -, rfl⟩ := Option.map_eq_some_iff.1 hslot
      exact List.mem_map_of_mem hmember
    · cases hput : Draft.putAll {} (slotted members) with
      | error fault => simp [hput] at h
      | ok d =>
        simp only [hput, Draft.finish_eq_ok] at h
        rw [h]
  | array items =>
    cases items with
    | nil => rw [ofJson] at h; cases h
    | cons item rest =>
      rw [ofJson, readItems_eq_putAll] at h
      refine ⟨Slot.inOrder.zip (item :: rest), fun entry hentry => (List.of_mem_zip hentry).2, ?_⟩
      cases hput : Draft.putAll {} (Slot.inOrder.zip (item :: rest)) with
      | error fault => simp [hput] at h
      | ok d =>
        simp only [hput] at h
        split at h
        · cases h
        · rw [Draft.finish_eq_ok.1 h]
  | null | bool | number | string =>
    rw [ofJson] at h
    · cases h
    all_goals simp

/-- A side of a node is read from a value inside the one that the node is read from. -/
theorem exists_child_of_mem_sides {v : Json} {n : StoredNode} (h : ofJson v = .ok n)
    {m : StoredNode} (hm : m ∈ n.draft.sides) : ∃ w ∈ v.children, ofJson w = .ok m := by
  obtain ⟨entries, hinside, hput⟩ := exists_putAll_of_ofJson h
  rcases Draft.mem_sides_of_putAll hput hm with hm | ⟨entry, hentry, hread⟩
  · cases hm
  · exact ⟨entry.2, hinside entry hentry, hread⟩

theorem levels_pos_of_ofJson {v : Json} {n : StoredNode} (h : ofJson v = .ok n) : 0 < v.levels := by
  obtain ⟨entries, hinside, hput⟩ := exists_putAll_of_ofJson h
  cases entries with
  | nil => cases hput
  | cons entry rest =>
    have hlevels := Json.levels_lt_of_mem_children (hinside entry (List.mem_cons_self ..))
    omega

/-- The meaning of a node has no more levels than the value that the node is read from. -/
theorem height_le_levels {v : Json} {n : StoredNode} (hread : ofJson v = .ok n) {e : Expr}
    (hmeans : n.toExpr = .ok e) : e.height ≤ v.levels := by
  -- each side of a join costs a level of the expression and at least one of the value
  induction e generalizing v n with
  | leaf condition => exact levels_pos_of_ofJson hread
  | join op x y ihx ihy =>
    obtain ⟨-, -, l, r, hl, hr, hx, hy⟩ := toExpr_eq_join_iff.1 hmeans
    obtain ⟨left, hleft, hreadl⟩ := exists_child_of_mem_sides hread (m := l)
      (List.mem_append_left _ (by simp [draft, hl]))
    obtain ⟨right, hright, hreadr⟩ := exists_child_of_mem_sides hread (m := r)
      (List.mem_append_right _ (by simp [draft, hr]))
    have hxl := ihx hreadl hx
    have hyr := ihy hreadr hy
    have hvl := Json.levels_lt_of_mem_children hleft
    have hvr := Json.levels_lt_of_mem_children hright
    rw [Expr.height]
    omega

end StoredNode

namespace Expr

theorem decode_eq_ok {v : Json} {e : Expr} :
    decode v = .ok e ↔ ∃ n, StoredNode.ofJson v = .ok n ∧ n.toExpr = .ok e := by
  rw [decode]
  cases StoredNode.ofJson v with
  | error fault => simp
  | ok n => cases hmeans : n.toExpr <;> simp [hmeans]

theorem ofJson_eq_ok_iff_decode {v : Json} {e : Expr} :
    ofJson v = .ok e ↔ v.nesting ≤ maxDepth ∧ decode v = .ok e := by
  rw [ofJson, ← Nat.not_lt]
  by_cases hdeep : maxDepth < v.nesting
  · simp [hdeep]
  · rw [if_neg hdeep]
    cases decode v with
    | error err => cases err <;> simp
    | ok found => simp [hdeep]

/-- **An expression has no more levels than the value it is read from**, whatever the order of the
members. -/
theorem depth_le_nesting_of_decode {v : Json} {e : Expr} (h : decode v = .ok e) :
    e.depth ≤ v.nesting := by
  obtain ⟨n, hread, hmeans⟩ := decode_eq_ok.1 h
  rw [depth_eq_height, Json.nesting_eq_levels]
  exact StoredNode.height_le_levels hread hmeans

theorem depth_le_of_ofJson {v : Json} {e : Expr} (h : ofJson v = .ok e) :
    e.depth ≤ v.nesting ∧ e.depth ≤ maxDepth := by
  obtain ⟨hlevels, hdecode⟩ := ofJson_eq_ok_iff_decode.1 h
  have hnesting := depth_le_nesting_of_decode hdecode
  exact ⟨hnesting, Nat.le_trans hnesting hlevels⟩

/-- **A value is read as an expression exactly if** it keeps the limit on levels, every node below
it has its shape, and it denotes the expression. -/
theorem ofJson_eq_ok_iff {v : Json} (h : v.Sorted) {e : Expr} :
    ofJson v = .ok e ↔
      v.nesting ≤ maxDepth ∧ (∀ w, v.Reaches w → w.NodeShaped) ∧ v.Denotes e := by
  rw [ofJson_eq_ok_iff_decode, decode_eq_ok, ← StoredNode.exists_ofJson_iff h]
  refine and_congr_right fun _ => ⟨?_, ?_⟩
  · rintro ⟨n, hread, hmeans⟩
    exact ⟨⟨n, hread⟩, (StoredNode.toExpr_eq_ok_iff h hread).1 hmeans⟩
  · rintro ⟨⟨n, hread⟩, hdenotes⟩
    exact ⟨n, hread, (StoredNode.toExpr_eq_ok_iff h hread).2 hdenotes⟩

/-- **What becomes of a value.** Within the limit on levels, decoding fails exactly if some node that
the value reaches has not its shape, whatever else is wrong with it. Otherwise the value is read as
an expression exactly if it denotes it, and a value that denotes none is refused as one without a
truth value. Beyond the limit every value is refused as too deep. -/
theorem ofJson_outcome (value : JsonValue) :
    let v := value.val
    (v.nesting ≤ maxDepth →
      ((∃ fault, ofJson v = .error (.deserialization fault)) ↔
          ∃ w, v.Reaches w ∧ ¬ w.NodeShaped) ∧
        ((∀ w, v.Reaches w → w.NodeShaped) →
          (∀ e, ofJson v = .ok e ↔ v.Denotes e) ∧
            ((∀ e, ¬ v.Denotes e) → ∃ err, ofJson v = .error (.evaluation err)))) ∧
      (maxDepth < v.nesting → ofJson v = .error (.evaluation .tooDeep)) := by
  obtain ⟨v, h⟩ := value
  refine ⟨fun hlevels => ⟨?_, fun hall => ⟨fun e => ?_, fun hnone => ?_⟩⟩,
    fun hdeep => by rw [ofJson, if_pos hdeep]⟩
  · have hshape : (∃ w, v.Reaches w ∧ ¬ w.NodeShaped) ↔ ¬ ∃ n, StoredNode.ofJson v = .ok n := by
      rw [StoredNode.exists_ofJson_iff h]
      simp
    rw [hshape, ofJson, if_neg (Nat.not_lt.2 hlevels), decode]
    cases hread : StoredNode.ofJson v with
    | error fault => simp
    | ok n => cases hmeans : n.toExpr <;> simp [hmeans]
  · rw [ofJson_eq_ok_iff h]
    exact ⟨fun hv => hv.2.2, fun hdenotes => ⟨hlevels, hall, hdenotes⟩⟩
  · obtain ⟨n, hread⟩ := (StoredNode.exists_ofJson_iff h).2 hall
    rw [ofJson, if_neg (Nat.not_lt.2 hlevels), decode, hread]
    cases hmeans : n.toExpr with
    | error err => exact ⟨err, by simp [hmeans]⟩
    | ok found => exact absurd ((StoredNode.toExpr_eq_ok_iff h hread).1 hmeans) (hnone found)

/-- Below an operand a side without a meaning does no harm, but one without a shape does, whatever
the kind of the node above. -/
theorem ofJson_outcome_below_operand :
    let meaningless : Json := .array [.string "operator", .string "OR",
      .object [("left", .null), ("note", .array []), ("type", .string "operand"),
        ("value", .string "a > 1")],
      .array [.string "operand", .string "b = 2", .array [.string "function"]]]
    let shapeless : Json := .object [("left", .array [.string "operand", .string "b = 2",
      .object []]), ("type", .string "function")]
    ofJson meaningless = .ok (.join .or (.leaf "a > 1") (.leaf "b = 2")) ∧
      ∃ fault, ofJson shapeless = .error (.deserialization fault) := by
  intro meaningless shapeless
  constructor
  · have hkeys : ["left", "note", "type", "value"].Pairwise (· < ·) := by decide
    have hsorted : meaningless.Sorted :=
      ⟨trivial, trivial,
        ⟨Members.increasing_of_keys hkeys, trivial, trivial, trivial, trivial, trivial⟩,
        ⟨trivial, trivial, ⟨trivial, trivial⟩, trivial⟩, trivial⟩
    have hlevels : meaningless.nesting ≤ maxDepth := by
      rw [Json.nesting_eq_levels]
      decide
    have hshaped := (StoredNode.exists_ofJson_iff hsorted).1 ⟨_, rfl⟩
    exact ((((ofJson_outcome ⟨meaningless, hsorted⟩).1 hlevels).2 hshaped).1 _).2
      (.operator rfl rfl rfl rfl (.operand rfl rfl) (.operand rfl rfl))
  · have hkeys : ["left", "type"].Pairwise (· < ·) := by decide
    have hsorted : shapeless.Sorted :=
      ⟨Members.increasing_of_keys hkeys,
        ⟨trivial, trivial, ⟨.nil, trivial⟩, trivial⟩, trivial, trivial⟩
    have hlevels : shapeless.nesting ≤ maxDepth := by
      rw [Json.nesting_eq_levels]
      decide
    obtain ⟨hshape, -⟩ := (ofJson_outcome ⟨shapeless, hsorted⟩).1 hlevels
    refine hshape.2 ⟨.object [], .left rfl (.left rfl .here), ?_⟩
    rintro ⟨-, ⟨_, hkind⟩, -⟩
    cases hkind

end Expr

end BusinessRules
