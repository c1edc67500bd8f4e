import BusinessRules.Host.Session
import BusinessRules.Proofs.Combination
import BusinessRules.Proofs.Decoding
import BusinessRules.Proofs.Strictness

/-!
# Expressions in the hands of a host

A host gets the expression of a text as a dictionary and hands it back to have it rendered or
evaluated. On its way it is an expression, a stored form, a value of the host, a stored form and an
expression again, with a limit on levels at three of these steps. Parsing and decoding count nodes;
the conversion counts the texts in the leaves as well, so that its limit is one node lower.

* `Expr.ofJson_note`, `Session.convert_ofJson_note` — both limits on a member that has no meaning.

Principal results: `Session.convert_ofJson_toJson`, `Session.exprOf_ofJson_toJson`,
`Session.evaluateAst_ofJson_toJson` and `Session.perform_of_parseRule` (the dictionary of a text is
as good as its expression, up to one level below the limit).
-/

namespace BusinessRules

/-! ## Long conjunctions -/

theorem Expr.length_render_conjunction_replicate (first : Expr) (condition : String) (n : Nat) :
    (conjunction first (List.replicate n (.leaf condition))).render.length =
      first.render.length + n * (condition.length + 7) := by
  induction n generalizing first with
  | zero => simp
  | succ n ih =>
    rw [List.replicate_succ, conjunction_cons, ih, Nat.succ_mul]
    have hop : " ".length + Connective.and.symbol.length + " ".length = 5 := by rfl
    have hparens : "(".length + ")".length = 2 := by rfl
    simp only [render, String.length_append]
    omega

theorem Expr.eq_of_mem_conditions_conjunction_replicate {text condition : String} {n : Nat}
    (h : condition ∈ (conjunction (.leaf text) (List.replicate n (.leaf text))).conditions) :
    condition = text := by
  rw [conditions_conjunction] at h
  rcases List.mem_append.1 h with h | h
  · exact List.mem_singleton.1 h
  · obtain ⟨other, hother, h⟩ := List.mem_flatMap.1 h
    rw [List.eq_of_mem_replicate hother] at h
    exact List.mem_singleton.1 h

/-- A chain of canonical comparisons is what its rendered text parses to, as long as the limit
allows a level for each of them. -/
theorem Expr.parse_render_conjunction_replicate {condition : String} (h : Canonical condition)
    {n : Nat} (hlevels : n < maxDepth) :
    let e := conjunction (.leaf condition) (List.replicate n (.leaf condition))
    parse e.render = .ok e ∧ e.depth = n + 1 := by
  intro e
  have hdepth : e.depth = n + 1 := by
    rw [depth_eq_height, height_conjunction_replicate, Nat.add_comm]
    rfl
  have hcanonical : ∀ other ∈ e.conditions, Canonical other := fun other hother =>
    eq_of_mem_conditions_conjunction_replicate hother ▸ h
  refine ⟨?_, hdepth⟩
  rw [parse_render_of_canonical hcanonical, hdepth, if_pos (Nat.succ_le_of_lt hlevels)]

/-! ## Members without a meaning -/

/-- Decoding takes an operand for its condition, whatever another member holds, as long as the
containers in it keep the limit. -/
theorem Expr.ofJson_note {note : Json} (h : note.levels < maxDepth) (condition : String) :
    ofJson (.object [("note", note), ("type", .string "operand"), ("value", .string condition)]) =
      .ok (.leaf condition) := by
  refine ofJson_eq_ok_iff_decode.2 ⟨?_, decode_eq_ok.2 ⟨⟨"operand", condition, none, none⟩, ?_, ?_⟩⟩
  · rw [Json.nesting_eq_levels]
    show max note.levels 0 + 1 ≤ maxDepth
    omega
  · rfl
  · exact StoredNode.toExpr_eq_leaf_iff.2 ⟨rfl, rfl⟩

namespace Session

/-- The conversion refuses an operand for the levels of another member, which it counts with the
scalars at the bottom. -/
theorem convert_ofJson_note (note : JsonValue) (h : maxDepth ≤ note.val.height)
    (condition : String) :
    convert (.ofJson (.object [("note", note), ("type", .string "operand"),
      ("value", .string condition)])) = .error (.conversion .tooDeep) := by
  have hkeys : ["note", "type", "value"].Pairwise (· < ·) := by decide
  have hobject : (Json.object [("note", note), ("type", .string "operand"),
      ("value", .string condition)]).Sorted :=
    ⟨Members.increasing_of_keys hkeys, note.property, trivial, trivial, trivial⟩
  refine (convert_ofJson ⟨_, hobject⟩).trans (if_neg ?_)
  show ¬ max note.val.height 1 + 1 ≤ maxDepth
  omega

/-! ## The way back -/

/-- The dictionary of an expression is its stored form again, unless the expression has as many
levels as the limit allows, or more. -/
theorem convert_ofJson_toJson (e : Expr) :
    convert (.ofJson e.toJson) =
      if e.depth < maxDepth then .ok e.toJson else .error (.conversion .tooDeep) := by
  have hlevels : e.toJson.height ≤ maxDepth ↔ e.depth < maxDepth := by
    rw [e.height_toJson, e.depth_eq_height, Nat.succ_le_iff]
  rw [convert_ofJson ⟨e.toJson, e.sorted_toJson⟩]
  simp only [hlevels]

theorem exprOf_ofJson_toJson (e : Expr) :
    exprOf (.ofJson e.toJson) =
      if e.depth < maxDepth then .ok e else .error (.conversion .tooDeep) := by
  rw [exprOf, convert_ofJson_toJson]
  by_cases h : e.depth < maxDepth
  · simp only [if_pos h, e.ofJson_toJson, if_pos (Nat.le_of_lt h)]
    rfl
  · simp only [if_neg h]

theorem evaluateAst_ofJson_toJson (e : Expr) {data : HostValue} {record : Record}
    (hdata : recordOf data = .ok record) :
    evaluateAst (.ofJson e.toJson) data =
      if e.depth < maxDepth then (e.evaluate record).mapError (.engine ∘ .evaluation)
      else .error (.conversion .tooDeep) := by
  rw [evaluateAst, hdata, convert_ofJson_toJson]
  by_cases h : e.depth < maxDepth
  · simp only [if_pos h, evaluateStored_toJson (Nat.le_of_lt h)]
    cases e.evaluate record <;> rfl
  · simp only [if_neg h]

/-! ## From text to dictionary -/

theorem parseRule_eq_ok {s : Session} {text : String} {e : Expr} :
    s.parseRule text = .ok e ↔
      s.settings.checkLength text = .ok () ∧ Expr.parse text = .ok e := by
  unfold parseRule
  cases s.settings.checkLength text with
  | error err => simp
  | ok _ => simp [mapError_eq_ok]

theorem perform_parseRule_eq_ok {s : Session} {text : String} {d : HostValue} :
    (s.perform (.parseRule text)).1 = .ok d ↔
      ∃ e, s.settings.checkLength text = .ok () ∧ Expr.parse text = .ok e ∧
        d = .ofJson e.toJson := by
  show (s.parseRule text).map (fun e => HostValue.ofJson e.toJson) = .ok d ↔ _
  rw [map_eq_ok]
  simp only [parseRule_eq_ok, and_assoc]

/-- **The dictionary of a text is as good as its expression**, up to one level below the limit. It
is rendered as the expression is, and on every record it has the truth value of the expression or
fails with the wording of its error. At the limit itself, which parsing still allows, the dictionary
has one level too many to be handed back. -/
theorem perform_of_parseRule (s later : Session) {text : String} {d : HostValue}
    (h : (s.perform (.parseRule text)).1 = .ok d) :
    ∃ e, Expr.parse text = .ok e ∧ e.depth ≤ maxDepth ∧
      (e.depth < maxDepth →
        (later.perform (.astToString d)).1 = .ok (.text e.render) ∧
          ∀ data record, recordOf data = .ok record →
            (∀ b, e.evaluate record = .ok b →
              (later.perform (.evaluateAst d data)).1 = .ok (.bool b)) ∧
            ∀ err, e.evaluate record = .error err →
              ∃ fault, (later.perform (.evaluateAst d data)).1 = .error fault ∧
                fault.category = .value ∧ fault.message = "Evaluation error: " ++ err.message) ∧
      (e.depth = maxDepth →
        (later.perform (.astToString d)).1 = .error (.conversion .tooDeep) ∧
          ∀ data record, recordOf data = .ok record →
            (later.perform (.evaluateAst d data)).1 = .error (.conversion .tooDeep)) := by
  obtain ⟨e, -, hparse, rfl⟩ := perform_parseRule_eq_ok.1 h
  refine ⟨e, hparse, Expr.depth_le_of_parse hparse, fun hdepth => ⟨?_, ?_⟩, fun hdepth => ⟨?_, ?_⟩⟩
  · simp only [perform, exprOf_ofJson_toJson, if_pos hdepth]
    rfl
  · intro data record hdata
    have hcall : (later.perform (.evaluateAst (.ofJson e.toJson) data)).1 =
        ((e.evaluate record).mapError (.engine ∘ .evaluation)).map .bool := by
      simp only [perform, evaluateAst_ofJson_toJson e hdata, if_pos hdepth]
    refine ⟨fun b hb => ?_, fun err herr => ⟨.engine (.evaluation err), ?_, rfl, rfl⟩⟩
    · rw [hcall, hb]
      rfl
    · rw [hcall, herr]
      rfl
  · simp only [perform, exprOf_ofJson_toJson, hdepth, Nat.lt_irrefl, if_false]
    rfl
  · intro data record hdata
    simp only [perform, evaluateAst_ofJson_toJson e hdata, hdepth, Nat.lt_irrefl, if_false]
    rfl

theorem perform_of_parseRule_pair :
    let operand (condition : String) : HostValue :=
      .dict [(.text "type", .text "operand"), (.text "value", .text condition)]
    let d : HostValue := .dict [(.text "left", operand "a > 1"), (.text "right", operand "b = x"),
      (.text "type", .text "operator"), (.text "value", .text "AND")]
    let data : HostValue := .dict [(.text "a", .integer 2)]
    (fresh.perform (.parseRule "a > 1 AND b = x")).1 = .ok d ∧
      (fresh.perform (.astToString d)).1 = .ok (.text "(a > 1 AND b = x)") ∧
      ∃ fault, (fresh.perform (.evaluateAst d data)).1 = .error fault ∧
        fault.message = "Evaluation error: Field b not found in data" := by
  intro operand d data
  have hexpr : Expr.parse "a > 1 AND b = x" =
      .ok (.join .and (.leaf "a > 1") (.leaf "b = x")) := by rfl
  have hdict : (fresh.perform (.parseRule "a > 1 AND b = x")).1 = .ok d :=
    perform_parseRule_eq_ok.2 ⟨_, by rfl, hexpr, by rfl⟩
  obtain ⟨e, hparse, -, hbelow, -⟩ := perform_of_parseRule fresh fresh hdict
  rw [hexpr] at hparse
  cases hparse
  obtain ⟨hrendered, hevaluated⟩ := hbelow (by rw [Expr.depth_eq_height]; decide)
  have hrecord : recordOf data = .ok ⟨[("a", .number (.integer ⟨2, by decide, by decide⟩))]⟩ := by
    rfl
  obtain ⟨fault, hfault, -, hmessage⟩ :=
    (hevaluated data _ hrecord).2 (.fieldNotFound "b") (by rfl)
  exact ⟨hdict, hrendered, fault, hfault, hmessage⟩

/-! ## The deepest texts -/

/-- The dictionary of a text with as many levels as the limit allows cannot be handed back, since
the texts in its innermost dictionaries are counted as one level more. For the same reason a
dictionary is refused that has a member without a meaning inside so many others, though what it
spells is read and evaluated. -/
theorem perform_of_parseRule_deepest :
    let e := Expr.conjunction (.leaf "a > 1") (List.replicate 255 (.leaf "a > 1"))
    let note : Json := .object [("note", .nest 255 (.string "x")), ("type", .string "operand"),
      ("value", .string "a > 1")]
    let data : HostValue := .dict [(.text "a", .integer 2)]
    (fresh.perform (.parseRule e.render)).1 = .ok (.ofJson e.toJson) ∧
      Expr.parse e.render = .ok e ∧ e.depth = maxDepth ∧
      (fresh.perform (.astToString (.ofJson e.toJson))).1 = .error (.conversion .tooDeep) ∧
      (∃ record, recordOf data = .ok record ∧ ∃ b, e.evaluate record = .ok b) ∧
      (fresh.perform (.evaluateAst (.ofJson e.toJson) data)).1 = .error (.conversion .tooDeep) ∧
      Expr.ofJson note = .ok (.leaf "a > 1") ∧
      (fresh.perform (.astToString (.ofJson note))).1 = .error (.conversion .tooDeep) ∧
      (fresh.perform (.evaluateAst (.ofJson note) data)).1 = .error (.conversion .tooDeep) := by
  intro e note data
  have hcanonical : Canonical "a > 1" := ⟨"a", .greater, "1", by decide, by decide, by rfl⟩
  obtain ⟨hparse, hdepth⟩ : Expr.parse e.render = .ok e ∧ e.depth = maxDepth :=
    Expr.parse_render_conjunction_replicate hcanonical (by decide)
  have hlength : e.render.length = 3065 := by
    have hleaf : (Expr.leaf "a > 1").render.length = 5 := by rfl
    have hcondition : "a > 1".length = 5 := by rfl
    rw [Expr.length_render_conjunction_replicate, hleaf, hcondition]
  have hcheck : fresh.settings.checkLength e.render = .ok () := by
    rw [Settings.checkLength, hlength]
    rfl
  have hrecord : recordOf data = .ok ⟨[("a", .number (.integer ⟨2, by decide, by decide⟩))]⟩ := by
    rfl
  have hmeans : ∃ b,
      e.evaluate ⟨[("a", .number (.integer ⟨2, by decide, by decide⟩))]⟩ = .ok b := by
    refine Expr.exists_evaluate_eq_ok.2 fun condition hc => ⟨true, ?_⟩
    rw [Expr.eq_of_mem_conditions_conjunction_replicate hc]
    rfl
  have hread : Expr.ofJson note = .ok (.leaf "a > 1") :=
    Expr.ofJson_note (by rw [Json.levels_nest]; decide) "a > 1"
  have hnote : convert (.ofJson note) = .error (.conversion .tooDeep) :=
    convert_ofJson_note ⟨.nest 255 (.string "x"), Json.sorted_nest 255 trivial⟩
      (by rw [Json.height_nest]; decide) "a > 1"
  -- both stay folded from here on: all that matters is how many levels they have
  clear_value e note
  refine ⟨perform_parseRule_eq_ok.2 ⟨e, hcheck, hparse, rfl⟩, hparse, hdepth, ?_,
    ⟨_, hrecord, hmeans⟩, ?_, hread, ?_, ?_⟩
  · simp only [perform, exprOf_ofJson_toJson, hdepth, Nat.lt_irrefl, if_false]
    rfl
  · simp only [perform, evaluateAst_ofJson_toJson e hrecord, hdepth, Nat.lt_irrefl, if_false]
    rfl
  · simp only [perform, exprOf, hnote]
    rfl
  · simp only [perform, evaluateAst, hrecord, hnote]
    rfl

end Session

end BusinessRules
