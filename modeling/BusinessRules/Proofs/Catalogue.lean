import BusinessRules.Store.Catalogue

/-!
# The order of stored rules

* `Catalogue.Ordered` — ids grow along the list, and the next id is beyond all of them.

Principal results: `Catalogue.Ordered.insert`, `Catalogue.Ordered.erase` (every change keeps the
order) and `Catalogue.Ordered.get_eq_ok_iff` (ids determine rules).
-/

namespace BusinessRules

namespace Catalogue

/-- Ids grow along the list, and the next id is beyond all of them. -/
structure Ordered (c : Catalogue) : Prop where
  increasing : c.rules.Pairwise (fun r s => r.id < s.id)
  fresh : ∀ r ∈ c.rules, r.id < c.nextId

/-! ## Ids -/

theorem get_eq_ok_iff_get? {c : Catalogue} {id : Nat} {r : StoredRule} :
    c.get id = .ok r ↔ c.get? id = some r := by
  rw [get]
  cases c.get? id <;> simp

theorem exists_get_of_mem {c : Catalogue} {r : StoredRule} (h : r ∈ c.rules) :
    ∃ s, c.get r.id = .ok s := by
  have hsome : (c.rules.find? (fun s => s.id = r.id)).isSome :=
    List.find?_isSome.2 ⟨r, h, by simp⟩
  obtain ⟨s, hfind⟩ := Option.isSome_iff_exists.1 hsome
  exact ⟨s, by rw [get, get?, hfind]⟩

theorem get_eq_ok {c : Catalogue} {id : Nat} {r : StoredRule} (h : c.get id = .ok r) :
    r ∈ c.rules ∧ r.id = id := by
  unfold get get? at h
  cases hfind : c.rules.find? (fun r => r.id = id) with
  | none =>
    rw [hfind] at h
    cases h
  | some s =>
    rw [hfind] at h
    cases h
    exact ⟨List.mem_of_find?_eq_some hfind, by simpa using List.find?_some hfind⟩

theorem get_eq_error {c : Catalogue} {id : Nat} {e : Error} :
    c.get id = .error e ↔ (∀ r ∈ c.rules, r.id ≠ id) ∧ e = .ruleNotFound id := by
  have hnone : c.get? id = none ↔ ∀ r ∈ c.rules, r.id ≠ id := by simp [get?]
  rw [← hnone, get]
  cases c.get? id <;> simp [eq_comm]

theorem Ordered.eq_of_id_eq {c : Catalogue} (h : c.Ordered) {r s : StoredRule} (hr : r ∈ c.rules)
    (hs : s ∈ c.rules) (hid : r.id = s.id) : r = s := by
  have hforward : c.rules.Pairwise (fun r s => r.id = s.id → r = s) :=
    h.increasing.imp fun hlt heq => by omega
  have hback : c.rules.Pairwise (fun r s => s.id = r.id → s = r) :=
    h.increasing.imp fun hlt heq => by omega
  exact List.Pairwise.forall_of_forall_of_flip (fun _ _ _ => rfl) hforward hback hr hs hid

/-- **An id determines its rule.** -/
theorem Ordered.get_eq_ok_iff {c : Catalogue} (h : c.Ordered) {id : Nat} {r : StoredRule} :
    c.get id = .ok r ↔ r ∈ c.rules ∧ r.id = id := by
  refine ⟨get_eq_ok, ?_⟩
  rintro ⟨hr, rfl⟩
  obtain ⟨s, hget⟩ := exists_get_of_mem hr
  obtain ⟨hs, hid⟩ := get_eq_ok hget
  rw [hget, h.eq_of_id_eq hs hr hid]

theorem getMany_cons_eq_ok {c : Catalogue} {id : Nat} {rest : List Nat} {rules : List StoredRule} :
    c.getMany (id :: rest) = .ok rules ↔
      ∃ r others, c.get id = .ok r ∧ c.getMany rest = .ok others ∧ rules = r :: others := by
  rw [getMany]
  cases c.get id with
  | error e => simp
  | ok r => cases c.getMany rest <;> simp [eq_comm]

/-! ## Changes -/

theorem ordered_empty : empty.Ordered := ⟨.nil, fun _ hr => nomatch hr⟩

theorem mem_rules_insert {c : Catalogue} {name text : String} {e : Expr} {r : StoredRule} :
    r ∈ (c.insert name text e).2.rules ↔ r ∈ c.rules ∨ r = ⟨c.nextId, name, text, e.toJson⟩ := by
  simp [insert]

/-- Erasing takes the rule of the id away and nothing else. -/
theorem mem_rules_erase {c : Catalogue} {id : Nat} {r : StoredRule} :
    r ∈ (c.erase id).2.rules ↔ r ∈ c.rules ∧ r.id ≠ id := by
  unfold erase
  cases hget : c.get id with
  | error e =>
    refine ⟨fun hr => ⟨hr, ?_⟩, And.left⟩
    rintro rfl
    obtain ⟨s, hs⟩ := exists_get_of_mem hr
    rw [hs] at hget
    cases hget
  | ok s => simp

theorem Ordered.nodup {c : Catalogue} (h : c.Ordered) : c.rules.Nodup :=
  h.increasing.imp fun hlt heq => by simp [heq] at hlt

theorem Ordered.insert {c : Catalogue} (h : c.Ordered) (name text : String) (e : Expr) :
    (c.insert name text e).2.Ordered := by
  refine ⟨?_, ?_⟩
  · refine List.pairwise_append.2 ⟨h.increasing, List.pairwise_singleton .., ?_⟩
    intro r hr s hs
    rw [List.mem_singleton.1 hs]
    exact h.fresh r hr
  · intro r hr
    show r.id < c.nextId + 1
    rcases mem_rules_insert.1 hr with hr | rfl
    · have := h.fresh r hr
      omega
    · exact Nat.lt_succ_self _

theorem Ordered.erase {c : Catalogue} (h : c.Ordered) (id : Nat) : (c.erase id).2.Ordered := by
  unfold Catalogue.erase
  split
  · exact h
  · exact ⟨h.increasing.filter _, fun r hr => h.fresh r (List.mem_filter.1 hr).1⟩

end Catalogue

end BusinessRules
