import BusinessRules.Proofs.Catalogue
import Mathlib.Data.Set.Card

/-!
# Stored rules and their history

What is stored can be told from the operations that were carried out, without looking at the rules:
the `k`-th insertion gives its rule the id `k`, and the rule is there until that id is deleted.

* `Catalogue.Operation`, `Catalogue.Outcome`, `Catalogue.run` — operations on stored rules as data,
  and many of them one after the other;
* `Catalogue.Live` — a rule that a history has inserted and not deleted since;
* `Catalogue.Records` — stored rules that are those of a history.

Principal results: `Catalogue.Records.perform` (one operation), `Catalogue.records_run` (a run) and
`Catalogue.run_agrees_with_history` (what every operation answers then).
-/

namespace BusinessRules

namespace Catalogue

/-! ## Operations as data -/

/-- An operation on stored rules. -/
inductive Operation where
  | insert (name text : String) (e : Expr)
  | get (id : Nat)
  | getMany (ids : List Nat)
  | list
  | delete (id : Nat)

inductive Outcome where
  | inserted (id : Nat)
  | found (r : Option StoredRule)
  | several (rules : Except Error (List StoredRule))
  | all (rules : List StoredRule)
  | removed (r : Except Error StoredRule)

/-- The id that an insertion results in. -/
def Outcome.insertedId? : Outcome → Option Nat
  | .inserted id => some id
  | _ => none

def perform (c : Catalogue) : Operation → Outcome × Catalogue
  | .insert name text e => (c.insert name text e).map .inserted id
  | .get ruleId => (.found (c.get? ruleId), c)
  | .getMany ids => (.several (c.getMany ids), c)
  | .list => (.all c.rules, c)
  | .delete ruleId => (c.erase ruleId).map .removed id

def run (c : Catalogue) : List Operation → List Outcome × Catalogue
  | [] => ([], c)
  | operation :: rest =>
    let (outcome, next) := c.perform operation
    let (outcomes, last) := next.run rest
    (outcome :: outcomes, last)

/-! ## Histories -/

/-- An operation that inserts a rule. -/
def Operation.isInsertion : Operation → Bool
  | .insert .. => true
  | _ => false

/-- How many rules a history has inserted. -/
def insertions (past : List Operation) : Nat := past.countP Operation.isInsertion

/-- A rule that a history has inserted, with the number of its insertion for an id, and has not
deleted since. -/
def Live (past : List Operation) (r : StoredRule) : Prop :=
  ∃ before name text e after, past = before ++ .insert name text e :: after ∧
    r = ⟨insertions before + 1, name, text, e.toJson⟩ ∧ .delete r.id ∉ after

theorem live_append_singleton {past : List Operation} {operation : Operation} {r : StoredRule} :
    Live (past ++ [operation]) r ↔
      (Live past r ∧ operation ≠ .delete r.id) ∨
        ∃ name text e, operation = .insert name text e ∧
          r = ⟨insertions past + 1, name, text, e.toJson⟩ := by
  constructor
  · rintro ⟨before, name, text, e, after, hpast, hr, hkept⟩
    -- the insertion is the last operation of all, or it belongs to the past
    rcases List.eq_nil_or_concat after with rfl | ⟨between, last, rfl⟩
    · obtain ⟨rfl, hlast⟩ := List.append_inj' hpast rfl
      exact .inr ⟨name, text, e, List.head_eq_of_cons_eq hlast, hr⟩
    · rw [List.concat_eq_append, ← List.cons_append, ← List.append_assoc] at hpast
      obtain ⟨rfl, hlast⟩ := List.append_inj' hpast rfl
      cases hlast
      rw [List.concat_eq_append, List.mem_append, not_or, List.mem_singleton] at hkept
      exact .inl ⟨⟨before, name, text, e, between, rfl, hr, hkept.1⟩, fun h => hkept.2 h.symm⟩
  · rintro (⟨⟨before, name, text, e, after, rfl, hr, hkept⟩, hother⟩ | ⟨name, text, e, rfl, rfl⟩)
    · refine ⟨before, name, text, e, after ++ [operation], by simp, hr, ?_⟩
      simp [hkept, hother.symm]
    · exact ⟨past, name, text, e, [], rfl, rfl, List.not_mem_nil⟩

/-! ## One operation -/

/-- The stored rules of a history. The next id is behind those of all insertions, whether their
rules are still there or not. -/
structure Records (past : List Operation) (c : Catalogue) : Prop where
  ordered : c.Ordered
  nextId : c.nextId = insertions past + 1
  live : ∀ r, r ∈ c.rules ↔ Live past r

theorem Ordered.perform {c : Catalogue} (h : c.Ordered) (operation : Operation) :
    (c.perform operation).2.Ordered := by
  cases operation with
  | insert name text e => exact h.insert name text e
  | delete ruleId => exact h.erase ruleId
  | get | getMany | list => exact h

theorem nextId_perform (c : Catalogue) (operation : Operation) :
    (c.perform operation).2.nextId = c.nextId + insertions [operation] := by
  cases operation with
  | insert name text e => rfl
  | delete ruleId =>
    show (c.erase ruleId).2.nextId = c.nextId
    unfold erase
    split <;> rfl
  | get | getMany | list => rfl

/-- An operation takes away the rule that it deletes and adds the one that it inserts. -/
theorem mem_rules_perform {c : Catalogue} {operation : Operation} {r : StoredRule} :
    r ∈ (c.perform operation).2.rules ↔
      (r ∈ c.rules ∧ operation ≠ .delete r.id) ∨
        ∃ name text e, operation = .insert name text e ∧
          r = ⟨c.nextId, name, text, e.toJson⟩ := by
  cases operation with
  | insert name text e =>
    show r ∈ (c.insert name text e).2.rules ↔ _
    rw [mem_rules_insert]
    simp
  | delete ruleId =>
    show r ∈ (c.erase ruleId).2.rules ↔ _
    rw [mem_rules_erase]
    simp [eq_comm]
  | get | getMany | list => simp [perform]

/-- **One more operation keeps the stored rules those of the history.** -/
theorem Records.perform {past : List Operation} {c : Catalogue} (h : Records past c)
    (operation : Operation) : Records (past ++ [operation]) (c.perform operation).2 := by
  refine ⟨h.ordered.perform operation, ?_, fun r => ?_⟩
  · have hcount : insertions (past ++ [operation]) = insertions past + insertions [operation] :=
      List.countP_append
    rw [nextId_perform, h.nextId, hcount]
    omega
  · rw [mem_rules_perform, live_append_singleton, h.live, h.nextId]

/-! ## Runs -/

theorem Records.run {past : List Operation} {c : Catalogue} (h : Records past c)
    (operations : List Operation) : Records (past ++ operations) (c.run operations).2 := by
  induction operations generalizing past c with
  | nil => rwa [List.append_nil]
  | cons operation rest ih =>
    rw [List.append_cons]
    exact ih (h.perform operation)

/-- **After a run the stored rules are those of its operations.** -/
theorem records_run (operations : List Operation) :
    Records operations (empty.run operations).2 := by
  have hempty : Records [] empty := by
    refine ⟨ordered_empty, rfl, fun r => ⟨fun hr => (nomatch hr), ?_⟩⟩
    rintro ⟨before, name, text, e, after, hpast, -⟩
    cases before <;> cases hpast
  exact hempty.run operations

/-- The insertions of a run result in the ids from the next one on, in their order. -/
theorem insertedIds_run (c : Catalogue) (operations : List Operation) :
    (c.run operations).1.filterMap Outcome.insertedId? =
      List.range' c.nextId (insertions operations) := by
  induction operations generalizing c with
  | nil => rfl
  | cons operation rest ih =>
    have hcount : insertions (operation :: rest) = insertions rest + insertions [operation] := by
      simp [insertions, List.countP_cons]
    have hrun : (c.run (operation :: rest)).1 =
        (c.perform operation).1 :: ((c.perform operation).2.run rest).1 := rfl
    rw [hrun, List.filterMap_cons, ih, nextId_perform, hcount]
    cases operation with
    | insert name text e => rfl
    | get | getMany | list | delete => rfl

/-! ## Answers -/

theorem getMany_eq_ok {c : Catalogue} {ids : List Nat} {rules : List StoredRule} :
    c.getMany ids = .ok rules ↔ List.Forall₂ (fun id r => c.get id = .ok r) ids rules := by
  induction ids generalizing rules with
  | nil => simp [getMany, eq_comm]
  | cons id rest ih =>
    rw [getMany_cons_eq_ok, List.forall₂_cons_left_iff]
    simp only [ih]

/-- The first missing rule decides. -/
theorem getMany_eq_error {c : Catalogue} {ids : List Nat} {e : Error} :
    c.getMany ids = .error e ↔ FirstError c.get ids e := by
  induction ids with
  | nil => simp [getMany]
  | cons id rest ih =>
    rw [firstError_cons, ← ih, getMany]
    cases c.get id with
    | error found => simp
    | ok r => cases c.getMany rest <;> simp

/-- There are as many stored rules as the history has live ones. -/
theorem Records.size_eq {past : List Operation} {c : Catalogue} (h : Records past c) :
    c.size = {r | Live past r}.ncard := by
  classical
  have hset : {r | Live past r} = (c.rules.toFinset : Set StoredRule) := by
    ext r
    simp [h.live]
  rw [hset, Set.ncard_coe_finset, List.toFinset_card_of_nodup h.ordered.nodup]
  rfl

/-- **Stored rules agree with their history.** After any operations, the `k`-th insertion results in
the id `k`, whatever was deleted before it. An id leads to the rule that was inserted under it, with
its name, its text and the stored form of its expression, until the id is deleted, and to none
otherwise. All rules are listed in the order of their ids; several are found in the order asked for,
repetitions included, or the first missing one is reported. Deleting gives the rule back, and a
deletion that fails changes nothing. -/
theorem run_agrees_with_history (past : List Operation) :
    let c := (empty.run past).2
    (empty.run past).1.filterMap Outcome.insertedId? = List.range' 1 (insertions past) ∧
      (∀ name text e, (c.insert name text e).1 = insertions past + 1) ∧
      (∀ r, Live past r → r.id ≤ insertions past) ∧
      (∀ id r, c.get? id = some r ↔ Live past r ∧ r.id = id) ∧
      (∀ r, r ∈ c.rules ↔ Live past r) ∧
      c.rules.Pairwise (fun r s => r.id < s.id) ∧
      c.size = {r | Live past r}.ncard ∧
      (∀ ids rules, c.getMany ids = .ok rules ↔
        List.Forall₂ (fun id r => Live past r ∧ r.id = id) ids rules) ∧
      (∀ ids err, c.getMany ids = .error err ↔
        ∃ front id back, ids = front ++ id :: back ∧
          (∀ other ∈ front, ∃ r, Live past r ∧ r.id = other) ∧
          (∀ r, Live past r → r.id ≠ id) ∧ err = .ruleNotFound id) ∧
      (∀ r, Live past r → (c.erase r.id).1 = .ok r) ∧
      ∀ id, (∀ r, Live past r → r.id ≠ id) → c.erase id = (.error (.ruleNotFound id), c) := by
  intro c
  have hc : Records past c := records_run past
  have hget : ∀ id r, c.get id = .ok r ↔ Live past r ∧ r.id = id := fun id r => by
    rw [hc.ordered.get_eq_ok_iff, hc.live]
  have hmissing : ∀ id err, c.get id = .error err ↔
      (∀ r, Live past r → r.id ≠ id) ∧ err = .ruleNotFound id := fun id err => by
    simp only [get_eq_error, hc.live]
  refine ⟨insertedIds_run empty past, fun _ _ _ => hc.nextId, fun r hr => ?_, fun id r => ?_,
    hc.live, hc.ordered.increasing, hc.size_eq, fun ids rules => ?_, fun ids err => ?_,
    fun r hr => ?_, fun id hnone => ?_⟩
  · have hfresh := hc.ordered.fresh r ((hc.live r).2 hr)
    rw [hc.nextId] at hfresh
    omega
  · rw [← get_eq_ok_iff_get?, hget]
  · simp only [getMany_eq_ok, hget]
  · simp only [getMany_eq_error, FirstError, hget, hmissing]
  · rw [erase, (hget r.id r).2 ⟨hr, rfl⟩]
  · rw [erase, (hmissing id _).2 ⟨hnone, rfl⟩]

-- the id of a deleted rule is not used again
example :
    (empty.run [.insert "old" "a > 1" (.leaf "a > 1"), .delete 1,
      .insert "new" "a > 2" (.leaf "a > 2")]).1.filterMap Outcome.insertedId? = [1, 2] := by
  rfl

end Catalogue

end BusinessRules
