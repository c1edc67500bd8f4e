import BusinessRules.Cache

/-!
# The parse cache from call to call

Nobody can tell from a result whether it was remembered: a cache holds what its texts parse to and
nothing else. It never outgrows its capacity, since it forgets everything before it would.

* `ParseCache.Faithful` — every remembered expression is the one its text parses to;
* `ParseCache.Call`, `ParseCache.perform`, `ParseCache.run` — the calls of a cache as data, one and
  many;
* `ParseCache.Sound` — what holds of a cache between calls.

Principal results: `ParseCache.parse_of_faithful` (one call), `ParseCache.parse_cases` (everything
parsing can do to a cache), `ParseCache.Sound.run` and `ParseCache.run_answers_and_bound`.
-/

namespace BusinessRules

namespace ParseCache

/-! ## What is remembered -/

/-- Every remembered expression is the one that its text parses to. -/
def Faithful (c : ParseCache) : Prop := ∀ entry ∈ c.entries, Expr.parse entry.1 = .ok entry.2

theorem faithful_empty (capacity : Nat) : (empty capacity).Faithful := by
  intro entry hentry
  cases hentry

theorem mem_of_lookup? {c : ParseCache} {text : String} {e : Expr}
    (h : c.lookup? text = some e) : (text, e) ∈ c.entries := by
  unfold lookup? at h
  obtain ⟨entry, hfind, rfl⟩ := Option.map_eq_some_iff.1 h
  have htext : entry.1 = text := by simpa using List.find?_some hfind
  rw [← htext]
  exact List.mem_of_find?_eq_some hfind

theorem parse_of_lookup? {c : ParseCache} (h : c.Faithful) {text : String} {e : Expr}
    (hlookup : c.lookup? text = some e) : Expr.parse text = .ok e :=
  h (text, e) (mem_of_lookup? hlookup)

theorem mem_entries_of_remember {c : ParseCache} {text : String} {e : Expr} {entry : String × Expr}
    (h : entry ∈ (c.remember text e).entries) : entry = (text, e) ∨ entry ∈ c.entries := by
  unfold remember at h
  split at h
  · exact .inr h
  · split at h
    · exact .inl (List.mem_singleton.1 h)
    · exact List.mem_cons.1 h

theorem Faithful.remember {c : ParseCache} (h : c.Faithful) {text : String} {e : Expr}
    (hparse : Expr.parse text = .ok e) : (c.remember text e).Faithful := by
  intro entry hentry
  rcases mem_entries_of_remember hentry with rfl | hentry
  · exact hparse
  · exact h entry hentry

/-- What parsing does to a cache: nothing if the text is remembered or does not parse, and it is
remembered otherwise. -/
theorem parse_cases (c : ParseCache) (text : String) :
    (∃ e, c.lookup? text = some e ∧ c.parse text = (.ok e, c)) ∨
      (c.lookup? text = none ∧ ∃ err, Expr.parse text = .error err ∧
        c.parse text = (.error err, c)) ∨
      (c.lookup? text = none ∧ ∃ e, Expr.parse text = .ok e ∧
        c.parse text = (.ok e, c.remember text e)) := by
  unfold parse
  cases hlookup : c.lookup? text with
  | some e => exact .inl ⟨e, rfl, rfl⟩
  | none =>
    cases hparse : Expr.parse text with
    | error err => exact .inr (.inl ⟨rfl, err, rfl, rfl⟩)
    | ok e => exact .inr (.inr ⟨rfl, e, rfl, rfl⟩)

/-- **Parsing through a faithful cache is parsing**, and the cache stays faithful. -/
theorem parse_of_faithful {c : ParseCache} (h : c.Faithful) (text : String) :
    (c.parse text).1 = Expr.parse text ∧ (c.parse text).2.Faithful := by
  obtain ⟨e, hlookup, hparse⟩ | ⟨-, err, herr, hparse⟩ | ⟨-, e, hok, hparse⟩ := c.parse_cases text
  · rw [hparse]
    exact ⟨(parse_of_lookup? h hlookup).symm, h⟩
  · rw [hparse]
    exact ⟨herr.symm, h⟩
  · rw [hparse]
    exact ⟨hok.symm, h.remember hok⟩

/-! ## What a call changes -/

theorem lookup?_eq_none_iff {c : ParseCache} {text : String} :
    c.lookup? text = none ↔ ∀ entry ∈ c.entries, entry.1 ≠ text := by
  simp [lookup?]

/-- A hit leaves a cache as it is. -/
theorem parse_of_mem {c : ParseCache} {text : String} {e : Expr} (h : (text, e) ∈ c.entries) :
    (c.parse text).2 = c := by
  obtain ⟨found, -, hparse⟩ | ⟨hnone, -⟩ | ⟨hnone, -⟩ := c.parse_cases text
  · rw [hparse]
  · exact absurd rfl (lookup?_eq_none_iff.1 hnone _ h)
  · exact absurd rfl (lookup?_eq_none_iff.1 hnone _ h)

/-- A failure leaves a cache as it is. -/
theorem parse_of_error {c : ParseCache} {text : String} {err : ParseError}
    (h : Expr.parse text = .error err) : (c.parse text).2 = c := by
  obtain ⟨found, -, hparse⟩ | ⟨-, found, -, hparse⟩ | ⟨-, e, hok, -⟩ := c.parse_cases text
  · rw [hparse]
  · rw [hparse]
  · rw [h] at hok
    cases hok

theorem mem_remember {c : ParseCache} (hcapacity : 0 < c.capacity) (text : String) (e : Expr) :
    (text, e) ∈ (c.remember text e).entries := by
  unfold remember
  rw [if_neg (by omega)]
  split
  · exact List.mem_singleton.2 rfl
  · exact List.mem_cons_self ..

@[simp] theorem capacity_remember (c : ParseCache) (text : String) (e : Expr) :
    (c.remember text e).capacity = c.capacity := by
  unfold remember
  split
  · rfl
  · split <;> rfl

@[simp] theorem capacity_parse (c : ParseCache) (text : String) :
    (c.parse text).2.capacity = c.capacity := by
  obtain ⟨e, -, hparse⟩ | ⟨-, err, -, hparse⟩ | ⟨-, e, -, hparse⟩ := c.parse_cases text
  · rw [hparse]
  · rw [hparse]
  · rw [hparse, capacity_remember]

/-! ## Calls -/

inductive Call where
  | parse (text : String)
  | clear

/-- Carries out a call. Clearing has no result. -/
def perform (c : ParseCache) : Call → Option (Except ParseError Expr) × ParseCache
  | .parse text => (c.parse text).map some id
  | .clear => (none, c.clear)

def run (c : ParseCache) : List Call → List (Option (Except ParseError Expr)) × ParseCache
  | [] => ([], c)
  | call :: rest =>
    ((c.perform call).1 :: ((c.perform call).2.run rest).1, ((c.perform call).2.run rest).2)

/-- What a call results in where nothing is ever remembered. -/
def Call.plainResult : Call → Option (Except ParseError Expr)
  | .parse text => some (Expr.parse text)
  | .clear => none

/-- What holds of a cache between calls: it keeps to its capacity, remembers no text twice, and
remembers each with the expression that the text parses to. -/
structure Sound (c : ParseCache) : Prop where
  size_le : c.size ≤ c.capacity
  distinct : (c.entries.map (·.1)).Nodup
  faithful : c.Faithful

theorem sound_empty (capacity : Nat) : (empty capacity).Sound :=
  ⟨Nat.zero_le _, List.nodup_nil, faithful_empty capacity⟩

theorem Sound.clear {c : ParseCache} : c.clear.Sound :=
  ⟨Nat.zero_le _, List.nodup_nil, fun _ hentry => nomatch hentry⟩

theorem Sound.remember {c : ParseCache} (h : c.Sound) {text : String} {e : Expr}
    (hnew : c.lookup? text = none) (hparse : Expr.parse text = .ok e) :
    (c.remember text e).Sound := by
  refine ⟨?_, ?_, h.faithful.remember hparse⟩
  · unfold ParseCache.remember
    split
    · exact h.size_le
    · rename_i hsome
      split
      · show 1 ≤ c.capacity
        omega
      · rename_i hroom
        show c.size + 1 ≤ c.capacity
        omega
  · unfold ParseCache.remember
    split
    · exact h.distinct
    · split
      · exact List.pairwise_singleton ..
      · refine List.nodup_cons.2 ⟨fun hmem => ?_, h.distinct⟩
        obtain ⟨entry, hentry, htext⟩ := List.mem_map.1 hmem
        exact lookup?_eq_none_iff.1 hnew entry hentry htext

/-- **A call leaves a sound cache sound**, of the same capacity, and results in what it would result
in without the cache. -/
theorem Sound.perform {c : ParseCache} (h : c.Sound) (call : Call) :
    (c.perform call).2.Sound ∧ (c.perform call).2.capacity = c.capacity ∧
      (c.perform call).1 = call.plainResult := by
  cases call with
  | clear => exact ⟨.clear, rfl, rfl⟩
  | parse text =>
    refine ⟨?_, capacity_parse c text, congrArg some (parse_of_faithful h.faithful text).1⟩
    show (c.parse text).2.Sound
    obtain ⟨e, -, hparse⟩ | ⟨-, err, -, hparse⟩ | ⟨hnew, e, hok, hparse⟩ := c.parse_cases text
    · rwa [hparse]
    · rwa [hparse]
    · rw [hparse]
      exact h.remember hnew hok

/-- **A run leaves a sound cache sound**, and results in what it would result in without it. -/
theorem Sound.run {c : ParseCache} (h : c.Sound) (calls : List Call) :
    (c.run calls).2.Sound ∧ (c.run calls).2.capacity = c.capacity ∧
      (c.run calls).1 = calls.map Call.plainResult := by
  induction calls generalizing c with
  | nil => exact ⟨h, rfl, rfl⟩
  | cons call rest ih =>
    obtain ⟨hsound, hcapacity, hresult⟩ := h.perform call
    obtain ⟨hlast, hkept, hresults⟩ := ih hsound
    refine ⟨hlast, hkept.trans hcapacity, ?_⟩
    rw [ParseCache.run, List.map_cons, hresult, hresults]

/-- **A cache is correct and bounded.** After any calls on a new cache, of whatever capacity, every
parsing call has resulted in what its text parses to. There are no more entries than the capacity
allows, no two for one text, and each has the expression of its text. Another parsing call leaves
the cache as it is if the text is remembered or does not parse; if the text parses and the capacity
is not zero, it is remembered afterwards, and all other entries were there before. -/
theorem run_answers_and_bound (capacity : Nat) (calls : List Call) :
    ((empty capacity).run calls).1 = calls.map Call.plainResult ∧
      let c := ((empty capacity).run calls).2
      c.size ≤ capacity ∧ (c.entries.map (·.1)).Nodup ∧
        (∀ entry ∈ c.entries, Expr.parse entry.1 = .ok entry.2) ∧
        ∀ text, (c.parse text).1 = Expr.parse text ∧
          (∀ e, (text, e) ∈ c.entries → (c.parse text).2 = c) ∧
          (∀ err, Expr.parse text = .error err → (c.parse text).2 = c) ∧
          ∀ e, Expr.parse text = .ok e → 0 < capacity →
            (text, e) ∈ (c.parse text).2.entries ∧
              ∀ entry ∈ (c.parse text).2.entries, entry = (text, e) ∨ entry ∈ c.entries := by
  obtain ⟨hsound, hcapacity, hresults⟩ := (sound_empty capacity).run calls
  refine ⟨hresults, ?_⟩
  intro c
  have hkept : c.capacity = capacity := hcapacity
  refine ⟨hkept ▸ hsound.size_le, hsound.distinct, hsound.faithful, fun text => ?_⟩
  refine ⟨(parse_of_faithful hsound.faithful text).1, fun e => parse_of_mem,
    fun err => parse_of_error, fun e hok hroom => ?_⟩
  obtain ⟨found, hlookup, hparse⟩ | ⟨-, err, herr, -⟩ | ⟨-, found, hfound, hparse⟩ :=
    c.parse_cases text
  · -- the text was remembered already, with the only expression it can be remembered with
    have hfound := parse_of_lookup? hsound.faithful hlookup
    rw [hok] at hfound
    cases hfound
    rw [hparse]
    exact ⟨mem_of_lookup? hlookup, fun entry hentry => .inr hentry⟩
  · rw [hok] at herr
    cases herr
  · rw [hok] at hfound
    cases hfound
    rw [hparse]
    exact ⟨mem_remember (by omega) text e, fun entry => mem_entries_of_remember⟩

theorem run_answers_and_bound_single :
    let calls : List Call := [.parse "a > 1", .parse "a >", .parse "b = x", .parse "b = x"]
    let c := ((empty 1).run calls).2
    c.entries = [("b = x", .leaf "b = x")] ∧ (c.parse "b = x").2 = c ∧
      (∃ err, Expr.parse "a >" = .error err) ∧ (c.parse "a >").2 = c ∧
      Expr.parse "a > 1" = .ok (.leaf "a > 1") ∧
      ("a > 1", .leaf "a > 1") ∈ (c.parse "a > 1").2.entries ∧
      (c.parse "a > 1").2.size ≤ 1 := by
  intro calls c
  have hentries : c.entries = [("b = x", .leaf "b = x")] := by decide +kernel
  have hone : Expr.parse "a > 1" = .ok (.leaf "a > 1") := by rfl
  have hbroken : ∃ err, Expr.parse "a >" = .error err := ⟨_, rfl⟩
  obtain ⟨-, -, -, -, hcalls⟩ := run_answers_and_bound 1 calls
  obtain ⟨-, hhit, -⟩ := hcalls "b = x"
  obtain ⟨-, -, hfailed, -⟩ := hcalls "a >"
  obtain ⟨-, -, -, hadded⟩ := hcalls "a > 1"
  obtain ⟨-, hbound, -⟩ := run_answers_and_bound 1 (calls ++ [.parse "a > 1"])
  refine ⟨hentries, hhit _ (hentries ▸ List.mem_cons_self ..), hbroken, ?_, hone,
    (hadded _ hone Nat.one_pos).1, hbound⟩
  obtain ⟨err, herr⟩ := hbroken
  exact hfailed err herr

end ParseCache

end BusinessRules
