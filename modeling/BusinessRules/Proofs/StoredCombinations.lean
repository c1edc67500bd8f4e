import BusinessRules.Proofs.History
import BusinessRules.Proofs.StoredRules

/-!
# When stored rules combine

Stored texts are checked and parsed again whenever they are combined, yet neither the check nor the
parser ever refuses one of them. What is left are a list without rules, an id without a rule, a
conjunction with too many levels and, where the combination is to be stored, a text that is too
long.

* `Catalogue.Holds` — an id with a rule;
* `Catalogue.Reads` — ids with the expressions of their rules.

Principal results: `Ledger.Sound.combineStored_eq_ok_iff` and
`Ledger.Sound.combineStored_eq_error_iff` (the outcomes of a combination, each with its cause),
`Ledger.combineRules_eq_error_iff` (what storing it adds) and
`Engine.previewCombined_and_combineRules_outcome`.
-/

namespace BusinessRules

open BusinessRules.Expr (conjunction)

namespace Catalogue

/-- There is a rule of this id. -/
def Holds (c : Catalogue) (id : Nat) : Prop := ∃ r ∈ c.rules, r.id = id

/-- Every id has a rule, whose stored form is read back as the expression in the same place. -/
def Reads (c : Catalogue) (ids : List Nat) (es : List Expr) : Prop :=
  List.Forall₂ (fun id e => ∃ r, c.get id = .ok r ∧ r.expr = .ok e) ids es

theorem holds_iff_get {c : Catalogue} {id : Nat} : c.Holds id ↔ ∃ r, c.get id = .ok r := by
  constructor
  · rintro ⟨r, hr, rfl⟩
    exact exists_get_of_mem hr
  · rintro ⟨r, hget⟩
    exact ⟨r, get_eq_ok hget⟩

/-- An id given several times reads as its expression every time. -/
theorem reads_replicate {c : Catalogue} {id : Nat} {e : Expr}
    (h : ∃ r, c.get id = .ok r ∧ r.expr = .ok e) (n : Nat) :
    c.Reads (List.replicate n id) (List.replicate n e) := by
  induction n with
  | zero => exact .nil
  | succ n ih => exact .cons h ih

/-- The only error on the way to several rules is that of the first id without one. -/
theorem firstError_get_iff {c : Catalogue} {ids : List Nat} {e : Error} :
    FirstError c.get ids e ↔
      ∃ front x back, ids = front ++ x :: back ∧ (∀ id ∈ front, c.Holds id) ∧ ¬ c.Holds x ∧
        e = .ruleNotFound x := by
  have hmissing : ∀ x, c.get x = .error e ↔ ¬ c.Holds x ∧ e = .ruleNotFound x := fun x => by
    rw [get_eq_error]
    simp [Holds]
  simp only [FirstError, hmissing, holds_iff_get]

end Catalogue

namespace Ledger

variable {ledger : Ledger} {ids : List Nat} {es : List Expr}

/-! ## What stored rules are read as -/

/-- A stored rule has an expression, and its text is accepted again and parses to it. -/
theorem Sound.exists_expr_of_get (h : ledger.Sound) {id : Nat} {r : StoredRule}
    (hget : ledger.catalogue.get id = .ok r) :
    ∃ e, r.expr = .ok e ∧ ledger.parse r.text = .ok e := by
  obtain ⟨e, htext, hparse, hast⟩ := h.parse_text (Catalogue.get_eq_ok hget).1
  refine ⟨e, ?_, htext⟩
  rw [StoredRule.expr, hast, Expr.ofJson_toJson, if_pos (Expr.depth_le_of_parse hparse)]

theorem Sound.exists_reads_iff (h : ledger.Sound) :
    (∃ es, ledger.catalogue.Reads ids es) ↔ ∀ id ∈ ids, ledger.catalogue.Holds id := by
  induction ids with
  | nil => exact ⟨fun _ _ hid => (nomatch hid), fun _ => ⟨[], .nil⟩⟩
  | cons id rest ih =>
    rw [List.forall_mem_cons, ← ih]
    constructor
    · rintro ⟨es, hreads⟩
      obtain ⟨e, others, ⟨r, hget, -⟩, hrest, rfl⟩ := List.forall₂_cons_left_iff.1 hreads
      exact ⟨Catalogue.holds_iff_get.2 ⟨r, hget⟩, others, hrest⟩
    · rintro ⟨hid, others, hrest⟩
      obtain ⟨r, hget⟩ := Catalogue.holds_iff_get.1 hid
      obtain ⟨e, hexpr, -⟩ := h.exists_expr_of_get hget
      exact ⟨e :: others, .cons ⟨r, hget, hexpr⟩ hrest⟩

/-- **The texts of stored rules parse to the stored expressions**, none of them being refused. -/
theorem Sound.parseAll_of_reads (h : ledger.Sound) (hreads : ledger.catalogue.Reads ids es) :
    ∃ rules, ledger.catalogue.getMany ids = .ok rules ∧
      ledger.parseAll (rules.map (·.text)) = .ok es := by
  induction hreads with
  | nil => exact ⟨[], rfl, rfl⟩
  | @cons id e rest others hfirst _ ih =>
    obtain ⟨r, hget, hexpr⟩ := hfirst
    obtain ⟨rules, hmany, hall⟩ := ih
    obtain ⟨found, hfound, htext⟩ := h.exists_expr_of_get hget
    rw [hexpr] at hfound
    cases hfound
    exact ⟨r :: rules, Catalogue.getMany_cons_eq_ok.2 ⟨r, rules, hget, hmany, rfl⟩,
      parseAll_cons_eq_ok.2 ⟨e, others, htext, hall, rfl⟩⟩

theorem Sound.depth_le_of_reads (h : ledger.Sound) (hreads : ledger.catalogue.Reads ids es) :
    ∀ e ∈ es, e.depth ≤ maxDepth := by
  obtain ⟨rules, -, hall⟩ := h.parseAll_of_reads hreads
  exact fun e he => (legal_of_parseAll hall e he).depth_le

/-! ## The outcomes of a combination -/

/-- Stored rules combine as their expressions do. -/
theorem Sound.combineStored_of_reads (h : ledger.Sound) (hreads : ledger.catalogue.Reads ids es) :
    ledger.combineStored ids = (Expr.combine es).mapError .ofCombine := by
  obtain ⟨rules, hmany, hall⟩ := h.parseAll_of_reads hreads
  rw [combineStored, hmany]
  dsimp only
  rw [combine, hall]

theorem combineStored_of_firstError {e : Error} (h : FirstError ledger.catalogue.get ids e) :
    ledger.combineStored ids = .error e := by
  rw [combineStored, Catalogue.getMany_eq_error.2 h]

/-- Stored rules with expressions combine to their conjunction, or have too many levels. -/
theorem Sound.combineStored_of_reads_cons (h : ledger.Sound) {first : Expr} {rest : List Expr}
    (hreads : ledger.catalogue.Reads ids (first :: rest)) :
    ledger.combineStored ids =
      if (conjunction first rest).depth ≤ maxDepth then .ok (conjunction first rest)
      else .error (.parse .tooDeep) := by
  have hfirst := h.depth_le_of_reads hreads first (List.mem_cons_self ..)
  rw [h.combineStored_of_reads hreads, Expr.combine_cons hfirst]
  split <;> rfl

/-- **All outcomes of a combination**: no rules, an id without a rule, or the expressions of all. -/
theorem Sound.combineStored_cases (h : ledger.Sound) (ids : List Nat) :
    (ids = [] ∧ ledger.combineStored ids = .error .noRules) ∨
      (∃ e, FirstError ledger.catalogue.get ids e ∧ ledger.combineStored ids = .error e) ∨
      ∃ first rest, ledger.catalogue.Reads ids (first :: rest) ∧
        ledger.combineStored ids =
          if (conjunction first rest).depth ≤ maxDepth then .ok (conjunction first rest)
          else .error (.parse .tooDeep) := by
  rcases forall_or_firstError ledger.catalogue.get ids with hall | ⟨e, hfirst⟩
  · have hholds : ∀ id ∈ ids, ledger.catalogue.Holds id := fun id hid =>
      Catalogue.holds_iff_get.2 (hall id hid)
    obtain ⟨es, hreads⟩ := h.exists_reads_iff.2 hholds
    cases es with
    | nil =>
      cases hreads
      exact .inl ⟨rfl, rfl⟩
    | cons first rest =>
      exact .inr (.inr ⟨first, rest, hreads, h.combineStored_of_reads_cons hreads⟩)
  · exact .inr (.inl ⟨e, hfirst, combineStored_of_firstError hfirst⟩)

theorem Sound.combineStored_eq_ok_iff (h : ledger.Sound) {e : Expr} :
    ledger.combineStored ids = .ok e ↔
      ∃ first rest, ledger.catalogue.Reads ids (first :: rest) ∧
        (conjunction first rest).depth ≤ maxDepth ∧ e = conjunction first rest := by
  constructor
  · intro hok
    obtain ⟨-, houtcome⟩ | ⟨_, -, houtcome⟩ | ⟨first, rest, hreads, houtcome⟩ :=
      h.combineStored_cases ids
    · rw [houtcome] at hok
      cases hok
    · rw [houtcome] at hok
      cases hok
    · rw [houtcome] at hok
      split at hok
      · rename_i hdepth
        cases hok
        exact ⟨first, rest, hreads, hdepth, rfl⟩
      · cases hok
  · rintro ⟨first, rest, hreads, hdepth, rfl⟩
    rw [h.combineStored_of_reads_cons hreads, if_pos hdepth]

theorem Sound.combineStored_eq_error_iff (h : ledger.Sound) {e : Error} :
    ledger.combineStored ids = .error e ↔
      (ids = [] ∧ e = .noRules) ∨ FirstError ledger.catalogue.get ids e ∨
        (∃ first rest, ledger.catalogue.Reads ids (first :: rest) ∧
          maxDepth < (conjunction first rest).depth) ∧ e = .parse .tooDeep := by
  constructor
  · intro herror
    obtain ⟨hnone, houtcome⟩ | ⟨found, hfirst, houtcome⟩ | ⟨first, rest, hreads, houtcome⟩ :=
      h.combineStored_cases ids
    · rw [houtcome] at herror
      cases herror
      exact .inl ⟨hnone, rfl⟩
    · rw [houtcome] at herror
      cases herror
      exact .inr (.inl hfirst)
    · rw [houtcome] at herror
      split at herror
      · cases herror
      · rename_i hdepth
        cases herror
        exact .inr (.inr ⟨⟨first, rest, hreads, Nat.lt_of_not_le hdepth⟩, rfl⟩)
  · rintro (⟨rfl, rfl⟩ | hfirst | ⟨⟨first, rest, hreads, hdepth⟩, rfl⟩)
    · rfl
    · exact combineStored_of_firstError hfirst
    · rw [h.combineStored_of_reads_cons hreads, if_neg (Nat.not_le_of_lt hdepth)]

/-! ## Storing a combination -/

theorem checkLength_eq_error {text : String} {e : ParseError} :
    ledger.checkLength text = .error e ↔
      ledger.limit < text.length ∧ e = .tooLong ledger.limit text.length := by
  unfold checkLength
  split
  · rename_i hlong
    simp [hlong, eq_comm]
  · rename_i hfits
    simp [hfits]

/-- Storing a combination adds one way to fail, a text beyond the length limit. -/
theorem combineRules_eq_error_iff {name : String} {e : Error} :
    (ledger.combineRules ids name).1 = .error e ↔
      ledger.combineStored ids = .error e ∨
        ∃ joined, ledger.combineStored ids = .ok joined ∧ ledger.limit < joined.render.length ∧
          e = .parse (.tooLong ledger.limit joined.render.length) := by
  unfold combineRules
  cases ledger.combineStored ids with
  | error found => simp
  | ok joined =>
    dsimp only
    cases hcheck : ledger.checkLength joined.render with
    | error found =>
      obtain ⟨hlong, rfl⟩ := checkLength_eq_error.1 hcheck
      simp [hlong, eq_comm]
    | ok _ =>
      have hfits := checkLength_eq_ok.1 hcheck
      simp [Nat.not_lt_of_le hfits]

end Ledger

/-! ## Engines -/

/-- **Combining stored rules fails exactly when it must.** After any run of own operations, whatever
their outcomes, the preview of a combination reports that there are no rules if no ids are given; an
id without a rule if it is the first such id; too many levels if all ids have rules, there is at
least one, and the conjunction of their expressions is deeper than the limit; and it is the
rendering of that conjunction otherwise. Storing the combination fails as its preview does, and
besides only where the rendering has more characters than the length limit, which it then reports
with both numbers. -/
theorem Engine.previewCombined_and_combineRules_outcome (settings : Settings)
    {commands : List Command} (hown : ∀ command ∈ commands, command.IsOwn) (ids : List Nat)
    (name : String) :
    let engine := ((Engine.new settings).run commands).2
    let preview := (engine.previewCombined ids).1
    let combined := (engine.combineRules ids name).1
    let most := settings.maxRuleLength.toNat
    (preview = .error .noRules ↔ ids = []) ∧
      (∀ x, preview = .error (.ruleNotFound x) ↔
        ∃ front back, ids = front ++ x :: back ∧ (∀ id ∈ front, engine.catalogue.Holds id) ∧
          ¬ engine.catalogue.Holds x) ∧
      ((∃ es, engine.catalogue.Reads ids es) ↔ ∀ id ∈ ids, engine.catalogue.Holds id) ∧
      (preview = .error (.parse .tooDeep) ↔
        ∃ first rest, engine.catalogue.Reads ids (first :: rest) ∧
          maxDepth < (conjunction first rest).depth) ∧
      (∀ text, preview = .ok text ↔
        ∃ first rest, engine.catalogue.Reads ids (first :: rest) ∧
          (conjunction first rest).depth ≤ maxDepth ∧ text = (conjunction first rest).render) ∧
      (∀ e, preview = .error e →
        e = .noRules ∨ (∃ x, e = .ruleNotFound x) ∨ e = .parse .tooDeep) ∧
      ∀ e, combined = .error e ↔
        preview = .error e ∨
          ∃ text, preview = .ok text ∧ most < text.length ∧
            e = .parse (.tooLong most text.length) := by
  intro engine preview combined most
  have hrun : Agrees ((Engine.new settings).run commands) _ := agrees_run_new settings commands
  obtain ⟨hsound, hlimit⟩ := (Ledger.sound_empty most).run hown
  have hledger : engine.ledger = (Ledger.run ⟨most, .empty⟩ commands).2 := hrun.ledger
  rw [← hledger] at hsound hlimit
  have hpreview : preview = (engine.ledger.combineStored ids).map Expr.render :=
    (agrees_previewCombined hrun.faithful ids).answer
  have hcombined : combined = (engine.ledger.combineRules ids name).1 :=
    (agrees_combineRules hrun.faithful ids name).answer
  -- every error of a preview, with its cause; each error on its own is a case of it
  have herror : ∀ e, preview = .error e ↔
      (ids = [] ∧ e = .noRules) ∨
        (∃ front x back, ids = front ++ x :: back ∧ (∀ id ∈ front, engine.catalogue.Holds id) ∧
          ¬ engine.catalogue.Holds x ∧ e = .ruleNotFound x) ∨
        (∃ first rest, engine.catalogue.Reads ids (first :: rest) ∧
          maxDepth < (conjunction first rest).depth) ∧ e = .parse .tooDeep := fun e => by
    rw [hpreview, map_eq_error, hsound.combineStored_eq_error_iff, Catalogue.firstError_get_iff]
    rfl
  have hok : ∀ text, preview = .ok text ↔
      ∃ joined, engine.ledger.combineStored ids = .ok joined ∧ text = joined.render := fun text => by
    rw [hpreview, map_eq_ok]
  refine ⟨?_, fun x => ?_, hsound.exists_reads_iff, ?_, fun text => ?_, fun e he => ?_,
    fun e => ?_⟩
  · rw [herror]
    simp
  · rw [herror]
    simp
  · rw [herror]
    simp
  · rw [hok]
    simp only [hsound.combineStored_eq_ok_iff]
    constructor
    · rintro ⟨joined, ⟨first, rest, hreads, hdepth, rfl⟩, rfl⟩
      exact ⟨first, rest, hreads, hdepth, rfl⟩
    · rintro ⟨first, rest, hreads, hdepth, rfl⟩
      exact ⟨_, ⟨first, rest, hreads, hdepth, rfl⟩, rfl⟩
  · rcases (herror e).1 he with ⟨-, rfl⟩ | ⟨-, x, -, -, -, -, rfl⟩ | ⟨-, rfl⟩
    · exact .inl rfl
    · exact .inr (.inl ⟨x, rfl⟩)
    · exact .inr (.inr rfl)
  · rw [hcombined, Ledger.combineRules_eq_error_iff, hpreview, map_eq_error, hlimit]
    refine or_congr_right ⟨?_, ?_⟩
    · rintro ⟨joined, hjoined, hlong, rfl⟩
      exact ⟨joined.render, map_eq_ok.2 ⟨joined, hjoined, rfl⟩, hlong, rfl⟩
    · rintro ⟨text, htext, hlong, rfl⟩
      obtain ⟨joined, hjoined, rfl⟩ := map_eq_ok.1 htext
      exact ⟨joined, hjoined, hlong, rfl⟩

theorem Engine.previewCombined_and_combineRules_outcome_repeated :
    let commands : List Command := [.create "a" "a > 1", .create "b" "b < 2",
      .combineRules [1, 2] "both", .delete 2]
    let engine := ((Engine.new { maxRuleLength := 28 }).run commands).2
    (engine.previewCombined [3, 2, 9]).1 = .error (.ruleNotFound 2) ∧
      (engine.previewCombined [3, 1]).1 = .ok "((a > 1 AND b < 2) AND a > 1)" ∧
      (engine.combineRules [3, 1] "more").1 = .error (.parse (.tooLong 28 29)) ∧
      (engine.previewCombined (3 :: List.replicate 255 1)).1 = .error (.parse .tooDeep) := by
  intro commands engine
  have hown : ∀ command ∈ commands, command.IsOwn := by decide
  let one := Expr.leaf "a > 1"
  let both := Expr.join .and one (.leaf "b < 2")
  have hone : engine.catalogue.get 1 = .ok ⟨1, "a", "a > 1", one.toJson⟩ := by
    with_unfolding_all rfl
  have hboth : engine.catalogue.get 3 = .ok ⟨3, "both", "(a > 1 AND b < 2)", both.toJson⟩ := by
    with_unfolding_all rfl
  have hreadOne : ∃ r, engine.catalogue.get 1 = .ok r ∧ r.expr = .ok one :=
    ⟨_, hone, one.ofJson_toJson.trans (if_pos (by rw [Expr.depth_eq_height]; decide))⟩
  have hreadBoth : ∃ r, engine.catalogue.get 3 = .ok r ∧ r.expr = .ok both :=
    ⟨_, hboth, both.ofJson_toJson.trans (if_pos (by rw [Expr.depth_eq_height]; decide))⟩
  have hgone : ¬ engine.catalogue.Holds 2 := by
    rw [Catalogue.holds_iff_get]
    rintro ⟨r, hget⟩
    have hnone : (engine.catalogue.get 2).toOption.isNone := by decide +kernel
    rw [hget] at hnone
    cases hnone
  obtain ⟨-, hmissing, -⟩ := previewCombined_and_combineRules_outcome _ hown [3, 2, 9] "more"
  obtain ⟨-, -, -, -, hpair, -, hstored⟩ :=
    previewCombined_and_combineRules_outcome _ hown [3, 1] "more"
  obtain ⟨-, -, -, hdeep, -⟩ :=
    previewCombined_and_combineRules_outcome _ hown (3 :: List.replicate 255 1) "more"
  have hpreview : (engine.previewCombined [3, 1]).1 = .ok "((a > 1 AND b < 2) AND a > 1)" := by
    refine (hpair _).2 ⟨both, [one], .cons hreadBoth (.cons hreadOne .nil), ?_, by decide +kernel⟩
    rw [Expr.depth_eq_height]
    decide
  refine ⟨(hmissing 2).2 ⟨[3], [9], rfl, ?_, hgone⟩, hpreview, ?_, ?_⟩
  · exact List.forall_mem_singleton.2 (Catalogue.holds_iff_get.2 ⟨_, hboth⟩)
  · exact (hstored _).2 (.inr ⟨_, hpreview, by decide +kernel, by decide +kernel⟩)
  · refine hdeep.2 ⟨both, List.replicate 255 one,
      .cons hreadBoth (Catalogue.reads_replicate hreadOne 255), ?_⟩
    rw [Expr.depth_eq_height, Expr.height_conjunction_replicate]
    decide

end BusinessRules
