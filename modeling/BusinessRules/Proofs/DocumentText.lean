import BusinessRules.Json.Reader
import BusinessRules.Proofs.Lexemes

/-!
# Documents and their texts

A document is a sequence of lexemes, and its texts are the spellings of these. Reading a text gives
exactly the document whose lexemes it spells, so the two stages of reading are the grammar of the
data format.

* `Document.lexemes` — the lexemes of a document;
* `Document.SpelledBy` — the texts of a document;
* `Reading.lexemes` — the lexemes behind a pass that is not over.

Principal results: `Document.foldlM_lexemes` (a pass over the lexemes of a document),
`Reading.lexemes_of_step?` (a lexeme that may stand is one more behind the pass) and
`Document.read?_eq_some_iff`.
-/

namespace BusinessRules.Json

/-! ## Lexemes of documents -/

namespace Document

mutual

/-- The lexemes of a document. -/
def lexemes : Document Quotation → List Lexeme
  | .null => [.null]
  | .bool b => [.bool b]
  | .number n => [.number n]
  | .string q => [.string q]
  | .array items =>
    .openBracket :: (List.intercalate [.comma] (itemLexemes items) ++ [.closeBracket])
  | .object members =>
    .openBrace :: (List.intercalate [.comma] (memberLexemes members) ++ [.closeBrace])

def itemLexemes : List (Document Quotation) → List (List Lexeme)
  | [] => []
  | item :: rest => item.lexemes :: itemLexemes rest

def memberLexemes : List (Quotation × Document Quotation) → List (List Lexeme)
  | [] => []
  | (key, value) :: rest => (.string key :: .colon :: value.lexemes) :: memberLexemes rest

end

/-- A text of a document: the lexemes of the document as they are spelled, spaces between them. -/
def SpelledBy (d : Document Quotation) (text : String) : Prop :=
  Lexeme.Spelled d.lexemes text.toList

theorem itemLexemes_eq_map (items : List (Document Quotation)) :
    itemLexemes items = items.map lexemes := by
  induction items with
  | nil => rfl
  | cons item rest ih => rw [itemLexemes, ih, List.map_cons]

theorem memberLexemes_eq_map (members : List (Quotation × Document Quotation)) :
    memberLexemes members =
      members.map fun member => .string member.1 :: .colon :: member.2.lexemes := by
  induction members with
  | nil => rfl
  | cons member rest ih => rw [memberLexemes, ih, List.map_cons]

end Document

section Intercalate

variable {α : Type} (separator : List α)

theorem intercalate_cons (x : List α) (xs : List (List α)) :
    separator.intercalate (x :: xs) = x ++ xs.flatMap (separator ++ ·) := by
  induction xs generalizing x with
  | nil => simp
  | cons y ys ih => rw [List.intercalate_cons_cons, ih, List.flatMap_cons]; simp

theorem intercalate_concat (xs : List (List α)) (x : List α) :
    separator.intercalate (xs ++ [x]) = xs.flatMap (· ++ separator) ++ x := by
  induction xs with
  | nil => simp
  | cons y ys ih =>
    cases ys with
    | nil => simp [List.intercalate_cons_cons]
    | cons z zs =>
      rw [List.cons_append, List.cons_append, List.intercalate_cons_cons, ← List.cons_append, ih,
        List.flatMap_cons]
      simp

end Intercalate

/-! ## From lexemes to the document -/

namespace Reading

theorem foldlM_step {r : Reading} {lexeme : Lexeme} (next : Reading)
    (h : r.step? lexeme = some next) (rest : List Lexeme) :
    (lexeme :: rest).foldlM step? r = rest.foldlM step? next := by
  rw [List.foldlM_cons, h]
  rfl

end Reading

namespace Document

open Reading

/-- The first item of an array is read as any value is, since no value begins by closing one. -/
theorem foldlM_firstItem (d : Document Quotation) (context : List Frame) (rest : List Lexeme) :
    (d.lexemes ++ rest).foldlM step? (.firstItem context) =
      (d.lexemes ++ rest).foldlM step? (.value (.array [] :: context)) := by
  cases d <;> rfl

mutual

/-- **A pass over the lexemes of a document ends behind the document**, whatever comes next. -/
theorem foldlM_lexemes (d : Document Quotation) (context : List Frame) (rest : List Lexeme) :
    (d.lexemes ++ rest).foldlM step? (.value context) = rest.foldlM step? (.behind d context) := by
  cases d with
  | array items =>
    cases items with
    | nil => rfl
    | cons item items =>
      rw [lexemes, itemLexemes, intercalate_cons, List.cons_append,
        foldlM_step (.firstItem context) rfl, List.append_assoc, List.append_assoc,
        foldlM_firstItem, foldlM_lexemes item, List.singleton_append, foldlM_itemLexemes items item]
      rfl
  | object members =>
    cases members with
    | nil => rfl
    | cons member members =>
      obtain ⟨key, value⟩ := member
      rw [lexemes, memberLexemes, intercalate_cons, List.cons_append,
        foldlM_step (.firstKey context) rfl, List.append_assoc, List.append_assoc,
        List.cons_append, foldlM_step (.colon [] key context) rfl, List.cons_append,
        foldlM_step (.value (.object [] key :: context)) rfl, foldlM_lexemes value,
        List.singleton_append, foldlM_memberLexemes members key value]
      rfl
  | _ => rfl

/-- The items behind one, up to the end of their array. -/
theorem foldlM_itemLexemes (items : List (Document Quotation)) (d : Document Quotation)
    (front : List (Document Quotation)) (context : List Frame) (rest : List Lexeme) :
    ((itemLexemes items).flatMap ([Lexeme.comma] ++ ·) ++ .closeBracket :: rest).foldlM step?
        (.behind d (.array front :: context)) =
      rest.foldlM step? (.behind (.array ((d :: front).reverse ++ items)) context) := by
  cases items with
  | nil =>
    rw [List.append_nil]
    exact foldlM_step _ rfl rest
  | cons item items =>
    rw [itemLexemes, List.flatMap_cons, List.append_assoc, List.append_assoc, List.singleton_append,
      foldlM_step (.value (.array (d :: front) :: context)) rfl, foldlM_lexemes item,
      foldlM_itemLexemes items item, List.reverse_cons, List.append_assoc]
    rfl

/-- The members behind one, up to the end of their object. -/
theorem foldlM_memberLexemes (members : List (Quotation × Document Quotation))
    (key : Quotation) (d : Document Quotation) (front : List (Quotation × Document Quotation))
    (context : List Frame) (rest : List Lexeme) :
    ((memberLexemes members).flatMap ([Lexeme.comma] ++ ·) ++ .closeBrace :: rest).foldlM step?
        (.behind d (.object front key :: context)) =
      rest.foldlM step? (.behind (.object (((key, d) :: front).reverse ++ members)) context) := by
  cases members with
  | nil =>
    rw [List.append_nil]
    exact foldlM_step _ rfl rest
  | cons member members =>
    obtain ⟨next, value⟩ := member
    rw [memberLexemes, List.flatMap_cons, List.append_assoc, List.append_assoc,
      List.singleton_append, foldlM_step (.nextKey ((key, d) :: front) context) rfl,
      List.cons_append, foldlM_step (.colon ((key, d) :: front) next context) rfl,
      List.cons_append, foldlM_step (.value (.object ((key, d) :: front) next :: context)) rfl,
      foldlM_lexemes value, foldlM_memberLexemes members next value, List.reverse_cons,
      List.append_assoc]
    rfl

end

/-! ## No two numerals in a row -/

/-- Lexemes that may come behind a numeral. -/
structure FollowsNumber (lexemes : List Lexeme) : Prop where
  apart : Lexeme.Apart lexemes
  first : ∀ lexeme ∈ lexemes.head?, ¬ lexeme.IsNumber

theorem FollowsNumber.cons {lexeme : Lexeme} {rest : List Lexeme} (h : ¬ lexeme.IsNumber)
    (hrest : Lexeme.Apart rest) : FollowsNumber (lexeme :: rest) where
  apart := List.isChain_cons.2 ⟨fun _ _ hnumber => absurd hnumber h, hrest⟩
  first := by
    rintro _ hfirst
    cases hfirst
    exact h

theorem FollowsNumber.apart_cons {rest : List Lexeme} (h : FollowsNumber rest) (lexeme : Lexeme) :
    Lexeme.Apart (lexeme :: rest) :=
  List.isChain_cons.2 ⟨fun next hnext _ => h.first next hnext, h.apart⟩

mutual

theorem apart_lexemes (d : Document Quotation) {rest : List Lexeme} (h : FollowsNumber rest) :
    Lexeme.Apart (d.lexemes ++ rest) := by
  cases d with
  | array items =>
    have hclose : FollowsNumber (.closeBracket :: rest) := .cons id h.apart
    cases items with
    | nil => exact hclose.apart_cons .openBracket
    | cons item items =>
      rw [lexemes, itemLexemes, intercalate_cons, List.cons_append, List.append_assoc,
        List.append_assoc, List.singleton_append]
      have hitems := followsNumber_itemLexemes items hclose
      exact (FollowsNumber.cons id (apart_lexemes item hitems)).apart
  | object members =>
    have hclose : FollowsNumber (.closeBrace :: rest) := .cons id h.apart
    cases members with
    | nil => exact hclose.apart_cons .openBrace
    | cons member members =>
      obtain ⟨key, value⟩ := member
      rw [lexemes, memberLexemes, intercalate_cons, List.cons_append, List.append_assoc,
        List.append_assoc, List.singleton_append]
      have hmembers := followsNumber_memberLexemes members hclose
      have hvalue : FollowsNumber (.colon :: _) := .cons id (apart_lexemes value hmembers)
      exact (FollowsNumber.cons id (hvalue.apart_cons (.string key))).apart
  | _ => exact h.apart_cons _

theorem followsNumber_itemLexemes (items : List (Document Quotation)) {rest : List Lexeme}
    (h : FollowsNumber rest) :
    FollowsNumber ((itemLexemes items).flatMap ([Lexeme.comma] ++ ·) ++ rest) := by
  cases items with
  | nil => exact h
  | cons item items =>
    rw [itemLexemes, List.flatMap_cons, List.append_assoc, List.append_assoc]
    exact .cons id (apart_lexemes item (followsNumber_itemLexemes items h))

theorem followsNumber_memberLexemes (members : List (Quotation × Document Quotation))
    {rest : List Lexeme} (h : FollowsNumber rest) :
    FollowsNumber ((memberLexemes members).flatMap ([Lexeme.comma] ++ ·) ++ rest) := by
  cases members with
  | nil => exact h
  | cons member members =>
    obtain ⟨key, value⟩ := member
    rw [memberLexemes, List.flatMap_cons, List.append_assoc, List.append_assoc]
    have hvalue : FollowsNumber (.colon :: _) :=
      .cons id (apart_lexemes value (followsNumber_memberLexemes members h))
    exact .cons id (hvalue.apart_cons (.string key))

end

end Document

/-! ## From a pass to the lexemes behind it -/

/-- The lexemes behind open containers. -/
def Frame.lexemes : List Frame → List Lexeme
  | [] => []
  | .array items :: context =>
    Frame.lexemes context ++
      .openBracket :: (Document.itemLexemes items.reverse).flatMap (· ++ [Lexeme.comma])
  | .object members key :: context =>
    Frame.lexemes context ++
      .openBrace :: ((Document.memberLexemes members.reverse).flatMap (· ++ [Lexeme.comma]) ++
        [.string key, .colon])

namespace Reading

/-- The lexemes behind a pass. -/
def lexemes : Reading → List Lexeme
  | .value context => Frame.lexemes context
  | .firstItem context => Frame.lexemes context ++ [.openBracket]
  | .firstKey context => Frame.lexemes context ++ [.openBrace]
  | .nextKey members context =>
    Frame.lexemes context ++
      .openBrace :: (Document.memberLexemes members.reverse).flatMap (· ++ [Lexeme.comma])
  | .colon members key context =>
    Frame.lexemes context ++
      .openBrace :: ((Document.memberLexemes members.reverse).flatMap (· ++ [Lexeme.comma]) ++
        [.string key])
  | .behind document context => Frame.lexemes context ++ document.lexemes

theorem lexemes_of_startValue? {lexeme : Lexeme} {context : List Frame} {next : Reading}
    (h : startValue? lexeme context = some next) :
    next.lexemes = Frame.lexemes context ++ [lexeme] := by
  unfold startValue? at h
  split at h <;> cases h <;> rfl

/-- **A lexeme that may stand is one more behind the pass.** -/
theorem lexemes_of_step? {r next : Reading} {lexeme : Lexeme} (h : r.step? lexeme = some next) :
    next.lexemes = r.lexemes ++ [lexeme] := by
  unfold step? at h
  split at h
  case h_1 => exact lexemes_of_startValue? h
  case h_3 =>
    rw [lexemes_of_startValue? h]
    rfl
  -- a container is complete: its contents, newest first so far, are in order with the last one
  case h_9 | h_11 =>
    cases h
    simp only [lexemes, Document.lexemes, Document.itemLexemes_eq_map,
      Document.memberLexemes_eq_map, Frame.lexemes, List.reverse_cons, List.map_append,
      List.map_cons, List.map_nil, intercalate_concat, List.append_assoc, List.cons_append,
      List.nil_append]
  case h_12 => cases h
  all_goals
    cases h
    simp [lexemes, Document.lexemes, Document.itemLexemes_eq_map, Document.memberLexemes_eq_map,
      Frame.lexemes]

theorem lexemes_of_foldlM {r last : Reading} {lexemes : List Lexeme}
    (h : lexemes.foldlM step? r = some last) : last.lexemes = r.lexemes ++ lexemes := by
  induction lexemes generalizing r with
  | nil =>
    cases h
    exact (List.append_nil _).symm
  | cons lexeme rest ih =>
    rw [List.foldlM_cons] at h
    obtain ⟨next, hstep, hrest⟩ := Option.bind_eq_some_iff.1 h
    rw [ih hrest, lexemes_of_step? hstep, List.append_assoc]
    rfl

theorem lexemes_of_finish? {r : Reading} {d : Document Quotation} (h : r.finish? = some d) :
    r.lexemes = d.lexemes := by
  unfold finish? at h
  split at h
  · cases h
    rfl
  · cases h

end Reading

/-! ## Reading -/

/-- **A text is read as a document exactly if it spells the document.** -/
theorem Document.read?_eq_some_iff {text : String} {d : Document Quotation} :
    Document.read? text = some d ↔ d.SpelledBy text := by
  unfold Document.read?
  constructor
  · intro h
    cases hscan : Lexeme.scan? text with
    | none => simp [hscan] at h
    | some lexemes =>
      cases hpass : lexemes.foldlM Reading.step? (.value []) with
      | none => simp [hscan, hpass] at h
      | some last =>
        simp only [hscan, hpass] at h
        have hlexemes : d.lexemes = lexemes := by
          rw [← Reading.lexemes_of_finish? h, Reading.lexemes_of_foldlM hpass]
          rfl
        rw [SpelledBy, hlexemes]
        exact Lexeme.spelled_of_scan? hscan
  · intro h
    have hend : FollowsNumber [] := ⟨List.isChain_nil, nofun⟩
    have hapart := d.apart_lexemes hend
    have hpass := d.foldlM_lexemes [] []
    rw [List.append_nil] at hapart hpass
    simp only [Lexeme.scan?_of_spelled h hapart, hpass]
    rfl

end BusinessRules.Json
