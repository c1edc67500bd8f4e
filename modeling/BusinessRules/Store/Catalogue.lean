import BusinessRules.Error
import BusinessRules.Store.Timestamp

/-!
# Stored rules

Model of `Rule` and of `RuleStore` with `insert`, `get`, `get_many`, `list` and `delete`.

* `StoredRule` — a named rule with its text and its stored expression;
* `DatedRule` — a rule with its two timestamps;
* `Catalogue` — the stored rules in the order of their ids, which start at one and are never used
  again;
* `Catalogue.insert`, `Catalogue.get?`, `Catalogue.getMany`, `Catalogue.erase` — its operations.
-/

namespace BusinessRules

/-- A named rule (`Rule`). The text is the one it was created from; the expression is kept in its
stored form. Ids are taken for unbounded: they agree with a counter of 64 bits as long as fewer than
`2 ^ 64` rules have been stored. -/
structure StoredRule where
  id : Nat
  name : String
  text : String
  ast : Json

/-- The expression of a stored rule (`Rule.ast`). -/
def StoredRule.expr (r : StoredRule) : Except Error Expr := Expr.ofJson r.ast

/-- A rule as a document, its keys in the order of the fields. -/
def StoredRule.members (r : StoredRule) : List (String × Json.Document String) :=
  [("id", .number (.ofNat r.id)), ("name", .string r.name), ("rule_string", .string r.text),
    ("ast_json", r.ast.toDocument)]

/-- A rule with the times of its creation and its last change. -/
structure DatedRule where
  rule : StoredRule
  createdAt : Instant
  updatedAt : Instant

/-- A dated rule as a document, the timestamps last. -/
def DatedRule.toDocument (r : DatedRule) : Json.Document String :=
  .object (r.rule.members ++
    [("created_at", .string r.createdAt.print), ("updated_at", .string r.updatedAt.print)])

/-- The stored rules, oldest first, and the id of the next one (`RuleStore`). -/
structure Catalogue where
  rules : List StoredRule
  nextId : Nat

namespace Catalogue

/-- No rules; the first will have id one. -/
def empty : Catalogue := ⟨[], 1⟩

def size (c : Catalogue) : Nat := c.rules.length

/-- Stores a rule under the next id, which is returned (`RuleStore.insert`). The next id grows
without a bound, so that fewer than `2 ^ 64` insertions are assumed where it is a counter of 64
bits. -/
def insert (c : Catalogue) (name text : String) (e : Expr) : Nat × Catalogue :=
  (c.nextId, ⟨c.rules ++ [⟨c.nextId, name, text, e.toJson⟩], c.nextId + 1⟩)

def get? (c : Catalogue) (id : Nat) : Option StoredRule := c.rules.find? (fun r => r.id = id)

/-- The rule of an id, or the error that there is none. -/
def get (c : Catalogue) (id : Nat) : Except Error StoredRule :=
  match c.get? id with
  | none => .error (.ruleNotFound id)
  | some r => .ok r

/-- The rules of several ids in the order of the ids (`get_many`); the first missing one decides. -/
def getMany (c : Catalogue) : List Nat → Except Error (List StoredRule)
  | [] => .ok []
  | id :: rest =>
    match c.get id with
    | .error e => .error e
    | .ok r =>
      match c.getMany rest with
      | .error e => .error e
      | .ok rs => .ok (r :: rs)

/-- Removes the rule of an id, which is returned (`RuleStore.delete`). -/
def erase (c : Catalogue) (id : Nat) : Except Error StoredRule × Catalogue :=
  match c.get id with
  | .error e => (.error e, c)
  | .ok r => (.ok r, { c with rules := c.rules.filter (fun r => r.id ≠ id) })

end Catalogue

end BusinessRules
