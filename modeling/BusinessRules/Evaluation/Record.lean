import BusinessRules.Json.Basic

/-!
# Records

Model of the interface `Record` with its one function `field`.

* `Record` — the data that a rule is evaluated against, as fields with values;
* `Record.field?` — the value of a field, by its exact name.
-/

namespace BusinessRules

/-- The data that a rule is evaluated against: fields by name. -/
structure Record where
  fields : List (String × Json)

/-- The value of a field. -/
def Record.field? (r : Record) (name : String) : Option Json := Members.find? r.fields name

/-- The record that an object holds; other values hold none. -/
def Record.ofJson? : Json → Option Record
  | .object members => some ⟨members⟩
  | _ => none

end BusinessRules
