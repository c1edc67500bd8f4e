/-!
# Symbols of rule text

Model of `Comparator` and `LogicalOp` with `as_str`, `from_symbol` and `is_ordering`.

* `Comparator` — the six comparison symbols;
* `Connective` — `AND` and `OR`.

Each has a `symbol` and a partial inverse `ofSymbol?`; `ofSymbol?_eq_some` says that they are
inverse to each other.
-/

namespace BusinessRules

/-- A comparison between a field and a literal. -/
inductive Comparator where
  | greaterEqual
  | lessEqual
  | notEqual
  | greater
  | less
  | equal
  deriving DecidableEq, Repr

namespace Comparator

/-- All comparators, those of two characters before those of one. -/
def all : List Comparator := [greaterEqual, lessEqual, notEqual, greater, less, equal]

def symbol : Comparator → String
  | .greaterEqual => ">="
  | .lessEqual => "<="
  | .notEqual => "!="
  | .greater => ">"
  | .less => "<"
  | .equal => "="

/-- The comparator of a spelling. -/
def ofSymbol? (s : String) : Option Comparator :=
  if s = ">" then some .greater
  else if s = "<" then some .less
  else if s = ">=" then some .greaterEqual
  else if s = "<=" then some .lessEqual
  else if s = "=" then some .equal
  else if s = "!=" then some .notEqual
  else none

/-- The two tables are inverse to each other. -/
theorem ofSymbol?_eq_some {s : String} {c : Comparator} : ofSymbol? s = some c ↔ c.symbol = s := by
  constructor
  · intro h
    unfold ofSymbol? at h
    repeat' split at h
    all_goals cases h
    all_goals subst_vars; rfl
  · rintro rfl
    cases c <;> rfl

/-- Comparators that need an order between the two sides (`is_ordering`). -/
def isOrdering : Comparator → Bool
  | .equal => false
  | .notEqual => false
  | _ => true

end Comparator

/-- A connective between two expressions (`LogicalOp`). -/
inductive Connective where
  | and
  | or
  deriving DecidableEq, Repr

namespace Connective

def symbol : Connective → String
  | .and => "AND"
  | .or => "OR"

/-- The connective of a spelling; case matters. -/
def ofSymbol? (s : String) : Option Connective :=
  if s = "AND" then some .and else if s = "OR" then some .or else none

theorem ofSymbol?_eq_some {s : String} {op : Connective} :
    ofSymbol? s = some op ↔ op.symbol = s := by
  unfold ofSymbol?
  constructor
  · intro h
    split at h
    · cases h; rename_i hs; exact hs.symm
    · split at h
      · cases h; rename_i hs; exact hs.symm
      · cases h
  · rintro rfl
    cases op <;> rfl

/-- The truth value of two joined truth values. -/
def apply : Connective → Bool → Bool → Bool
  | .and, x, y => x && y
  | .or, x, y => x || y

end Connective

end BusinessRules
