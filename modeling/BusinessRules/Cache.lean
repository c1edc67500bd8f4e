import BusinessRules.Expr.Parser

/-!
# The parse cache

Model of `ParseCache` with its `new`, `get_or_parse`, `len` and `clear`. Texts that have been
parsed are remembered with their expressions, up to a capacity. When it is reached, everything is
forgotten at once.

* `ParseCache` — the remembered texts, with `ParseCache.size` and `ParseCache.clear`;
* `ParseCache.lookup?`, `ParseCache.remember` — what `get_or_parse` does before and after parsing;
* `ParseCache.parse` — parsing through the cache. A text that does not parse is not remembered.
-/

namespace BusinessRules

/-- Parsed texts with their expressions, the newest first. -/
structure ParseCache where
  capacity : Nat
  entries : List (String × Expr)
  deriving DecidableEq, Repr

namespace ParseCache

/-- A cache that remembers nothing yet (`ParseCache.new`). Nothing is reserved for what it will
remember: capacities that are too large to be reserved at once, which have no cache, are left out.
-/
def empty (capacity : Nat) : ParseCache := ⟨capacity, []⟩

def size (c : ParseCache) : Nat := c.entries.length

def lookup? (c : ParseCache) (text : String) : Option Expr :=
  (c.entries.find? (fun entry => entry.1 = text)).map (·.2)

def clear (c : ParseCache) : ParseCache := { c with entries := [] }

/-- Remembers a text, after forgetting everything if the capacity is reached. A cache of capacity
zero remembers nothing. -/
def remember (c : ParseCache) (text : String) (e : Expr) : ParseCache :=
  if c.capacity = 0 then c
  else if c.capacity ≤ c.size then { c with entries := [(text, e)] }
  else { c with entries := (text, e) :: c.entries }

/-- The expression of a text, from memory if it is there, and the cache afterwards (`get_or_parse`).
-/
def parse (c : ParseCache) (text : String) : Except ParseError Expr × ParseCache :=
  match c.lookup? text with
  | some e => (.ok e, c)
  | none =>
    match Expr.parse text with
    | .error err => (.error err, c)
    | .ok e => (.ok e, c.remember text e)

end ParseCache

end BusinessRules
