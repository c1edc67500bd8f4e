import BusinessRules.Expr.Basic
import BusinessRules.Json.Basic

/-!
# Values of a host language

Programs that embed the engine hand it their own dynamic values, which are converted to JSON
values first, and get JSON values back as values of theirs.

* `HostValue` — such a value; of those that have no conversion only the name of the type is known;
* `ConversionError` — why a value has no JSON form, with `ConversionError.message`;
* `HostValue.toJson` — the JSON form of a value;
* `HostValue.ofJson` — the value of a JSON form;
* `HostValue.dictOf` — a dictionary from entries with repeated keys.
-/

namespace BusinessRules

open Decimal

/-- The floating point values that are no finite number. -/
inductive NonFinite where
  | infinite (negative : Bool)
  | nan
  deriving DecidableEq, Repr

def NonFinite.text : NonFinite → String
  | .infinite negative => if negative then "-inf" else "inf"
  | .nan => "nan"

/-- The key of a dictionary: a text, or a value of another type. -/
inductive HostKey where
  | text (s : String)
  | other (typeName : String)
  deriving DecidableEq, Repr

/-- A dynamic value. Lists and tuples are both sequences; dictionaries keep the order in which
their keys came. -/
inductive HostValue where
  | null
  | bool (b : Bool)
  | integer (i : Int)
  | float (x : Binary64)
  | nonFinite (x : NonFinite)
  | text (s : String)
  | dict (entries : List (HostKey × HostValue))
  | sequence (items : List HostValue)
  | other (typeName : String)

/-- Why a value has no JSON form. -/
inductive ConversionError where
  /-- more levels than `maxDepth` -/
  | tooDeep
  /-- an integer beyond 64 bits -/
  | integerTooWide (i : Int)
  /-- an infinity, or no number at all -/
  | notFinite (x : NonFinite)
  /-- a dictionary key that is no text -/
  | keyType (typeName : String)
  /-- a value of a type that has no JSON form -/
  | valueType (typeName : String)
  deriving DecidableEq

def ConversionError.message : ConversionError → String
  | .tooDeep => "Value nests deeper than " ++ Decimal.ofNat maxDepth ++ " levels"
  | .integerTooWide i => "Integer " ++ Decimal.ofInt i ++ " does not fit in 64 bits"
  | .notFinite x => "Float " ++ x.text ++ " is not finite"
  | .keyType typeName => "Dict keys must be str, got <class '" ++ typeName ++ "'>"
  | .valueType typeName => "Unsupported value type: <class '" ++ typeName ++ "'>"

namespace HostValue

/-! ## To JSON -/

mutual

/-- The JSON form of a value that stands on a level; the whole value stands on level one. The
level is checked before anything else, also for scalars. -/
def toJsonAt (v : HostValue) (level : Nat) : Except ConversionError Json :=
  if maxDepth < level then .error .tooDeep
  else
    match v with
    | .null => .ok .null
    | .bool b => .ok (.bool b)
    | .integer i =>
      match WideInt.ofInt? i with
      | none => .error (.integerTooWide i)
      | some n => .ok (.number (.integer n))
    | .float x => .ok (.number (.float x))
    | .nonFinite x => .error (.notFinite x)
    | .text s => .ok (.string s)
    | .dict entries =>
      match entriesToJsonAt entries (level + 1) with
      | .error e => .error e
      | .ok members => .ok (Json.ofMembers members)
    | .sequence items =>
      match itemsToJsonAt items (level + 1) with
      | .error e => .error e
      | .ok values => .ok (.array values)
    | .other typeName => .error (.valueType typeName)

/-- The members of a dictionary, in its order. A key is checked before its value. -/
def entriesToJsonAt (entries : List (HostKey × HostValue)) (level : Nat) :
    Except ConversionError (List (String × Json)) :=
  match entries with
  | [] => .ok []
  | (.other typeName, _) :: _ => .error (.keyType typeName)
  | (.text key, v) :: rest =>
    match v.toJsonAt level with
    | .error e => .error e
    | .ok value =>
      match entriesToJsonAt rest level with
      | .error e => .error e
      | .ok members => .ok ((key, value) :: members)

def itemsToJsonAt (items : List HostValue) (level : Nat) :
    Except ConversionError (List Json) :=
  match items with
  | [] => .ok []
  | v :: rest =>
    match v.toJsonAt level with
    | .error e => .error e
    | .ok value =>
      match itemsToJsonAt rest level with
      | .error e => .error e
      | .ok values => .ok (value :: values)

end

/-- The JSON form of a value. -/
def toJson (v : HostValue) : Except ConversionError Json := v.toJsonAt 1

/-! ## From JSON -/

mutual

/-- The value of a JSON form. -/
def ofJson : Json → HostValue
  | .null => .null
  | .bool b => .bool b
  | .number (.integer n) => .integer n.val
  | .number (.float x) => .float x
  | .string s => .text s
  | .array items => .sequence (itemsOfJson items)
  | .object members => .dict (entriesOfJson members)

def itemsOfJson : List Json → List HostValue
  | [] => []
  | item :: rest => ofJson item :: itemsOfJson rest

def entriesOfJson : List (String × Json) → List (HostKey × HostValue)
  | [] => []
  | (key, value) :: rest => (.text key, ofJson value) :: entriesOfJson rest

end

/-! ## Dictionaries -/

/-- The entries after one more. A text key that is there already keeps its place and gets the new
value. -/
def putEntry (key : HostKey) (value : HostValue) :
    List (HostKey × HostValue) → List (HostKey × HostValue)
  | [] => [(key, value)]
  | (k, v) :: rest =>
    match key, k with
    | .text new, .text old =>
      if new = old then (k, value) :: rest else (k, v) :: putEntry key value rest
    | _, _ => (k, v) :: putEntry key value rest

/-- The dictionary of entries put in one after the other. -/
def dictOf (entries : List (HostKey × HostValue)) : HostValue :=
  .dict (entries.foldl (fun d entry => putEntry entry.1 entry.2 d) [])

end HostValue

end BusinessRules
