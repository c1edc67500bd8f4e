import BusinessRules.Decimal.Stepwise
import BusinessRules.Expr.ParseError
import BusinessRules.Json.Reader
import BusinessRules.Json.Shown

/-!
# Settings

Model of `EngineConfig` with `from_json`, `validate` and `check_length`: two limits, given as a JSON
object with any of the keys `cache_capacity` and `max_rule_length`, or as an array of the two.

* `Settings` — the limits;
* `SettingsFault` — why a text gives no settings, with `SettingsFault.message`;
* `Settings.ofDocument`, `Settings.ofText` — the settings that a text gives;
* `Settings.print` — settings as text;
* `Settings.checkLength` — the limit on rule texts.

Keys are read in the order of the text, and the first fault counts.
-/

namespace BusinessRules

open Decimal (Numeral)
open Json (Document EscapeFault Quotation Shown)

/-- The limits of an engine (`EngineConfig`). -/
structure Settings where
  /-- the number of parsed rules that are remembered; none at zero -/
  cacheCapacity : UInt64 := 1024
  /-- the number of characters a rule text may have -/
  maxRuleLength : UInt64 := 4096
  deriving DecidableEq, Repr

namespace Settings

inductive Field where
  | cacheCapacity
  | maxRuleLength
  deriving DecidableEq, Repr

def Field.key : Field → String
  | .cacheCapacity => "cache_capacity"
  | .maxRuleLength => "max_rule_length"

def Field.ofKey? (key : String) : Option Field :=
  if key = Field.cacheCapacity.key then some .cacheCapacity
  else if key = Field.maxRuleLength.key then some .maxRuleLength
  else none

end Settings

/-- Why a text gives no settings. -/
inductive SettingsFault where
  /-- the text is not JSON -/
  | notJson
  /-- neither an object nor an array -/
  | notSettings (found : Shown)
  | unknownField (key : String)
  | duplicateField (field : Settings.Field)
  /-- a value that is no integer -/
  | notCount (found : Shown)
  /-- an integer below zero -/
  | negativeCount (i : Int)
  /-- a number beyond the finite ones -/
  | outOfRange
  /-- a string that spells no text -/
  | escape (fault : EscapeFault)
  /-- more items than fields -/
  | extraItems
  /-- a limit that no rule text keeps -/
  | zeroLength
  deriving DecidableEq

def SettingsFault.message : SettingsFault → String
  | .notJson => "expected JSON text"
  | .notSettings found => "invalid type: " ++ found.text ++ ", expected struct EngineConfig"
  | .unknownField key =>
    "unknown field `" ++ key ++ "`, expected `" ++ Settings.Field.cacheCapacity.key ++ "` or `" ++
      Settings.Field.maxRuleLength.key ++ "`"
  | .duplicateField field => "duplicate field `" ++ field.key ++ "`"
  | .notCount found => "invalid type: " ++ found.text ++ ", expected usize"
  | .negativeCount i => "invalid value: integer `" ++ Decimal.ofInt i ++ "`, expected usize"
  | .outOfRange => "number out of range"
  | .escape .loneSurrogate => "lone leading surrogate in hex escape"
  | .escape .unfinishedPair => "unexpected end of hex escape"
  | .extraItems => "trailing characters"
  | .zeroLength => Settings.Field.maxRuleLength.key ++ " must be greater than 0"

namespace Settings

/-! ## Reading -/

/-- The number that a numeral of settings spells. One that is no integer is only ever named in a
message, and is read in steps. -/
def number? (n : Numeral) : Option Number := Number.ofNumeralBy? Numeral.toBinary64InSteps? n

/-- What a message names a document as. A string that spells no text and a number beyond the
finite ones cannot be named and are faults of their own. -/
def found : Document Quotation → Except SettingsFault Shown
  | .null => .ok .null
  | .bool b => .ok (.boolean b)
  | .number n =>
    match number? n with
    | none => .error .outOfRange
    | some number => .ok (.ofNumber number)
  | .string (.text s) => .ok (.string s)
  | .string (.faulty fault) => .error (.escape fault)
  | .array _ => .ok .sequence
  | .object _ => .ok .map

/-- The count that a document spells: an integer from zero up to 64 bits. -/
def readCount (d : Document Quotation) : Except SettingsFault UInt64 :=
  match found d with
  | .error fault => .error fault
  | .ok (.integer i) => if i < 0 then .error (.negativeCount i) else .ok (UInt64.ofNat i.toNat)
  | .ok other => .error (.notCount other)

/-- Settings in the course of reading. -/
structure Draft where
  cacheCapacity : Option UInt64 := none
  maxRuleLength : Option UInt64 := none

/-- The value of a field so far. -/
def Draft.get? (d : Draft) : Field → Option UInt64
  | .cacheCapacity => d.cacheCapacity
  | .maxRuleLength => d.maxRuleLength

/-- The draft with a value for a field. -/
def Draft.put (d : Draft) (field : Field) (count : UInt64) : Draft :=
  match field with
  | .cacheCapacity => { d with cacheCapacity := some count }
  | .maxRuleLength => { d with maxRuleLength := some count }

/-- Reads members into a draft. A key is judged before its value is looked at. -/
def readMembers : List (Quotation × Document Quotation) → Draft → Except SettingsFault Draft
  | [], d => .ok d
  | (.faulty fault, _) :: _, _ => .error (.escape fault)
  | (.text key, value) :: rest, d =>
    match Field.ofKey? key with
    | none => .error (.unknownField key)
    | some field =>
      match d.get? field with
      | some _ => .error (.duplicateField field)
      | none =>
        match readCount value with
        | .error fault => .error fault
        | .ok count => readMembers rest (d.put field count)

/-- Reads items into the fields of a draft in their order. -/
def readItems : List Field → List (Document Quotation) → Draft → Except SettingsFault Draft
  | _, [], d => .ok d
  | [], _ :: _, _ => .error .extraItems
  | field :: fields, item :: rest, d =>
    match readCount item with
    | .error fault => .error fault
    | .ok count => readItems fields rest (d.put field count)

/-- The settings of a draft, the defaults standing in for what is absent. A limit that no rule
text keeps is refused last of all. -/
def Draft.finish (d : Draft) : Except SettingsFault Settings :=
  let defaults : Settings := {}
  let settings : Settings :=
    ⟨d.cacheCapacity.getD defaults.cacheCapacity, d.maxRuleLength.getD defaults.maxRuleLength⟩
  if settings.maxRuleLength = 0 then .error .zeroLength else .ok settings

/-- The settings that a document gives. -/
def ofDocument (d : Document Quotation) : Except SettingsFault Settings :=
  let draft : Except SettingsFault Draft :=
    match d with
    | .object members => readMembers members {}
    | .array items => readItems [.cacheCapacity, .maxRuleLength] items {}
    | other =>
      match found other with
      | .error fault => .error fault
      | .ok shown => .error (.notSettings shown)
  match draft with
  | .error fault => .error fault
  | .ok d => d.finish

/-- The settings that a text gives (`EngineConfig.from_json`). -/
def ofText (text : String) : Except SettingsFault Settings :=
  match Document.read? text with
  | none => .error .notJson
  | some d => ofDocument d

/-! ## Writing -/

/-- Settings as a document, every field written. -/
def toDocument (s : Settings) : Document String :=
  .object [(Field.cacheCapacity.key, .number (.ofNat s.cacheCapacity.toNat)),
    (Field.maxRuleLength.key, .number (.ofNat s.maxRuleLength.toNat))]

/-- Settings as text. -/
def print (s : Settings) : String := s.toDocument.print

/-! ## The limit on rule texts -/

/-- Refuses a text of more characters than the limit (`check_length`). -/
def checkLength (s : Settings) (text : String) : Except ParseError Unit :=
  if s.maxRuleLength.toNat < text.length then
    .error (.tooLong s.maxRuleLength.toNat text.length)
  else .ok ()

end Settings

end BusinessRules
