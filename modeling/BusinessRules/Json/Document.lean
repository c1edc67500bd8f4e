import BusinessRules.Json.Basic

/-!
# JSON documents

A document is a JSON text as a tree: members keep their order and may repeat a key, numbers keep
their spelling. Its strings are of a type `σ`, since a text read from outside may hold strings
that no sequence of characters spells.

* `Document` — the tree;
* `Document.print` — its compact text;
* `Document.toJson?` — the value it spells;
* `Json.toDocument` — a value as a document, members in key order.
-/

namespace BusinessRules.Json

open Decimal

/-- A JSON text as a tree over strings of type `σ`. -/
inductive Document (σ : Type) where
  | null
  | bool (b : Bool)
  | number (n : Numeral)
  | string (s : σ)
  | array (items : List (Document σ))
  | object (members : List (σ × Document σ))

/-! ## Strings -/

/-- The digits of a code point below `0x100`, four of them. -/
def fourHexDigits (code : Nat) : List Char :=
  ['0', '0', Nat.digitChar (code / 16 % 16), Nat.digitChar (code % 16)]

/-- A character between the quotation marks of a JSON string. Only the mark, the backslash and
the controls are escaped. -/
def stringChar (c : Char) : List Char :=
  if c = '"' then ['\\', '"']
  else if c = '\\' then ['\\', '\\']
  else if c = '\x08' then ['\\', 'b']
  else if c = '\x0c' then ['\\', 'f']
  else if c = '\n' then ['\\', 'n']
  else if c = '\r' then ['\\', 'r']
  else if c = '\t' then ['\\', 't']
  else if c.toNat < 0x20 then '\\' :: 'u' :: fourHexDigits c.toNat
  else [c]

/-- A string with its quotation marks. -/
def printString (s : String) : String :=
  String.ofList ('"' :: s.toList.flatMap stringChar ++ ['"'])

example : printString "a\"\n\x01" = "\"a\\\"\\n\\u0001\"" := by decide +kernel

/-! ## Printing -/

namespace Document

mutual

/-- The compact text of a document. -/
def print : Document String → String
  | .null => "null"
  | .bool b => if b then "true" else "false"
  | .number n => String.ofList n.print
  | .string s => printString s
  | .array items => "[" ++ String.intercalate "," (itemTexts items) ++ "]"
  | .object members => "\x7b" ++ String.intercalate "," (memberTexts members) ++ "\x7d"

def itemTexts : List (Document String) → List String
  | [] => []
  | item :: rest => item.print :: itemTexts rest

def memberTexts : List (String × Document String) → List String
  | [] => []
  | (key, value) :: rest => (printString key ++ ":" ++ value.print) :: memberTexts rest

end

/-! ## Values -/

variable {σ : Type}

mutual

/-- The value a document spells: members take key order and a later one replaces an earlier one of
its key. `none` if a string spells no text by `text?` or a number is beyond the finite ones. -/
def toJson? (text? : σ → Option String) : Document σ → Option Json
  | .null => some .null
  | .bool b => some (.bool b)
  | .number n => (Number.ofNumeral? n).map .number
  | .string s => (text? s).map .string
  | .array items => (itemsToJson? text? items).map .array
  | .object members => (membersToJson? text? members).map Json.ofMembers

def itemsToJson? (text? : σ → Option String) : List (Document σ) → Option (List Json)
  | [] => some []
  | item :: rest =>
    match item.toJson? text?, itemsToJson? text? rest with
    | some value, some values => some (value :: values)
    | _, _ => none

/-- The members of an object with their values, in the order of the text. -/
def membersToJson? (text? : σ → Option String) :
    List (σ × Document σ) → Option (List (String × Json))
  | [] => some []
  | (key, value) :: rest =>
    match text? key, value.toJson? text?, membersToJson? text? rest with
    | some k, some v, some entries => some ((k, v) :: entries)
    | _, _, _ => none

end

end Document

mutual

/-- A value as a document, numbers in their own spelling. -/
def toDocument : Json → Document String
  | .null => .null
  | .bool b => .bool b
  | .number n => .number n.numeral
  | .string s => .string s
  | .array items => .array (itemsToDocument items)
  | .object members => .object (membersToDocument members)

def itemsToDocument : List Json → List (Document String)
  | [] => []
  | item :: rest => item.toDocument :: itemsToDocument rest

def membersToDocument : List (String × Json) → List (String × Document String)
  | [] => []
  | (key, value) :: rest => (key, value.toDocument) :: membersToDocument rest

end

/-- The compact text of a value. -/
def print (value : Json) : String := value.toDocument.print

end BusinessRules.Json
