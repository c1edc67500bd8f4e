import BusinessRules.Json.Lexeme

/-!
# Reading JSON text

The second stage of reading: one pass over the lexemes, with the containers that are still open
held in a list. No text is too deeply nested for it.

* `Frame` — an open container: what it holds already, and for an object the key in hand;
* `Reading` — what may come next, and the open containers around it;
* `Reading.step?` — one lexeme;
* `Document.read?` — the document of a text, `none` if the text is not JSON;
* `read?` — the value of a text.
-/

namespace BusinessRules.Json

/-- An open container, its contents newest first. -/
inductive Frame where
  | array (items : List (Document Quotation))
  | object (members : List (Quotation × Document Quotation)) (key : Quotation)

/-- The state of a pass: what may come next, inside which open containers. -/
inductive Reading where
  /-- a value -/
  | value (context : List Frame)
  /-- the first item of an array, or its end -/
  | firstItem (context : List Frame)
  /-- the first key of an object, or its end -/
  | firstKey (context : List Frame)
  /-- a key behind a comma -/
  | nextKey (members : List (Quotation × Document Quotation)) (context : List Frame)
  /-- the colon behind a key -/
  | colon (members : List (Quotation × Document Quotation)) (key : Quotation)
      (context : List Frame)
  /-- a separator or the end of the innermost container, behind a complete value -/
  | behind (document : Document Quotation) (context : List Frame)

namespace Reading

/-- A lexeme where a value must come. -/
def startValue? : Lexeme → List Frame → Option Reading
  | .null, context => some (.behind .null context)
  | .bool b, context => some (.behind (.bool b) context)
  | .number n, context => some (.behind (.number n) context)
  | .string q, context => some (.behind (.string q) context)
  | .openBracket, context => some (.firstItem context)
  | .openBrace, context => some (.firstKey context)
  | _, _ => none

/-- One lexeme; `none` where it may not stand. -/
def step? : Reading → Lexeme → Option Reading
  | .value context, lexeme => startValue? lexeme context
  | .firstItem context, .closeBracket => some (.behind (.array []) context)
  | .firstItem context, lexeme => startValue? lexeme (.array [] :: context)
  | .firstKey context, .closeBrace => some (.behind (.object []) context)
  | .firstKey context, .string key => some (.colon [] key context)
  | .nextKey members context, .string key => some (.colon members key context)
  | .colon members key context, .colon => some (.value (.object members key :: context))
  | .behind document (.array items :: context), .comma =>
    some (.value (.array (document :: items) :: context))
  | .behind document (.array items :: context), .closeBracket =>
    some (.behind (.array (document :: items).reverse) context)
  | .behind document (.object members key :: context), .comma =>
    some (.nextKey ((key, document) :: members) context)
  | .behind document (.object members key :: context), .closeBrace =>
    some (.behind (.object ((key, document) :: members).reverse) context)
  | _, _ => none

/-- The document of a pass that may end here. -/
def finish? : Reading → Option (Document Quotation)
  | .behind document [] => some document
  | _ => none

end Reading

/-- The document of a text; `none` if the text is not JSON. -/
def Document.read? (text : String) : Option (Document Quotation) :=
  match Lexeme.scan? text with
  | none => none
  | some lexemes =>
    match lexemes.foldlM Reading.step? (.value []) with
    | none => none
    | some reading => reading.finish?

/-- The value of a text; `none` if the text is not JSON, or holds a string that spells no text or
a number beyond the finite ones. -/
def read? (text : String) : Option Json :=
  match Document.read? text with
  | none => none
  | some document => document.toJson? Quotation.text?

end BusinessRules.Json
