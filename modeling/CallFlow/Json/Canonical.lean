import CallFlow.Value.Basic
import CallFlow.Value.Text

/-!
# Canonical text

`Json.canonical` writes a value in one way only: the fields of every object
stand in the order of their keys, all characters beyond the plain ones are
escaped by their UTF-16 units, and numbers have the text they have
everywhere. Two values have the same canonical text when they differ in
nothing but the order of fields, so a digest of that text tells whether a
document has changed.
-/

namespace CallFlow.Json

/-- One UTF-16 unit, escaped. -/
def escapeUnit (unit : Nat) : List Char := '\\' :: 'u' :: Quoted.hexText 4 unit

/-- A character as it stands in canonical text. -/
def escape (c : Char) : List Char :=
  if c = '"' then ['\\', '"']
  else if c = '\\' then ['\\', '\\']
  else if c = '\n' then ['\\', 'n']
  else if c = '\r' then ['\\', 'r']
  else if c = '\t' then ['\\', 't']
  else if c = '\x08' then ['\\', 'b']
  else if c = '\x0c' then ['\\', 'f']
  else if 32 ≤ c.toNat ∧ c.toNat < 127 then [c]
  else if c.toNat < 0x10000 then escapeUnit c.toNat
  else
    escapeUnit (0xd800 + (c.toNat - 0x10000) / 0x400) ++
      escapeUnit (0xdc00 + (c.toNat - 0x10000) % 0x400)

/-- A text in canonical quotes. -/
def canonicalString (s : String) : List Char := '"' :: s.toList.flatMap escape ++ ['"']

/-- A binary fraction; the infinities and what is no number are words. -/
def canonicalFloat (x : Float) : List Char :=
  match Binary.shape x with
  | .undefined => "NaN".toList
  | .infinite negative => (if negative then ['-'] else []) ++ "Infinity".toList
  | _ => Shortest.text x

/-- A key as the text it stands under. -/
def keySpelling : Key → String
  | .text s => s
  | .null => "null"
  | .bool b => if b then "true" else "false"
  | .number (.int n) => String.ofList (intText n)
  | .number (.float x) => String.ofList (canonicalFloat x)

/-- The order of fields in canonical text: by key, code point by code
point. -/
def keyOrder (a b : String × List Char) : Bool := a.1 ≤ b.1

/-- A field of which the value is already written. -/
def canonicalField (field : String × List Char) : List Char :=
  canonicalString field.1 ++ ':' :: ' ' :: field.2

mutual

/-- The canonical text of a value. -/
def canonicalChars : Value → List Char
  | .null => "null".toList
  | .bool true => "true".toList
  | .bool false => "false".toList
  | .int n => intText n
  | .float x => canonicalFloat x
  | .str s => canonicalString s
  | .list items => '[' :: commaSeparated (canonicalItems items) ++ [']']
  | .obj fields =>
    '\x7b' :: commaSeparated (((canonicalFields fields).mergeSort keyOrder).map canonicalField) ++
      ['\x7d']

/-- The canonical text of each item. -/
def canonicalItems : List Value → List (List Char)
  | [] => []
  | v :: rest => canonicalChars v :: canonicalItems rest

/-- Each key with the canonical text of its value. -/
def canonicalFields : Fields → List (String × List Char)
  | [] => []
  | (k, v) :: rest => (keySpelling k, canonicalChars v) :: canonicalFields rest

end

/-- The canonical text of a value. It is written for documents, which were read from JSON,
so no whole number in them has the 4301 digits or more that the interpreter does not
write. -/
def canonical (value : Value) : String := String.ofList (canonicalChars value)

/-! ## Values that have a canonical text -/

mutual

/-- Whether every key in a value is a text. Keys of other kinds have no
place in the order of keys. -/
def textKeyed : Value → Bool
  | .list items => textKeyedItems items
  | .obj fields => textKeyedFields fields
  | _ => true

/-- Whether every key in some items is a text. -/
def textKeyedItems : List Value → Bool
  | [] => true
  | v :: rest => textKeyed v && textKeyedItems rest

/-- Whether every key of some fields, and in them, is a text. -/
def textKeyedFields : Fields → Bool
  | [] => true
  | (k, v) :: rest => k.isText && textKeyed v && textKeyedFields rest

end

end CallFlow.Json
