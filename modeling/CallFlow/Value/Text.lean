import CallFlow.Value.Basic
import CallFlow.Number.Shortest
import CallFlow.Text.Quoted

/-!
# Values as text

Ids, conditions and targets are texts, but a document may hold any value
in their place. `Value.text` is the text such a value stands for: a text
is itself, and any other value is written out, with texts inside it in
quotes. `Value.idText` is the reading of an id: a blank value is the empty
id.
-/

namespace CallFlow

/-- Pieces of text with a comma and a space between them. -/
def commaSeparated : List (List Char) → List Char
  | [] => []
  | [piece] => piece
  | piece :: rest => piece ++ ',' :: ' ' :: commaSeparated rest

/-- A whole number in base ten. -/
def intText (n : Int) : List Char :=
  if n < 0 then '-' :: decimalDigits n.natAbs else decimalDigits n.natAbs

/-- A number written out. -/
def Number.written : Number → List Char
  | .int n => intText n
  | .float x => Shortest.text x

/-- A truth value written out. -/
def boolText (b : Bool) : List Char := if b then "True".toList else "False".toList

/-- What stands for nothing. -/
def nullText : List Char := "None".toList

/-- A key written out, with a text in quotes. -/
def Key.written : Key → List Char
  | .text s => Quoted.quoted s.toList
  | .null => nullText
  | .bool b => boolText b
  | .number n => n.written

mutual

/-- A value written out, with texts in quotes. -/
def Value.written : Value → List Char
  | .null => nullText
  | .bool b => boolText b
  | .int n => intText n
  | .float x => Shortest.text x
  | .str s => Quoted.quoted s.toList
  | .list items => '[' :: commaSeparated (writtenItems items) ++ [']']
  | .obj fields => '\x7b' :: commaSeparated (writtenFields fields) ++ ['\x7d']

/-- The items of a sequence, each written out. -/
def writtenItems : List Value → List (List Char)
  | [] => []
  | v :: rest => v.written :: writtenItems rest

/-- The fields of an object, each written out. -/
def writtenFields : Fields → List (List Char)
  | [] => []
  | (k, v) :: rest => (k.written ++ ':' :: ' ' :: v.written) :: writtenFields rest

end

namespace Value

/-- The text a value stands for. A whole number is written whatever its length, though
the interpreter writes none of more than 4300 digits: one that stands in a document was
read from JSON, which the interpreter does not read at that length either. What is
handed in or counted up can be longer, and is written with the limit in mind
(`EdgeId.ordinalText`, `Draw.stamp`). -/
def text : Value → String
  | str s => s
  | value => String.ofList value.written

/-- The id a value stands for; a blank value is the empty id. -/
def idText (value : Value) : String := if value.truthy then value.text else ""

/-- The text a value stands for, or a default where it is blank. -/
def textOr (value : Value) (default : String) : String :=
  if value.truthy then value.text else default

@[simp] theorem text_str (s : String) : (str s).text = s := rfl

@[simp] theorem idText_str (s : String) : (str s).idText = s := by
  by_cases h : s = "" <;> simp [idText, truthy, h]

end Value

end CallFlow
