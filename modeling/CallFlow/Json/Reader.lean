import CallFlow.Value.Basic
import CallFlow.Number.Decimal

/-!
# Reading JSON

`Json.read?` reads one JSON text into a value. Fields keep the order they
are written in; of fields with one key the last value counts. A number with
neither a point nor an exponent is a whole number of any size, any other is
the nearest binary fraction; the infinities and what is no number are words.
Of a pair of escaped surrogates the character they stand for is read.

The interpreter reads no whole number of more than 4300 digits, and the reader does not
look for that: the texts it is given are requests, which the interpreter has read.

The reader walks the text once. Its depth is bounded by the length of the
text, since every nested value starts with a bracket of its own.
-/

namespace CallFlow.Json

/-- The text without JSON's white space in front. -/
def skipSpace (cs : List Char) : List Char :=
  cs.dropWhile (fun c => c = ' ' || c = '\n' || c = '\t' || c = '\r')

/-- The number written by four digits of base sixteen. -/
def hexNumber? (a b c d : Char) : Option Nat := do
  return (((← Digit.hex? a) * 16 + (← Digit.hex? b)) * 16 +
    (← Digit.hex? c)) * 16 + (← Digit.hex? d)

/-- The character of a one-letter escape. -/
def shortEscape? (c : Char) : Option Char :=
  [('"', '"'), ('\\', '\\'), ('/', '/'), ('b', '\x08'), ('f', '\x0c'), ('n', '\n'), ('r', '\r'),
    ('t', '\t')].lookup c

/-- The character two surrogates stand for. -/
def joinSurrogates (high low : Nat) : Char :=
  Char.ofNat (0x10000 + (high - 0xd800) * 0x400 + (low - 0xdc00))

/-- Whether a unit is the first of a pair of surrogates. -/
def isHigh (unit : Nat) : Bool := 0xd800 ≤ unit && unit < 0xdc00

/-- Whether a unit is the second of a pair of surrogates. -/
def isLow (unit : Nat) : Bool := 0xdc00 ≤ unit && unit < 0xe000

/-- Closes a surrogate that found no partner. -/
def settle (waiting : Option Nat) (done : List Char) : List Char :=
  match waiting with
  | some _ => '\ufffd' :: done
  | none => done

/-- Reads the rest of a text up to its closing quote. The characters read
so far stand in front in reverse, and a first surrogate may be waiting for
its partner. -/
def readText (waiting : Option Nat) (done : List Char) : List Char → Option (String × List Char)
  | [] => none
  | '"' :: rest => some (String.ofList (settle waiting done).reverse, rest)
  | '\\' :: 'u' :: a :: b :: c :: d :: rest =>
    match hexNumber? a b c d, waiting with
    | some unit, some high =>
      if isLow unit then readText none (joinSurrogates high unit :: done) rest
      else if isHigh unit then readText (some unit) (settle waiting done) rest
      else readText none (Char.ofNat unit :: settle waiting done) rest
    | some unit, none =>
      if isHigh unit then readText (some unit) done rest
      else readText none (Char.ofNat unit :: done) rest
    | none, _ => none
  | '\\' :: c :: rest =>
    match shortEscape? c with
    | some e => readText none (e :: settle waiting done) rest
    | none => none
  | c :: rest => readText none (c :: settle waiting done) rest

/-- Whether a character can be part of a number. -/
def isNumberPart (c : Char) : Bool :=
  c.isDigit || c = '-' || c = '+' || c = '.' || c = 'e' || c = 'E'

/-- Reads a number. -/
def readNumber (cs : List Char) : Option (Value × List Char) :=
  let written := cs.takeWhile isNumberPart
  let rest := cs.dropWhile isNumberPart
  (Decimal.read? written).map fun d =>
    if written.all (fun c => c.isDigit || c = '-') then
      (.int (if d.negative then -(d.digits : Int) else d.digits), rest)
    else (.float d.toFloat, rest)

mutual

/-- Reads a value, nested to at most the given depth. -/
def readValue : Nat → List Char → Option (Value × List Char)
  | 0, _ => none
  | depth + 1, cs =>
    match skipSpace cs with
    | 'n' :: 'u' :: 'l' :: 'l' :: rest => some (.null, rest)
    | 'N' :: 'a' :: 'N' :: rest => some (.float Binary.notANumber, rest)
    | 'I' :: 'n' :: 'f' :: 'i' :: 'n' :: 'i' :: 't' :: 'y' :: rest =>
      some (.float (Binary.infinity false), rest)
    | '-' :: 'I' :: 'n' :: 'f' :: 'i' :: 'n' :: 'i' :: 't' :: 'y' :: rest =>
      some (.float (Binary.infinity true), rest)
    | 't' :: 'r' :: 'u' :: 'e' :: rest => some (.bool true, rest)
    | 'f' :: 'a' :: 'l' :: 's' :: 'e' :: rest => some (.bool false, rest)
    | '"' :: rest => (readText none [] rest).map fun (s, rest) => (.str s, rest)
    | '[' :: rest =>
      match skipSpace rest with
      | ']' :: rest => some (.list [], rest)
      | rest => (readItems depth [] rest).map fun (items, rest) => (.list items, rest)
    | '\x7b' :: rest =>
      match skipSpace rest with
      | '\x7d' :: rest => some (.obj [], rest)
      | rest =>
        (readFields depth [] rest).map fun (fields, rest) =>
          (.obj (Fields.overlay [] fields), rest)
    | rest => readNumber rest

/-- Reads the items of a sequence up to its closing bracket. -/
def readItems : Nat → List Value → List Char → Option (List Value × List Char)
  | 0, _, _ => none
  | depth + 1, done, cs =>
    match readValue depth cs with
    | none => none
    | some (value, rest) =>
      match skipSpace rest with
      | ',' :: rest => readItems depth (value :: done) rest
      | ']' :: rest => some ((value :: done).reverse, rest)
      | _ => none

/-- Reads the fields of an object up to its closing bracket. -/
def readFields : Nat → Fields → List Char → Option (Fields × List Char)
  | 0, _, _ => none
  | depth + 1, done, cs =>
    match skipSpace cs with
    | '"' :: rest =>
      match readText none [] rest with
      | none => none
      | some (key, rest) =>
        match skipSpace rest with
        | ':' :: rest =>
          match readValue depth rest with
          | none => none
          | some (value, rest) =>
            match skipSpace rest with
            | ',' :: rest => readFields depth ((.text key, value) :: done) rest
            | '\x7d' :: rest => some (((.text key, value) :: done).reverse, rest)
            | _ => none
        | _ => none
    | _ => none

end

/-- Reads a JSON text that holds one value. -/
def read? (s : String) : Option Value :=
  match readValue (s.toList.length + 1) s.toList with
  | some (value, rest) => if (skipSpace rest).isEmpty then some value else none
  | none => none

end CallFlow.Json
