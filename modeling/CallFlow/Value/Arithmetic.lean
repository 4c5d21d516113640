import CallFlow.Number.Arithmetic

/-!
# Arithmetic on values

Numbers of a document, and truth values among them, can be calculated with.
Texts and sequences have a part in it too: a whole number of times a text is
the text repeated, no times or fewer being the empty text, and the sum of
two texts is one behind the other; sequences likewise. Nothing else can be
added or multiplied.
-/

namespace CallFlow.Value

/-- The number a value stands for; other values stand for none. -/
def number (value : Value) : Outcome Number :=
  match value.number? with
  | some n => .ok n
  | none => .error .wrongKind

/-- The largest number of times something can be repeated, and the largest
length there is a number for. -/
def lastIndex : Nat := Nat.pow 2 63 - 1

/-- The length beyond which no text and no sequence is built. -/
def longest : Nat := Nat.pow 2 30

/-- Whether a number can say how often something is repeated. -/
def isCount (n : Int) : Bool := -(lastIndex + 1 : Int) ≤ n && n ≤ lastIndex

/-- A text or a sequence repeated. -/
def repeated (value : Value) (times : Int) : Outcome Value :=
  match value with
  | str s =>
    if !isCount times then .error .tooLarge
    else if s = "" then .ok (str "")
    else if lastIndex < s.length * times.toNat then .error .tooLarge
    else if longest < s.length * times.toNat then .error .tooLong
    else .ok (str (String.join (List.replicate times.toNat s)))
  | list items =>
    if !isCount times then .error .tooLarge
    else if items.isEmpty then .ok (list [])
    else if longest < items.length * times.toNat then .error .tooLong
    else .ok (list (List.replicate times.toNat items).flatten)
  | _ => .error .wrongKind

/-- The product of a number and a value. -/
def times (factor : Number) (value : Value) : Outcome Value :=
  match value.number?, factor with
  | some n, _ => ofNumber <$> factor.mul n
  | none, .int count => value.repeated count
  | none, .float _ => .error .wrongKind

/-- As many times a value as a count says. A count beyond the largest
fraction is infinite beside a fraction. -/
def timesCount (count : Nat) (value : Value) : Outcome Value :=
  match value.number? with
  | some n => .ok (ofNumber (n.times count))
  | none => value.repeated count

/-- The sum of two values. -/
def plus : Value → Value → Outcome Value
  | str s, str t => .ok (str (s ++ t))
  | list xs, list ys => .ok (list (xs ++ ys))
  | a, b => do return ofNumber (← (← a.number).add (← b.number))

end CallFlow.Value
