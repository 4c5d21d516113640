import CallFlow.Value.Basic

/-!
# Values that say the same

Two values *say the same* as follows: numbers by their value, whether
written whole or with a point, with false as `0` and true as `1`;
sequences item by item; objects field by field, in whatever order the
fields stand. This is looser than equality.

Where two values are compared by themselves and not as parts of others,
what is no number agrees with nothing: two values `agree` if they say the
same and are not of that kind. This decides whether a list of transitions
has changed.
-/

namespace CallFlow

mutual

/-- Whether two values say the same. -/
def Value.saysSame : Value → Value → Bool
  | .null, .null => true
  | .str s, .str t => s == t
  | .list xs, .list ys => itemsSaySame xs ys
  | .obj fs, .obj gs => fs.length == gs.length && fieldsSaySame fs gs
  | a, b =>
    match a.number?, b.number? with
    | some x, some y => x.same y
    | _, _ => false

/-- Whether two sequences say the same, item by item. -/
def itemsSaySame : List Value → List Value → Bool
  | [], [] => true
  | x :: xs, y :: ys => x.saysSame y && itemsSaySame xs ys
  | _, _ => false

/-- Whether every field says the same as one of the others. -/
def fieldsSaySame : Fields → Fields → Bool
  | [], _ => true
  | (k, v) :: rest, others =>
    (match Fields.get? others k with
      | some w => v.saysSame w
      | none => false) && fieldsSaySame rest others

end

/-- Whether a value is a number that is none. -/
def Value.isUndefined (value : Value) : Bool :=
  match value.number? with
  | some n => n.isUndefined
  | none => false

/-- Whether two values agree. -/
def Value.agrees (a b : Value) : Bool := a.saysSame b && !a.isUndefined

end CallFlow
