import CallFlow.Value.Key

/-!
# Document values

Configurations, editor graphs and settings are loosely typed documents:
any key may be missing, and any value may be of a kind nobody expected.
`Value` is what such a document is made of. It keeps the order in which
an object's fields were written, since that order survives saving, and it
keeps whole numbers apart from binary fractions, since the two are written
differently.

A document is read with lenient rules – a missing field reads as `null`,
a *blank* value (`Value.truthy` says which values are not) gives way to a
default – and a reading fails only where a value has no meaning at all for
what is asked of it. `Fault` names those causes, and `Outcome` is the
result of a reading that may meet one.
-/

namespace CallFlow

/-- A value of a document. -/
inductive Value where
  /-- Nothing. -/
  | null
  /-- A truth value. -/
  | bool (b : Bool)
  /-- A whole number, of any size. -/
  | int (n : Int)
  /-- A binary fraction, which may be infinite or not a number. -/
  | float (x : Float)
  /-- A text. -/
  | str (s : String)
  /-- A sequence of values. -/
  | list (items : List Value)
  /-- An object: its fields, in the order they were written. -/
  | obj (fields : List (Key × Value))
  deriving Inhabited

/-- The fields of an object, in order, with no two keys the same. -/
abbrev Fields := List (Key × Value)

/-- Why a document could not be read or edited as asked. -/
inductive Fault where
  /-- A value is of a kind the operation has no meaning for. -/
  | wrongKind
  /-- A field was asked of a value that is no object. -/
  | notAnObject
  /-- A value is of the right kind, and what it says means nothing. -/
  | badContent
  /-- An object lacks a field that has no default. -/
  | missingField
  /-- A number is too large for what it is used for. -/
  | tooLarge
  /-- A text or a sequence would be longer than any that can be held. -/
  | tooLong
  /-- There is no element at the place asked for. -/
  | outOfRange
  /-- A request is aimed at what cannot be a target. -/
  | badTarget
  deriving DecidableEq, Repr, Inhabited

/-- The result of a reading that may meet a fault. -/
abbrev Outcome (α : Type) := Except Fault α

/-- Outcomes can be compared where what they hold can be. -/
instance {α : Type} [DecidableEq α] : DecidableEq (Outcome α)
  | .ok a, .ok b => decidable_of_iff (a = b) (by simp)
  | .error a, .error b => decidable_of_iff (a = b) (by simp)
  | .ok _, .error _ => isFalse (by simp)
  | .error _, .ok _ => isFalse (by simp)

/-! ## Fields of an object -/

namespace Fields

/-- The value under a key, if the key is there. -/
def get? : Fields → Key → Option Value
  | [], _ => none
  | (k, v) :: rest, key => if k.same key then some v else get? rest key

/-- The value under a key; a missing key reads as `null`. -/
def get (fields : Fields) (key : Key) : Value := (get? fields key).getD .null

/-- Whether the key is there. -/
def has (fields : Fields) (key : Key) : Bool := (get? fields key).isSome

/-- The keys, in order. -/
def keys (fields : Fields) : List Key := fields.map Prod.fst

/-- Writes a value under a key: in place if the key is there, at the end
if it is not. -/
def put : Fields → Key → Value → Fields
  | [], key, value => [(key, value)]
  | (k, v) :: rest, key, value =>
    if k.same key then (k, value) :: rest else (k, v) :: put rest key value

/-- Removes a key. -/
def erase (fields : Fields) (key : Key) : Fields := fields.filter (fun f => !f.1.same key)

/-- Lays changes over fields, one after the other. -/
def overlay (fields changes : Fields) : Fields :=
  changes.foldl (fun acc f => put acc f.1 f.2) fields

@[simp] theorem get_nil (key : Key) : get [] key = .null := rfl

@[simp] theorem get?_put_self (fields : Fields) (key : Key) (value : Value) :
    get? (put fields key value) key = some value := by
  induction fields with
  | nil => simp [put, get?]
  | cons f rest ih =>
    obtain ⟨k, v⟩ := f
    by_cases h : k.same key = true <;> simp [put, get?, h, ih]

/-- Putting under one key changes no other. -/
theorem get?_put_of_ne (fields : Fields) {key other : Key} (value : Value)
    (hne : key.same other = false) : get? (put fields key value) other = get? fields other := by
  induction fields with
  | nil => simp [put, get?, hne]
  | cons f rest ih =>
    obtain ⟨k, v⟩ := f
    by_cases h : k.same key = true
    · have hk : k.same other = false := by
        by_cases ho : k.same other = true
        · exact absurd (Key.same_trans (Key.same_comm k key ▸ h) ho) (by simp [hne])
        · simpa using ho
      simp [put, get?, h, hk]
    · simp [put, get?, h, ih]

end Fields

namespace Value

/-! ## Blank values and defaults -/

/-- Whether a value says something: `null`, false, a zero, the empty text,
the empty sequence and the object without fields are **blank**. -/
def truthy : Value → Bool
  | null => false
  | bool b => b
  | int n => n != 0
  | float x => x != 0.0
  | str s => s != ""
  | list items => !items.isEmpty
  | obj fields => !fields.isEmpty

/-- The value itself, or a default where it is blank. -/
def orElse (value default : Value) : Value := if value.truthy then value else default

theorem orElse_of_truthy {value : Value} (h : value.truthy = true) (default : Value) :
    value.orElse default = value := by
  simp [orElse, h]

/-! ## Numbers and keys as values -/

/-- The number a value stands for, if it stands for one: true and false
stand for `1` and `0`. -/
def number? : Value → Option Number
  | bool b => some (.int (if b then 1 else 0))
  | int n => some (.int n)
  | float x => some (.float x)
  | _ => none

/-- A number as a value. -/
def ofNumber : Number → Value
  | .int n => int n
  | .float x => float x

/-- A key as a value. -/
def ofKey : Key → Value
  | .text s => str s
  | .null => null
  | .bool b => bool b
  | .number n => ofNumber n

/-! ## Looking into a value -/

/-- The fields of an object; anything else has none to ask for. -/
def object : Value → Outcome Fields
  | obj fields => .ok fields
  | _ => .error .notAnObject

/-- The fields of an object, if the value is one. -/
def object? : Value → Option Fields
  | obj fields => some fields
  | _ => none

/-- The fields of an object; anything else is read as an object without
fields. -/
def fieldsOrNone : Value → Fields
  | obj fields => fields
  | _ => []

/-- The fields of an object that states some of the given ones and no
others; null states none. -/
def statedAmong (value : Value) (known : Fields) : Outcome Fields :=
  match value with
  | null => .ok []
  | obj fields =>
    if fields.all (fun f => Fields.has known f.1) then .ok fields else .error .wrongKind
  | _ => .error .wrongKind

/-- What a value holds, one by one: the items of a sequence, the
characters of a text, the keys of an object. -/
def elements : Value → Outcome (List Value)
  | list items => .ok items
  | str s => .ok (s.toList.map (fun c => str (String.singleton c)))
  | obj fields => .ok (fields.map (fun f => ofKey f.1))
  | _ => .error .wrongKind

/-- The elements, where a blank value holds none. -/
def elementsOrNone (value : Value) : Outcome (List Value) :=
  if value.truthy then value.elements else .ok []

/-- How many elements a value holds. -/
def size : Value → Outcome Nat
  | list items => .ok items.length
  | str s => .ok s.length
  | obj fields => .ok fields.length
  | _ => .error .wrongKind

/-- Whether a value can be a member of a set of ids: sequences and objects
cannot. -/
def isAtom : Value → Bool
  | list _ => false
  | obj _ => false
  | _ => true

/-- The texts among a collection of ids. Every member has to be an atom;
atoms that are not texts equal no id and are left out. -/
def idSet (value : Value) : Outcome (List String) := do
  let members ← value.elements
  if members.all isAtom then
    return members.filterMap (fun | str s => some s | _ => none)
  else
    .error .wrongKind

/-- Whether the value is one of the ids. Only an atom can be asked for. -/
def isIdIn (value : Value) (ids : List String) : Outcome Bool :=
  match value with
  | str s => .ok (decide (s ∈ ids))
  | list _ => .error .wrongKind
  | obj _ => .error .wrongKind
  | _ => .ok false

/-! ## Reading a value as fields -/

/-- The key a value is. Only atoms are keys. -/
def asKey : Value → Outcome Key
  | str s => .ok (.text s)
  | null => .ok .null
  | bool b => .ok (.bool b)
  | int n => .ok (.number (.int n))
  | float x => .ok (.number (.float x))
  | _ => .error .wrongKind

/-- A key and its value, given as a collection of two elements. -/
def asField (value : Value) : Outcome (Key × Value) := do
  match ← value.elements with
  | [key, v] => return (← key.asKey, v)
  | _ => .error .badContent

/-- Fields to lay over an object: an object's own, or a collection of
pairs of key and value. -/
def asFields : Value → Outcome Fields
  | obj fields => .ok fields
  | value => do
    let pairs ← (← value.elements).mapM asField
    return Fields.overlay [] pairs

end Value

/-- The fields of every value in a sequence of objects. -/
def objects (values : List Value) : Outcome (List Fields) := values.mapM Value.object

/-- The objects among the values of a sequence. -/
def objectsAmong (values : List Value) : List Fields := values.filterMap Value.object?

/-! ## Equality is decidable -/

mutual

/-- Decides whether two values are the same value. -/
def Value.decEq : (a b : Value) → Decidable (a = b)
  | .null, .null => isTrue rfl
  | .bool a, .bool b => decidable_of_iff (a = b) (by simp)
  | .int a, .int b => decidable_of_iff (a = b) (by simp)
  | .float a, .float b => decidable_of_iff (a = b) (by simp)
  | .str a, .str b => decidable_of_iff (a = b) (by simp)
  | .list a, .list b =>
    match itemsDecEq a b with
    | isTrue h => isTrue (by rw [h])
    | isFalse h => isFalse (fun e => h (by injection e))
  | .obj a, .obj b =>
    match fieldsDecEq a b with
    | isTrue h => isTrue (by rw [h])
    | isFalse h => isFalse (fun e => h (by injection e))
  | .null, .bool _ | .null, .int _ | .null, .float _ | .null, .str _ | .null, .list _
  | .null, .obj _ | .bool _, .null | .bool _, .int _ | .bool _, .float _ | .bool _, .str _
  | .bool _, .list _ | .bool _, .obj _ | .int _, .null | .int _, .bool _ | .int _, .float _
  | .int _, .str _ | .int _, .list _ | .int _, .obj _ | .float _, .null | .float _, .bool _
  | .float _, .int _ | .float _, .str _ | .float _, .list _ | .float _, .obj _ | .str _, .null
  | .str _, .bool _ | .str _, .int _ | .str _, .float _ | .str _, .list _ | .str _, .obj _
  | .list _, .null | .list _, .bool _ | .list _, .int _ | .list _, .float _ | .list _, .str _
  | .list _, .obj _ | .obj _, .null | .obj _, .bool _ | .obj _, .int _ | .obj _, .float _
  | .obj _, .str _ | .obj _, .list _ => isFalse (by simp)

/-- Decides whether two sequences hold the same values. -/
def itemsDecEq : (a b : List Value) → Decidable (a = b)
  | [], [] => isTrue rfl
  | [], _ :: _ => isFalse (by simp)
  | _ :: _, [] => isFalse (by simp)
  | x :: xs, y :: ys =>
    match Value.decEq x y, itemsDecEq xs ys with
    | isTrue h, isTrue h' => isTrue (by rw [h, h'])
    | isFalse h, _ => isFalse (fun e => h (by injection e))
    | _, isFalse h => isFalse (fun e => h (by injection e))

/-- Decides whether two objects have the same fields in the same order. -/
def fieldsDecEq : (a b : Fields) → Decidable (a = b)
  | [], [] => isTrue rfl
  | [], _ :: _ => isFalse (by simp)
  | _ :: _, [] => isFalse (by simp)
  | (k, x) :: xs, (l, y) :: ys =>
    if hk : k = l then
      match Value.decEq x y, fieldsDecEq xs ys with
      | isTrue h, isTrue h' => isTrue (by rw [h, h', hk])
      | isFalse h, _ =>
        isFalse (fun e => h (by simp only [List.cons.injEq, Prod.mk.injEq] at e; exact e.1.2))
      | _, isFalse h => isFalse (fun e => h (by injection e))
    else isFalse (fun e => hk (by simp only [List.cons.injEq, Prod.mk.injEq] at e; exact e.1.1))

end

instance : DecidableEq Value := Value.decEq

end CallFlow
