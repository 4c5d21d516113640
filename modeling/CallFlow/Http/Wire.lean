import CallFlow.Number.Binary
import CallFlow.Value.Basic

/-!
# Values on the wire

A request and its answer are sent as JSON. JSON has no form for a number that
is not finite, and null is sent in its place. The text of what is sent is
written in UTF-8, and a text somewhere in a value may have no form in that.
-/

namespace CallFlow

/-! ## Numbers -/

/-- Whether a fraction is finite. -/
def isFiniteFloat (x : Float) : Bool :=
  match Binary.shape x with
  | .finite _ _ _ => true
  | _ => false

mutual

/-- Whether every number in a value is finite. -/
def isFinite : Value → Bool
  | .float x => isFiniteFloat x
  | .list items => areFinite items
  | .obj fields => haveFinite fields
  | _ => true

/-- Whether every number in some items is finite. -/
def areFinite : List Value → Bool
  | [] => true
  | v :: rest => isFinite v && areFinite rest

/-- Whether every number in some fields is finite. -/
def haveFinite : Fields → Bool
  | [] => true
  | (_, v) :: rest => isFinite v && haveFinite rest

end

namespace Wire

mutual

/-- A value as it is sent: what is no finite number is null. -/
def sendable : Value → Value
  | .float x => if isFiniteFloat x then .float x else .null
  | .list items => .list (sendableItems items)
  | .obj fields => .obj (sendableFields fields)
  | value => value

/-- The items of a list as they are sent. -/
def sendableItems : List Value → List Value
  | [] => []
  | v :: rest => sendable v :: sendableItems rest

/-- The fields of an object as they are sent. -/
def sendableFields : Fields → Fields
  | [] => []
  | (k, v) :: rest => (k, sendable v) :: sendableFields rest

end

/-! ## Texts -/

/-- The text a key is, if it is one. -/
def textOfKey : Key → List String
  | .text s => [s]
  | _ => []

mutual

/-- The texts in a value, those it has for keys among them. -/
def texts : Value → List String
  | .str s => [s]
  | .list items => textsOfItems items
  | .obj fields => textsOfFields fields
  | _ => []

/-- The texts in some items. -/
def textsOfItems : List Value → List String
  | [] => []
  | v :: rest => texts v ++ textsOfItems rest

/-- The texts in some fields. -/
def textsOfFields : Fields → List String
  | [] => []
  | (k, v) :: rest => textOfKey k ++ texts v ++ textsOfFields rest

end

/-- Whether every text in a value is of a kind. -/
def allTexts (p : String → Bool) (value : Value) : Bool := (texts value).all p

end Wire

end CallFlow
