import CallFlow.Number.Basic

/-!
# Keys

The fields of an object stand under *keys*. Where a document is read, keys
are texts. Where an edit states fields as pairs, though, the first of a pair
may be any atom – a number, a truth value, nothing – and is a key as it is.

Two keys are the *same* if they count for the same: a number by its value,
and a truth value as `0` or `1`. An object has no two of its keys the same,
and keeps the one it had first. Most keys are texts by far, and a text can
be written where a key is expected.
-/

namespace CallFlow

/-- What a field stands under. -/
inductive Key where
  /-- A text. -/
  | text (s : String)
  /-- Nothing. -/
  | null
  /-- A truth value. -/
  | bool (b : Bool)
  /-- A number. -/
  | number (n : Number)
  deriving DecidableEq

instance : Coe String Key := ⟨Key.text⟩

namespace Key

/-- The form that all keys that count for the same share. -/
def reduced : Key → Key
  | text s => text s
  | null => null
  | bool b => number (.int (if b then 1 else 0))
  | number n => number n.reduced

/-- Whether two keys are the same. -/
def same (a b : Key) : Bool := a.reduced = b.reduced

/-- Whether a key is a text. -/
def isText : Key → Bool
  | text _ => true
  | _ => false

@[simp] theorem same_self (k : Key) : k.same k = true := by simp [same]

theorem same_comm (a b : Key) : a.same b = b.same a := by simp [same, eq_comm]

theorem same_trans {a b c : Key} (h : a.same b = true) (h' : b.same c = true) :
    a.same c = true := by
  simp only [same, decide_eq_true_eq] at *
  exact h.trans h'

@[simp] theorem same_text {k : Key} {s : String} : k.same (text s) = true ↔ k = text s := by
  cases k <;> simp [same, reduced]

@[simp] theorem text_same_text (s t : String) : (text s).same (text t) = decide (s = t) := by
  simp [same, reduced]

end Key

end CallFlow
