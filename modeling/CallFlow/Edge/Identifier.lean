import CallFlow.Number.Decimal
import CallFlow.Value.Arithmetic
import CallFlow.Value.Text

/-!
# Ids of edges

An edge is identified by its two ends and an ordinal, joined by hyphens.
Ends may contain hyphens too, so different edges can spell the same id, and
whoever hands out ids keeps the ones already *taken*: a spelling that is
taken gives way to the next ordinal that is free. Ordinals have different
spellings, so among one more ordinals than there are taken ids one is free,
and the search needs to go no further.
-/

namespace CallFlow.EdgeId

/-- The id of the edge between two ends with an ordinal. -/
def spell (source target : String) (ordinal : Int) : String :=
  source ++ "-" ++ target ++ "-" ++ String.ofList (intText ordinal)

/-- The first ordinal, from a given one on, whose id is free; at most
`fuel` ordinals are passed over. -/
def firstFree (taken : List String) (source target : String) : Nat → Int → Int
  | 0, ordinal => ordinal
  | fuel + 1, ordinal =>
    if spell source target ordinal ∈ taken then
      firstFree taken source target fuel (ordinal + 1)
    else ordinal

/-- Hands out the first free id, and says which ids are taken then. -/
def allocate (taken : List String) (source target : String) (ordinal : Int) :
    String × List String :=
  let id := spell source target (firstFree taken source target taken.length ordinal)
  (id, id :: taken)

/-- Hands out an id where ids may or may not be kept track of: without the
taken ids, the ordinal is used as it is. -/
def issue (taken : Option (List String)) (source target : String) (ordinal : Int) :
    String × Option (List String) :=
  match taken with
  | none => (spell source target ordinal, none)
  | some ids =>
    let (id, ids) := allocate ids source target ordinal
    (id, some ids)

/-! ## Ordinals handed in as values

The ordinals of edges are counts, and as short as counts are. One that is
handed in may be of any kind, and as long as a number can be: a whole number
of too many digits is not written, and spells no id.
-/

/-- What an ordinal of any kind is written as. -/
def ordinalText : Value → Outcome String
  | .int n => if isWritable n then .ok (Value.int n).text else .error .badContent
  | ordinal => .ok ordinal.text

/-- The id of the edge between two ends with an ordinal of any kind. -/
def spellAny (source target : String) (ordinal : Value) : Outcome String := do
  return source ++ "-" ++ target ++ "-" ++ (← ordinalText ordinal)

/-- The first free id, from a given ordinal on; at most `fuel` ordinals are
passed over. Only numbers have an ordinal behind them. -/
def firstFreeAny (taken : List String) (source target : String) : Nat → Value → Outcome String
  | 0, ordinal => spellAny source target ordinal
  | fuel + 1, ordinal => do
    let id ← spellAny source target ordinal
    if id ∈ taken then firstFreeAny taken source target fuel (← ordinal.plus (.int 1))
    else return id

/-- Hands out an id for an ordinal of any kind. -/
def issueAny (taken : Option (List String)) (source target : String) (ordinal : Value) :
    Outcome (String × Option (List String)) := do
  match taken with
  | none => return (← spellAny source target ordinal, none)
  | some ids =>
    let id ← firstFreeAny ids source target ids.length ordinal
    return (id, some (id :: ids))

theorem spellAny_int (source target : String) (n : Int) :
    spellAny source target (.int n)
      = if isWritable n then .ok (spell source target n) else .error .badContent := by
  rw [spellAny, ordinalText]
  split <;> rfl

end CallFlow.EdgeId
