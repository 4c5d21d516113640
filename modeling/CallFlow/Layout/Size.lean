import CallFlow.Node.Kind

/-!
# Sizes of boxes

A node is drawn as a box. Its width depends on the kind of box alone; its
height grows with the transitions it shows, up to a number of rows, with
room for a note where there are more.
-/

namespace CallFlow

/-- The width and the height of a box. -/
structure BoxSize where
  /-- The width. -/
  width : Nat
  /-- The height. -/
  height : Nat
  deriving DecidableEq, Repr

namespace BoxSize

/-- How many transitions a box shows at most. -/
def shownRows : Nat := 5

/-- The height of the rows of transitions. -/
def rowsHeight (transitions : Nat) : Nat :=
  if transitions = 0 then 0
  else 24 + 24 * min transitions shownRows + (if shownRows < transitions then 20 else 0)

/-- The size of a box of a kind that shows some transitions. -/
def ofBox (box : String) (transitions : Nat) : BoxSize :=
  if box = NodeKind.endCall.box then ⟨220, 140⟩
  else if box = NodeKind.agentTransfer.box then ⟨280, 180⟩
  else if box = NodeKind.retrieveVariable.box ∨ box = NodeKind.apiCall.box then
    ⟨340, 156 + rowsHeight transitions⟩
  else ⟨340, 168 + rowsHeight transitions⟩

/-- The size of a box, the kind of box and the node's data given as
values. A kind that is no text is drawn as any box is. -/
def ofValues (box data : Value) : Outcome BoxSize := do
  let fields ← (data.orElse (.obj [])).object
  let transitions ← (Fields.get fields "transitions").elementsOrNone
  if !box.isAtom then .error .wrongKind
  else
    let name := match box with
      | .str name => name
      | _ => ""
    return ofBox name transitions.length

end BoxSize

end CallFlow
