import CallFlow.Layout.Placement
import CallFlow.Settings.Basic
import CallFlow.Value.Arithmetic
import CallFlow.Text.UpperCase

/-!
# Options of an automatic layout

A layout runs down, to the right, up or to the left – `TB`, `LR`, `BT`,
`RL` – with distances that can be chosen. The options are handed on as they
were given and are read only where a layout is computed: a direction that
is none of the four then runs down, and a distance that is no number is a
fault.
-/

namespace CallFlow

/-- The directions of a layout. -/
inductive Direction where
  /-- From top to bottom. -/
  | down
  /-- From left to right. -/
  | right
  /-- From bottom to top. -/
  | up
  /-- From right to left. -/
  | left
  deriving DecidableEq, Repr

namespace Direction

/-- The directions, in their customary order. -/
def all : List Direction := [down, right, up, left]

/-- The name of a direction. -/
def name : Direction → String
  | down => "TB"
  | right => "LR"
  | up => "BT"
  | left => "RL"

/-- The direction of a name, if there is one. -/
def ofName? (name : String) : Option Direction := all.find? (fun d => d.name = name)

/-- The axis of a direction. -/
def flow : Direction → Flow
  | down => ⟨false, false⟩
  | right => ⟨true, false⟩
  | up => ⟨false, true⟩
  | left => ⟨true, true⟩

end Direction

/-- The options of a layout, as they were given. -/
structure LayoutOptions where
  /-- The direction. -/
  direction : Value := .str Direction.down.name
  /-- The width of a box nothing is known about. -/
  nodeWidth : Value := .float 340.0
  /-- The height of a box nothing is known about. -/
  nodeHeight : Value := .float 180.0
  /-- The distance between ranks. -/
  rankSpacing : Value := .float 350.0
  /-- The distance between the boxes of a rank. -/
  nodeSpacing : Value := .float 280.0
  /-- The distance from the edge of the canvas. -/
  margin : Value := .float 120.0

namespace LayoutOptions

/-- The default options, but for those an object states. -/
def ofFields (fields : Fields) : LayoutOptions :=
  let options : LayoutOptions := {}
  let stated (key : String) (value : Value) : Value := (Fields.get? fields key).getD value
  { direction := stated "direction" options.direction
    nodeWidth := stated "node_width" options.nodeWidth
    nodeHeight := stated "node_height" options.nodeHeight
    rankSpacing := stated "rank_spacing" options.rankSpacing
    nodeSpacing := stated "node_spacing" options.nodeSpacing
    margin := stated "margin" options.margin }

/-- The options of an installation, for a direction asked for. A blank
direction is the one of the installation, and one that is not known runs
down. -/
def ofSettings (settings : Settings) (direction : Value) : LayoutOptions :=
  let asked := direction.orElse (settings.layoutDirection.orElse (.str Direction.down.name))
  let resolved := (Direction.ofName? (UpperCase.ofText asked.text)).getD .down
  { direction := .str resolved.name
    rankSpacing := settings.layoutRankSpacing
    nodeSpacing := settings.layoutNodeSpacing }

/-- The axis of the direction. -/
def flow (options : LayoutOptions) : Outcome Flow :=
  match options.direction with
  | .str name => .ok ((Direction.ofName? name).getD .down).flow
  | .list _ => .error .wrongKind
  | .obj _ => .error .wrongKind
  | _ => .ok Direction.down.flow

/-- The distances, as binary fractions. -/
def spacing (options : LayoutOptions) : Outcome (Spacing Float) := do
  let margin ← (← options.margin.number).toFloat
  let node ← (← options.nodeSpacing.number).toFloat
  let rank ← (← options.rankSpacing.number).toFloat
  return { margin := margin, rank := rank, node := node }

/-- All options, as an object. -/
def toValue (options : LayoutOptions) : Value :=
  .obj [("direction", options.direction), ("node_width", options.nodeWidth),
    ("node_height", options.nodeHeight), ("rank_spacing", options.rankSpacing),
    ("node_spacing", options.nodeSpacing), ("margin", options.margin)]

/-- Reads options handed in. Null stands for the default ones, and an
object states some of them; a key that is no option is refused. -/
def ofValue (value : Value) : Outcome LayoutOptions :=
  ofFields <$> value.statedAmong (toValue {}).fieldsOrNone

end LayoutOptions

end CallFlow
