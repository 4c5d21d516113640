import CallFlow.Value.Basic

/-!
# Settings

What an installation can choose: the grid on which nodes without a place of
their own are put, the node a workflow starts at when it names none, and
how an automatic layout runs. The settings are handed on as they were
given, so a number of the grid may be a whole number or a fraction.
-/

namespace CallFlow

/-- The settings of an installation. -/
structure Settings where
  /-- The width of a cell of the grid. -/
  gridCellWidth : Value := .float 400.0
  /-- The height of a cell of the grid. -/
  gridCellHeight : Value := .float 300.0
  /-- Where the first cell lies, across and down. -/
  gridOrigin : Value := .float 100.0
  /-- The node a workflow starts at when nothing else names one. -/
  defaultInitialNode : Value := .str "start"
  /-- The direction of an automatic layout. -/
  layoutDirection : Value := .str "TB"
  /-- The gap between two ranks of an automatic layout. -/
  layoutRankSpacing : Value := .float 350.0
  /-- The gap between two nodes of a rank. -/
  layoutNodeSpacing : Value := .float 280.0
  /-- How much is logged. -/
  logLevel : String := "INFO"
  /-- The pages that may use the service, as a regular expression. -/
  corsOriginRegex : String := "^https?://(localhost|127\\.0\\.0\\.1)(:\\d+)?$"

namespace Settings

/-- The default settings. -/
def default : Settings := {}

instance : Inhabited Settings := ⟨default⟩

/-- The default settings, but for those an object states. -/
def ofFields (fields : Fields) : Settings :=
  let stated (key : String) (value : Value) : Value := (Fields.get? fields key).getD value
  { default with
    gridCellWidth := stated "grid_cell_width" default.gridCellWidth
    gridCellHeight := stated "grid_cell_height" default.gridCellHeight
    gridOrigin := stated "grid_origin" default.gridOrigin
    defaultInitialNode := stated "default_initial_node" default.defaultInitialNode
    layoutDirection := stated "layout_direction" default.layoutDirection
    layoutRankSpacing := stated "layout_rank_spacing" default.layoutRankSpacing
    layoutNodeSpacing := stated "layout_node_spacing" default.layoutNodeSpacing }

/-- All settings, as an object. -/
def toValue (s : Settings) : Value :=
  .obj [("grid_cell_width", s.gridCellWidth), ("grid_cell_height", s.gridCellHeight),
    ("grid_origin", s.gridOrigin), ("default_initial_node", s.defaultInitialNode),
    ("layout_direction", s.layoutDirection), ("layout_rank_spacing", s.layoutRankSpacing),
    ("layout_node_spacing", s.layoutNodeSpacing), ("log_level", .str s.logLevel),
    ("cors_origin_regex", .str s.corsOriginRegex)]

/-- Reads settings handed in. Null stands for the default ones, and an
object states some of them; a key that is no setting is refused. -/
def ofValue (value : Value) : Outcome Settings :=
  ofFields <$> value.statedAmong default.toValue.fieldsOrNone

end Settings

end CallFlow
