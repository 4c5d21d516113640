import CallFlow.Settings.Basic
import CallFlow.Number.Decimal
import CallFlow.Text.UpperCase

/-!
# Settings from the environment

An installation states its settings in environment variables. A variable
that is not set leaves the default. The numbers are read generously, and
one that cannot be read is a fault; the direction and the log level are
put in upper case and are otherwise not looked at.
-/

namespace CallFlow

/-- Environment variables by name. -/
abbrev Environment := List (String × String)

namespace Environment

/-- The character that ends a name or a text of the environment, and so
stands in none. -/
def terminator : Char := '\x00'

/-- The character between a name and a text of the environment. -/
def separator : Char := '='

/-- A variable, if the environment can hold it. -/
def variableOf (name : String) (value : Value) : Outcome (String × String) :=
  match value with
  | .str text =>
    if name.toList.any (fun c => c = terminator || c = separator) ||
        text.toList.any (· = terminator) then .error .badContent
    else .ok (name, text)
  | _ => .error .wrongKind

/-- Reads an environment handed in; null stands for an empty one. -/
def ofValue : Value → Outcome Environment
  | .null => .ok []
  | .obj fields => fields.mapM fun (key, value) =>
    match key with
    | .text name => variableOf name value
    | _ => .error .wrongKind
  | _ => .error .wrongKind

end Environment

namespace Settings

/-- Reads a number of the environment. -/
def numberFrom (env : Environment) (name : String) (default : Value) : Outcome Value :=
  match env.lookup name with
  | none => .ok default
  | some text =>
    match readSetting? text with
    | some x => .ok (.float x)
    | none => .error .badContent

/-- Reads a text of the environment. -/
def textFrom (env : Environment) (name default : String) : String := (env.lookup name).getD default

/-- The settings an environment states. -/
def ofEnvironment (env : Environment) : Outcome Settings := do
  let width ← numberFrom env "CONSOLE_GRID_CELL_WIDTH" default.gridCellWidth
  let height ← numberFrom env "CONSOLE_GRID_CELL_HEIGHT" default.gridCellHeight
  let origin ← numberFrom env "CONSOLE_GRID_ORIGIN" default.gridOrigin
  let rankSpacing ← numberFrom env "CONSOLE_LAYOUT_RANK_SPACING" default.layoutRankSpacing
  let nodeSpacing ← numberFrom env "CONSOLE_LAYOUT_NODE_SPACING" default.layoutNodeSpacing
  let direction := match env.lookup "CONSOLE_LAYOUT_DIRECTION" with
    | some text => Value.str (UpperCase.ofText text)
    | none => default.layoutDirection
  let initialNode := match env.lookup "CONSOLE_DEFAULT_INITIAL_NODE" with
    | some text => Value.str text
    | none => default.defaultInitialNode
  return {
    gridCellWidth := width
    gridCellHeight := height
    gridOrigin := origin
    defaultInitialNode := initialNode
    layoutDirection := direction
    layoutRankSpacing := rankSpacing
    layoutNodeSpacing := nodeSpacing
    logLevel := UpperCase.ofText (textFrom env "CONSOLE_LOG_LEVEL" default.logLevel)
    corsOriginRegex := textFrom env "CONSOLE_CORS_ORIGIN_REGEX" default.corsOriginRegex }

end Settings

end CallFlow
