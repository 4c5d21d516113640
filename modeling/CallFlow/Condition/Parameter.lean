import CallFlow.Condition.Basic
import CallFlow.Text.Blank
import CallFlow.Text.Pieces

/-!
# Parameters with parts

Two kinds of parameters have parts of their own: a list of variable names,
separated by commas, and a variable with the value it should have, joined
by an equals sign. Blank characters around a part do not count, and an
empty name in a list is no name.
-/

namespace CallFlow.Parameter

/-- The variable names in a parameter. -/
def names (parameter : String) : List String :=
  ((pieces ',' parameter.toList).map (Blank.trim Blank.isBlank)).filterMap
    (fun piece => if piece.isEmpty then none else some (String.ofList piece))

/-- Joins names to a parameter. -/
def joinNames (names : List String) : String := ",".intercalate names

/-- The variable in a parameter, and the value it should have. -/
def pair (parameter : String) : String × String :=
  (Blank.strip (String.ofList (parameter.toList.takeWhile (· ≠ '='))),
    Blank.strip (String.ofList ((parameter.toList.dropWhile (· ≠ '=')).drop 1)))

/-- Joins a variable and a value to a parameter. -/
def joinPair (p : String × String) : String := p.1 ++ "=" ++ p.2

end CallFlow.Parameter
