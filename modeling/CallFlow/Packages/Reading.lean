import CallFlow.Http.Framework
import CallFlow.Packages.NumberText
import CallFlow.Value.Text

/-!
# A stand-in for pydantic

How values are read where the service is run. Texts are read strictly, numbers
and flags leniently: either may be written as a text. Of an object that is read
as a model every field is read, and if some cannot be, all that is wrong is
reported.
-/

namespace CallFlow

namespace Checked

/-- Finds one thing wrong. -/
def fail {α : Type} (kind : IssueKind) (place : List Place) : Checked α :=
  .error [⟨kind, place⟩]

/-- Collects the results of several checks; if some found issues, all
their issues. -/
def all {α : Type} : List (Checked α) → Checked (List α)
  | [] => .ok []
  | .ok a :: rest =>
    match all rest with
    | .ok more => .ok (a :: more)
    | .error issues => .error issues
  | .error issues :: rest =>
    match all rest with
    | .ok _ => .error issues
    | .error more => .error (issues ++ more)

end Checked

namespace Packages

/-! ## Single values -/

/-- Expects a text. -/
def text : Check := fun place value =>
  match value with
  | .str s => .ok (.str s)
  | _ => Checked.fail .textExpected place

/-- Lets null pass. -/
def nullable (check : Check) : Check := fun place value =>
  match value with
  | .null => .ok .null
  | value => check place value

/-- Expects one of some texts. -/
def oneOf (names : List String) : Check := fun place value =>
  match value with
  | .str s => if s ∈ names then .ok (.str s) else Checked.fail .notAllowed place
  | _ => Checked.fail .notAllowed place

/-- The words that say no, and those that say yes. -/
def flagWords : List (String × Bool) :=
  [("0", false), ("off", false), ("f", false), ("false", false), ("n", false), ("no", false),
    ("1", true), ("on", true), ("t", true), ("true", true), ("y", true), ("yes", true)]

/-- The bound of the whole numbers that are read as a flag, or as no flag;
numbers beyond it are not looked at. -/
def flagBound : Nat := Nat.pow 2 63

/-- Reads a whole number as a flag. -/
def flagOfWhole (place : List Place) (n : Int) : Checked Value :=
  if n = 0 then .ok (.bool false)
  else if n = 1 then .ok (.bool true)
  else Checked.fail .flagUnreadable place

/-- Reads a number as a flag. A fraction that is not whole is no flag at
all, and neither is a number beyond the bound. The bound below zero counts
as within when it is written whole. -/
def flagOfNumber (place : List Place) : Number → Checked Value
  | .int n =>
    if -(flagBound : Int) ≤ n ∧ n < flagBound then flagOfWhole place n
    else Checked.fail .flagExpected place
  | .float x =>
    match (Number.float x).reduced with
    | .int n =>
      if -(flagBound : Int) < n ∧ n < flagBound then flagOfWhole place n
      else Checked.fail .flagExpected place
    | .float _ => Checked.fail .flagExpected place

/-- Expects a flag: true or false, `0` or `1`, or a word. -/
def flag : Check := fun place value =>
  match value with
  | .bool b => .ok (.bool b)
  | .int n => flagOfNumber place (.int n)
  | .float x => flagOfNumber place (.float x)
  | .str s =>
    match flagWords.lookup (String.ofList (lowerPlain s.toList)) with
    | some b => .ok (.bool b)
    | none => Checked.fail .flagUnreadable place
  | _ => Checked.fail .flagExpected place

/-- Complains of a value that is a number in neither of two readings. -/
def neitherNumber (whole fraction : IssueKind) (place : List Place) : Checked Value :=
  .error [⟨whole, place ++ [.field "int"]⟩, ⟨fraction, place ++ [.field "float"]⟩]

/-- Expects a number. A text is read as a whole number if it can be. -/
def number : Check := fun place value =>
  match value with
  | .int n => .ok (.int n)
  | .float x => .ok (.float x)
  | .bool b => .ok (.int (if b then 1 else 0))
  | .str s =>
    match NumberText.whole s, NumberText.fraction? s with
    | .number n, _ => .ok (.int n)
    | _, some x => .ok (.float x)
    | .tooLong, none => neitherNumber .wholeTooLong .numberUnreadable place
    | .unreadable, none => neitherNumber .wholeUnreadable .numberUnreadable place
  | _ => neitherNumber .wholeExpected .numberExpected place

/-! ## Lists and objects -/

/-- Checks the items of a list, from an index on. -/
def itemsFrom (check : Check) (place : List Place) : Nat → List Value → List (Checked Value)
  | _, [] => []
  | index, value :: rest =>
    check (place ++ [.item index]) value :: itemsFrom check place (index + 1) rest

/-- Expects a list, and checks each of its items. -/
def listOf (check : Check) : Check := fun place value =>
  match value with
  | .list items => (Checked.all (itemsFrom check place 0 items)).map Value.list
  | _ => Checked.fail .listExpected place

/-- What is wrong with the keys of an object that have to be texts. -/
def keyIssues (kind : IssueKind) (place : List Place) (fields : Fields) : List Issue :=
  (fields.filter fun f => !f.1.isText).map fun f =>
    ⟨kind, place ++ [.field (String.ofList f.1.written)]⟩

/-- Expects an object, with texts for keys and any values. -/
def object : Check := fun place value =>
  match value with
  | .obj fields =>
    match keyIssues .textExpected place fields with
    | [] => .ok (.obj fields)
    | issues => .error issues
  | _ => Checked.fail .objectExpected place

/-- Checks a field of an object. -/
def readField (place : List Place) (fields : Fields) (f : Check.Field) : Checked (Key × Value) :=
  let here := place ++ [.field f.key]
  match Fields.get? fields f.key, f.default with
  | some value, _ => (f.check here value).map (fun v => (f.key, v))
  | none, some default => .ok (f.key, default)
  | none, none => Checked.fail .missing here

/-- Expects an object with the fields of a model. The model's fields come
first, then, if they are kept, those it does not declare. -/
def model (declared : List Check.Field) (keepsOthers : Bool) : Check := fun place value =>
  match value with
  | .obj fields =>
    match Checked.all (declared.map (readField place fields)),
      if keepsOthers then keyIssues .keyInvalid place fields else [] with
    | .ok reads, [] =>
      .ok (.obj (reads ++ if keepsOthers then Check.others declared fields else []))
    | .ok _, issues => .error issues
    | .error issues, more => .error (issues ++ more)
  | _ => Checked.fail .modelExpected place

end Packages

end CallFlow
