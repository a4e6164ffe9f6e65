/-
Types of values, conversions between them, and truth.
-/
import PipeScript.Builtin.Arguments
import PipeScript.Decimal.Reading
import PipeScript.Heap.Display
import PipeScript.Text.Blank

namespace PipeScript.Kinds

open Arguments

/-- The name of the type of a value. -/
def typeof (args : List Value) : Except CallError Value := do
  return .str (← one args).kind.name

/-- The text of a value. -/
def tostring (h : Heap) (args : List Value) : Except CallError Value := do
  return .str (h.text (← one args))

/-- The float that a text spells between blanks. Values that are no texts stay as they are. -/
def tonumber (args : List Value) : Except CallError Value := do
  match ← one args with
  | .str s =>
    match Decimal.readFloat? (Text.trim s.toList) with
    | some x => return .float x
    | none => throw (.value (.notNumeric s))
  | v => return v

/-- The truth of a value. -/
def tobool (h : Heap) (args : List Value) : Except CallError Value := do
  return .bool (h.truthy (← one args))

/-- Whether a value is null. -/
def isnull (args : List Value) : Except CallError Value := do
  return .bool ((← one args).kind = .null)

/-- Whether all arguments are true. -/
def and (h : Heap) (args : List Value) : Except CallError Value :=
  .ok (.bool (args.all h.truthy))

/-- Whether some argument is true. -/
def or (h : Heap) (args : List Value) : Except CallError Value :=
  .ok (.bool (args.any h.truthy))

/-- Whether a value is not true. -/
def not (h : Heap) (args : List Value) : Except CallError Value := do
  return .bool (!h.truthy (← one args))

end PipeScript.Kinds
