/-
Syntax trees of scripts. A script is a list of statements; statements and expressions are the same
kind of node.
-/
import PipeScript.Decimal.Reading
import PipeScript.Number.Integer

namespace PipeScript

/-- A value written in the source. -/
inductive Literal where
  | null
  | boolean (b : Bool)
  | integer (n : Int64)
  | float (x : Float)
  | string (s : String)
deriving DecidableEq

namespace Literal

/-- The literal of the text of a number. Text without a point is an integer, unless it does not
fit; text that is no number at all gives nothing. -/
def ofNumber? (text : List Char) : Option Literal :=
  if text.contains '.' then (Decimal.readFloat? text).map .float
  else match Integer.read? text with
    | some n => some (.integer n)
    | none => (Decimal.readFloat? text).map .float

/-- The literal after a minus sign. The least integer has no opposite and becomes a float; what is
no number stays as it is. -/
def negate : Literal → Literal
  | .integer n =>
    match Integer.neg? n with
    | some m => .integer m
    | none => .float (-Integer.toFloat n)
  | .float x => .float (-x)
  | l => l

end Literal

/-- An expression or statement. -/
inductive Node where
  | literal (value : Literal)
  /-- The value bound to a name. -/
  | variable (name : String)
  /-- A call of a function with the values of its arguments. -/
  | call (name : String) (args : List Node)
  /-- Binds a name to a value, and has that value. -/
  | assign (name : String) (value : Node)

namespace Node

/-- The literal null, which also stands for what could not be read. -/
def null : Node :=
  .literal .null

end Node

/-- A script: its statements in order. -/
abbrev Program := List Node

end PipeScript
