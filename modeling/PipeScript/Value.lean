/-
Values of running scripts. Lists and dictionaries are shared: a value only refers to one, and its
contents are kept in the heap.
-/
import PipeScript.Builtin.Name
import PipeScript.Number.Integer
import PipeScript.Syntax

namespace PipeScript

/-- A list in the heap. -/
structure ListRef where
  index : Nat
deriving DecidableEq, Repr

/-- A dictionary in the heap. -/
structure DictRef where
  index : Nat
deriving DecidableEq, Repr

/-- What calling a function does: it is one of the language's own, or one of the host, which knows
it by a number. -/
inductive Callable.Body where
  | builtin (b : Builtin)
  | host (id : Nat)
deriving DecidableEq, Repr

/-- A function as a value. -/
structure Callable where
  name : String
  body : Callable.Body
deriving DecidableEq, Repr

namespace Callable

/-- A function of the language as a value, under its own name. -/
def ofBuiltin (b : Builtin) : Callable :=
  ⟨b.name, .builtin b⟩

end Callable

/-- A value of a running script. -/
inductive Value where
  | null
  | bool (b : Bool)
  | int (n : Int64)
  | float (x : Float)
  | str (s : String)
  | list (r : ListRef)
  | dict (r : DictRef)
  | function (f : Callable)
deriving DecidableEq

/-- The types of values. -/
inductive Kind where
  | null | bool | int | float | str | list | dict | function
deriving DecidableEq, Repr

namespace Kind

/-- The name of a type, as scripts and messages know it. -/
def name : Kind → String
  | .null => "null"
  | .bool => "bool"
  | .int => "int"
  | .float => "float"
  | .str => "str"
  | .list => "list"
  | .dict => "dict"
  | .function => "function"

end Kind

namespace Value

/-- The type of a value. -/
def kind : Value → Kind
  | .null => .null
  | .bool _ => .bool
  | .int _ => .int
  | .float _ => .float
  | .str _ => .str
  | .list _ => .list
  | .dict _ => .dict
  | .function _ => .function

/-- The value that a literal stands for. -/
def ofLiteral : Literal → Value
  | .null => .null
  | .boolean b => .bool b
  | .integer n => .int n
  | .float x => .float x
  | .string s => .str s

/-- The float of a number; an integer is rounded to the nearest. -/
def toFloat? : Value → Option Float
  | .int n => some (Integer.toFloat n)
  | .float x => some x
  | _ => none

/-- Integers and floats. -/
def isNumber (v : Value) : Bool :=
  v.toFloat?.isSome

theorem isNumber_iff {v : Value} : v.isNumber = true ↔ (∃ n, v = .int n) ∨ ∃ x, v = .float x := by
  cases v <;> simp [isNumber, toFloat?]

end Value

end PipeScript
