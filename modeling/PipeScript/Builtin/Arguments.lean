/-
Taking the arguments of a call apart: how many there are, and of which types. The first argument
that does not fit is reported.
-/
import PipeScript.Failure

namespace PipeScript.Arguments

/-- Exactly one argument. -/
def one : List Value → Except CallError Value
  | [a] => .ok a
  | args => .error (.arity "1" args.length)

/-- Exactly two arguments. -/
def two : List Value → Except CallError (Value × Value)
  | [a, b] => .ok (a, b)
  | args => .error (.arity "2" args.length)

/-- Exactly three arguments. -/
def three : List Value → Except CallError (Value × Value × Value)
  | [a, b, c] => .ok (a, b, c)
  | args => .error (.arity "3" args.length)

/-- Two arguments, or three; a third that is not given is null. -/
def twoOrThree : List Value → Except CallError (Value × Value × Value)
  | [a, b] => .ok (a, b, .null)
  | [a, b, c] => .ok (a, b, c)
  | args => .error (.arity "2 or 3" args.length)

/-- No argument, or one. -/
def atMostOne : List Value → Except CallError (Option Value)
  | [] => .ok none
  | [a] => .ok (some a)
  | args => .error (.arity "0 or 1" args.length)

/-- The float of a number. -/
def number (v : Value) : Except CallError Float :=
  match v.toFloat? with
  | some x => .ok x
  | none => .error (.mismatch "a number" v.kind)

/-- A text. -/
def text : Value → Except CallError String
  | .str s => .ok s
  | v => .error (.mismatch "str" v.kind)

/-- A list. -/
def list : Value → Except CallError ListRef
  | .list r => .ok r
  | v => .error (.mismatch "list" v.kind)

/-- A function. -/
def function : Value → Except CallError Callable
  | .function f => .ok f
  | v => .error (.mismatch "function" v.kind)

/-- A bound of a slice, which null leaves open. -/
def bound : Value → Except CallError (Option Int64)
  | .null => .ok none
  | .int n => .ok (some n)
  | v => .error (.mismatch "int or null" v.kind)

end PipeScript.Arguments
