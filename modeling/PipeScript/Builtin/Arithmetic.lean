/-
Arithmetic. Integers stay integers as long as results fit, and become floats where they do not.
-/
import PipeScript.Builtin.Arguments
import PipeScript.Number.Binary

namespace PipeScript.Arithmetic

open Arguments

/-- Combines two numbers: as integers if both are and the result fits, else as floats. -/
def combine (whole : Int64 → Int64 → Option Int64) (real : Float → Float → Float) (a b : Value) :
    Except CallError Value := do
  match a, b with
  | .int x, .int y =>
    match whole x y with
    | some n => return .int n
    | none => return .float (real (Integer.toFloat x) (Integer.toFloat y))
  | a, b => return .float (real (← number a) (← number b))

/-- The sum of all arguments, added from the left. -/
def add (args : List Value) : Except CallError Value :=
  args.foldlM (combine Integer.add? (· + ·)) (.int 0)

/-- The difference of two numbers. -/
def sub (args : List Value) : Except CallError Value := do
  let (a, b) ← two args
  combine Integer.sub? (· - ·) a b

/-- The product of all arguments, multiplied from the left. That of none is zero. -/
def mul (args : List Value) : Except CallError Value :=
  if args = [] then .ok (.int 0)
  else args.foldlM (combine Integer.mul? (· * ·)) (.int 1)

/-- Whether a number is zero. -/
def isZero (v : Value) : Except CallError Bool := do
  return (← number v) == 0.0

/-- The quotient of two numbers as a float. Division by zero gives the integer zero. -/
def div (args : List Value) : Except CallError Value := do
  let (a, b) ← two args
  let dividend ← number a
  if ← isZero b then return .int 0
  return .float (dividend / (← number b))

/-- The remainder that has the sign of the divisor. That of a division by zero is the integer
zero. -/
def mod (args : List Value) : Except CallError Value := do
  let (a, b) ← two args
  let _ ← number a
  if ← isZero b then return .int 0
  combine (fun x y => some (Integer.floorMod x y)) Binary.floorMod a b

/-- The magnitude of a number. That of the least integer is a float. -/
def abs (args : List Value) : Except CallError Value := do
  match ← one args with
  | .int n =>
    match Integer.abs? n with
    | some m => return .int m
    | none => return .float (Integer.toFloat n).abs
  | v => return .float (← number v).abs

/-- The square root of a number that is not negative. -/
def sqrt (args : List Value) : Except CallError Value := do
  let x ← number (← one args)
  if x < 0.0 then throw (.value .domain)
  return .float x.sqrt

/-- The power of two numbers: exact for integers if it fits, else that of floats. -/
def pow (args : List Value) : Except CallError Value := do
  let (base, exponent) ← two args
  let whole := match base, exponent with
    | .int b, .int e => Integer.pow? b e
    | _, _ => none
  match whole with
  | some n => return .int n
  | none =>
    let b ← number base
    let e ← number exponent
    if b == 0.0 && e < 0.0 then throw (.value .zeroToNegativePower)
    let result := b.pow e
    if result.isNaN && !b.isNaN && !e.isNaN then throw (.value .domain)
    return .float result

/-- A number rounded to an integer. -/
def rounded (way : Binary.Rounding) (args : List Value) : Except CallError Value := do
  match ← one args with
  | .int n => return .int n
  | v =>
    let x ← number v
    match (Binary.round? way x).bind Integer.ofInt? with
    | some n => return .int n
    | none => throw (.value (.noInteger x))

/-- The nearest integer; a half goes to the even one. -/
def round : List Value → Except CallError Value := rounded .nearestEven

/-- The greatest integer that is no greater. -/
def floor : List Value → Except CallError Value := rounded .down

/-- The least integer that is no less. -/
def ceil : List Value → Except CallError Value := rounded .up

end PipeScript.Arithmetic
