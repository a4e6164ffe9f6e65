/-
Floats taken apart: sign, significand and power of two, as the sixty-four bits denote them. What
has to be exact about floats is computed on these whole numbers: rounding to an integer, and the
remainder of a division.
-/
namespace PipeScript

/-- What a float denotes: nothing, an infinity, or `± significand · 2 ^ exponent`. -/
inductive Binary where
  | notNumber
  | infinite (negative : Bool)
  | finite (negative : Bool) (significand : Nat) (exponent : Int)
deriving DecidableEq

namespace Binary

/-- The least exponent, that of the floats next to zero. -/
def leastExponent : Int := -1074

/-- The highest bit of a normal significand, `2 ^ 52`. -/
def leadingBit : Nat := 0x10000000000000

/-- The bit of the sign, `2 ^ 63`. -/
def signBit : Nat := 0x8000000000000000

/-- The parts of a float. Below the sign stand eleven bits that give the exponent, and the
significand less its leading bit; the smallest floats have no leading bit. -/
def ofFloat (x : Float) : Binary :=
  let bits := x.toBits.toNat
  let negative := decide (signBit ≤ bits)
  let field := bits / leadingBit % 2048
  let fraction := bits % leadingBit
  if field = 2047 then if fraction = 0 then .infinite negative else .notNumber
  else if field = 0 then .finite negative fraction leastExponent
  else .finite negative (leadingBit + fraction) ((field : Int) - 1075)

/-- The float `± significand · 2 ^ exponent`, for a significand of at most fifty-three bits and an
exponent in the range of floats. The significand is moved left as far as the least exponent and
fifty-three bits allow. -/
def finiteFloat (negative : Bool) (significand : Nat) (exponent : Int) : Float :=
  let shift := min (52 - significand.log2) (exponent - leastExponent).toNat
  let m := significand <<< shift
  let field := if m < leadingBit then 0 else (exponent - shift + 1075).toNat
  let magnitude := field * leadingBit + m % leadingBit
  Float.ofBits (UInt64.ofNat (if negative then signBit + magnitude else magnitude))

/-- The number `m · 2 ^ q` as a fraction: numerator, and a power of two as denominator. -/
def fraction (m : Nat) (q : Int) : Nat × Nat :=
  (m <<< q.toNat, 1 <<< (-q).toNat)

/-- Ways to round a fraction to a whole number. -/
inductive Rounding where
  | down
  | up
  | nearestEven

/-- The whole number that a fraction rounds to. A half goes to the even neighbour. -/
def Rounding.apply (way : Rounding) (numerator : Int) (denominator : Nat) : Int :=
  let below := numerator.fdiv denominator
  let excess := numerator - below * denominator
  match way with
  | .down => below
  | .up => if excess = 0 then below else below + 1
  | .nearestEven =>
    if 2 * excess < denominator ∨ (2 * excess = denominator ∧ below % 2 = 0) then below else below + 1

/-- The whole number that a float rounds to, if it is finite. -/
def round? (way : Rounding) (x : Float) : Option Int :=
  match ofFloat x with
  | .finite negative m q =>
    let (numerator, denominator) := fraction m q
    some (way.apply (if negative then -numerator else numerator) denominator)
  | _ => none

/-- The remainder of the division toward zero, exact, with the sign of the dividend. There is none
for an infinite dividend or a zero divisor; an infinite divisor leaves the dividend. -/
def remainder (x y : Float) : Float :=
  match ofFloat x, ofFloat y with
  | .finite negative m q, .finite _ n p =>
    if n = 0 then 0.0 / 0.0
    else
      let least := min q p
      let r := (m <<< (q - least).toNat) % (n <<< (p - least).toNat)
      finiteFloat negative r least
  | .finite .., .infinite _ => x
  | _, _ => 0.0 / 0.0

/-- The remainder that is zero or has the sign of the divisor. -/
def floorMod (x y : Float) : Float :=
  let r := remainder x y
  if r != 0.0 && (decide (r < 0.0) != decide (y < 0.0)) then r + y else r

end Binary

end PipeScript
