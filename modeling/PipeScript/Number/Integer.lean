/-
Integers of sixty-four bits. No operation wraps: each gives its exact result, or nothing where the
result does not fit.
-/
import PipeScript.Text.Digits

namespace PipeScript.Integer

/-- Whether a whole number is one of the integers from `-2 ^ 63` to `2 ^ 63 - 1`. -/
def Fits (n : Int) : Prop :=
  -9223372036854775808 ≤ n ∧ n ≤ 9223372036854775807

instance (n : Int) : Decidable (Fits n) :=
  inferInstanceAs (Decidable (_ ∧ _))

/-- The integer with the given value, if it fits. -/
def ofInt? (n : Int) : Option Int64 :=
  if Fits n then some (Int64.ofInt n) else none

theorem fits_toInt (a : Int64) : Fits a.toInt :=
  ⟨Int64.le_toInt a, Int.le_of_lt_add_one (Int64.toInt_lt a)⟩

theorem toInt_ofInt_of_fits {n : Int} (h : Fits n) : (Int64.ofInt n).toInt = n :=
  Int64.toInt_ofInt_of_le h.1 (Int.lt_add_one_of_le h.2)

theorem ofInt?_of_fits {n : Int} (h : Fits n) : ofInt? n = some (Int64.ofInt n) :=
  if_pos h

/-- The value of what `ofInt?` gives is the number it was given. -/
theorem ofInt?_eq_some_iff {n : Int} {a : Int64} : ofInt? n = some a ↔ a.toInt = n := by
  unfold ofInt?
  constructor
  · intro h
    split at h
    · next hn => cases h; exact toInt_ofInt_of_fits hn
    · cases h
  · rintro rfl
    simp [fits_toInt]

theorem ofInt?_eq_none_iff {n : Int} : ofInt? n = none ↔ ¬Fits n := by
  simp [ofInt?]

/-- The sum, if it fits. -/
def add? (a b : Int64) : Option Int64 :=
  ofInt? (a.toInt + b.toInt)

/-- The difference, if it fits. -/
def sub? (a b : Int64) : Option Int64 :=
  ofInt? (a.toInt - b.toInt)

/-- The product, if it fits. -/
def mul? (a b : Int64) : Option Int64 :=
  ofInt? (a.toInt * b.toInt)

/-- The integer with the other sign, if it fits. -/
def neg? (a : Int64) : Option Int64 :=
  ofInt? (-a.toInt)

/-- The magnitude, if it fits. -/
def abs? (a : Int64) : Option Int64 :=
  ofInt? a.toInt.natAbs

/-- The remainder that is zero or has the sign of the divisor: the one that division toward zero
leaves, moved by one divisor if it has the other sign. -/
def floorMod (a b : Int64) : Int64 :=
  let r := a % b
  if r ≠ 0 ∧ (decide (r < 0) ≠ decide (b < 0)) then r + b else r

/-- The power of a whole number, if it fits. A base beyond one in magnitude outgrows every integer
within sixty-four factors, so that no long product is ever formed. -/
def power? (base : Int) (exponent : Nat) : Option Int64 :=
  if base.natAbs ≤ 1 then
    if exponent = 0 ∨ (base = -1 ∧ exponent % 2 = 0) then ofInt? 1 else ofInt? base
  else if exponent < 64 then ofInt? (Int.pow base exponent)
  else none

/-- The power, if it fits and the exponent is neither negative nor of more than thirty-two bits. -/
def pow? (base exponent : Int64) : Option Int64 :=
  let e := exponent.toInt
  if 0 ≤ e ∧ e ≤ 4294967295 then power? base.toInt e.toNat else none

/-- The nearest float, ties to the even one. -/
def toFloat (a : Int64) : Float :=
  Float.ofInt a.toInt

/-- The integer that a text spells, if it fits. -/
def read? (cs : List Char) : Option Int64 :=
  (Text.readWhole? cs).bind ofInt?

/-- The decimal text. -/
def text (a : Int64) : List Char :=
  (if a.toInt < 0 then ['-'] else []) ++ Text.digitsOf a.toInt.natAbs

end PipeScript.Integer
