/-
The shortest decimal of a float: of the decimals that lie within half a unit of the float, and so
read back as it, those with the fewest digits, and of these the nearest. All comparisons are
between whole numbers.

The search tries one digit, two digits and so on. With a given number of digits only the two
decimals around the float need a look: if any of that length lies in the interval, one of the two
does.
-/
import PipeScript.Number.Binary
import PipeScript.Text.Digits

namespace PipeScript

/-- The number `digits · 10 ^ exponent`. -/
structure Decimal where
  digits : Nat
  exponent : Int
deriving DecidableEq

namespace Decimal

/-- The number of decimal digits. -/
def digitCount (n : Nat) : Nat :=
  (Text.digitsOf n).length

/-- The power of ten `10 ^ n`. -/
def tenTo (n : Nat) : Nat :=
  Nat.pow 10 n

/-- How `digits · 10 ^ exponent` compares with `m · 2 ^ q`. -/
def compareBinary (d : Decimal) (m : Nat) (q : Int) : Ordering :=
  let (numerator, denominator) := Binary.fraction m q
  compare (d.digits * tenTo d.exponent.toNat * denominator)
    (numerator * tenTo (-d.exponent).toNat)

/-- The numbers that round to one float: between `low` and `high` times `2 ^ exponent`. -/
structure Interval where
  low : Nat
  high : Nat
  exponent : Int
  /-- Whether the two ends belong to it. -/
  closed : Bool

/-- The interval of the float `m · 2 ^ q`, in quarters of its unit. It reaches half a unit up and
half a unit down, but only a quarter down from a power of two, below which floats lie closer. Its
ends round to an even significand. -/
def Interval.around (m : Nat) (q : Int) : Interval where
  low := if m = Binary.leadingBit ∧ q ≠ Binary.leastExponent then 4 * m - 1 else 4 * m - 2
  high := 4 * m + 2
  exponent := q - 2
  closed := m % 2 == 0

/-- Whether a decimal lies in the interval. -/
def Interval.contains (i : Interval) (d : Decimal) : Bool :=
  let low := d.compareBinary i.low i.exponent
  let high := d.compareBinary i.high i.exponent
  if i.closed then low != .lt && high != .gt else low == .gt && high == .lt

/-- The power of ten of the first digit of `m · 2 ^ q`. -/
def leadingExponent (m : Nat) (q : Int) : Int :=
  let (numerator, denominator) := Binary.fraction m q
  if denominator ≤ numerator then digitCount (numerator / denominator) - 1
  else -digitCount ((denominator - 1) / numerator)

/-- The greatest multiple of `10 ^ p` that is no greater than `m · 2 ^ q`. -/
def below (m : Nat) (q p : Int) : Decimal :=
  let (numerator, denominator) := Binary.fraction m q
  ⟨numerator * tenTo (-p).toNat / (denominator * tenTo p.toNat), p⟩

/-- The next decimal of the same exponent. -/
def next (d : Decimal) : Decimal :=
  ⟨d.digits + 1, d.exponent⟩

/-- Of the two multiples of `10 ^ p` around `m · 2 ^ q`, the one that reads back as it, and the
nearer one if both do. From half way the upper one is taken. -/
def pick? (m : Nat) (q p : Int) : Option Decimal :=
  let d := below m q p
  let interval := Interval.around m q
  match interval.contains d, interval.contains d.next with
  | true, true =>
    if compareBinary ⟨2 * d.digits + 1, p⟩ (2 * m) q == .gt then some d else some d.next
  | true, false => some d
  | false, true => some d.next
  | false, false => none

/-- The first hit with the last digit at `10 ^ p`, or at one of the next places. -/
def search (m : Nat) (q : Int) : Nat → Int → Decimal
  | 0, p => below m q p
  | places + 1, p => (pick? m q p).getD (search m q places (p - 1))

/-- The decimal without trailing zeros among its digits. -/
def trimmed (d : Decimal) : Decimal :=
  if h : d.digits ≠ 0 ∧ d.digits % 10 = 0 then trimmed ⟨d.digits / 10, d.exponent + 1⟩ else d
termination_by d.digits
decreasing_by exact Nat.div_lt_self (Nat.pos_of_ne_zero h.1) (by decide)

/-- The shortest decimal that reads back as the float `m · 2 ^ q`. Seventeen digits always do. -/
def shortest (m : Nat) (q : Int) : Decimal :=
  (search m q 17 (leadingExponent m q)).trimmed

end Decimal

end PipeScript
