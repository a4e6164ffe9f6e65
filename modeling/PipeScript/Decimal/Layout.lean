/-
How floats are written. The digits are the shortest that read back, or all digits of a whole
number; a layout says which of the two, whether a whole number shows a point, and which magnitudes
are written with an exponent.
-/
import PipeScript.Decimal.Shortest

namespace PipeScript

/-- The choices between the ways to write a float. -/
structure Decimal.Layout where
  /-- A whole number shows all of its digits, and not the shortest ones followed by zeros. -/
  wholeExact : Bool
  /-- A whole number ends in `.0`. -/
  wholePoint : Bool
  /-- The powers of ten of the first digit that are written without an exponent. -/
  positional : Int → Bool

namespace Decimal

/-- Values as a script prints them: exact whole numbers with a point, and never an exponent. -/
def Layout.value : Layout := ⟨true, true, fun _ => true⟩

/-- Numbers within messages: shortest digits, no point after whole numbers, never an exponent. -/
def Layout.plain : Layout := ⟨false, false, fun _ => true⟩

/-- Floats in outlines of values and syntax trees: shortest digits, positional from `10 ^ -4` up
to `10 ^ 16`. -/
def Layout.outline : Layout := ⟨false, true, fun e => -4 ≤ e && e < 16⟩

/-- The power of ten of the first digit. -/
def leading (d : Decimal) : Int :=
  d.exponent + digitCount d.digits - 1

/-- The digits around the point, if the number has a fraction; `point` adds one to whole numbers. -/
def positional (point : Bool) (d : Decimal) : List Char :=
  let digits := Text.digitsOf d.digits
  if 0 ≤ d.exponent then
    digits ++ List.replicate d.exponent.toNat '0' ++ (if point then ['.', '0'] else [])
  else
    let places := (-d.exponent).toNat
    let padded := List.replicate (places + 1 - digits.length) '0' ++ digits
    padded.take (padded.length - places) ++ '.' :: padded.drop (padded.length - places)

/-- One digit before the point, and the power of ten after the letter e. -/
def scientific (d : Decimal) : List Char :=
  let e := d.leading
  let exponent := (if e < 0 then ['-'] else []) ++ Text.digitsOf e.natAbs
  match Text.digitsOf d.digits with
  | first :: [] => first :: 'e' :: exponent
  | first :: rest => first :: '.' :: rest ++ 'e' :: exponent
  | [] => exponent

/-- The text of the magnitude `m · 2 ^ q`. -/
def magnitudeText (layout : Layout) (m : Nat) (q : Int) : List Char :=
  if m = 0 then positional layout.wholePoint ⟨0, 0⟩
  else
    let (numerator, denominator) := Binary.fraction m q
    if layout.wholeExact ∧ numerator % denominator = 0 then
      positional layout.wholePoint ⟨numerator / denominator, 0⟩
    else
      let d := shortest m q
      if layout.positional d.leading then positional layout.wholePoint d else scientific d

/-- The text of a float. -/
def text (layout : Layout) (x : Float) : List Char :=
  match Binary.ofFloat x with
  | .notNumber => ['N', 'a', 'N']
  | .infinite negative => (if negative then ['-'] else []) ++ ['i', 'n', 'f']
  | .finite negative m q => (if negative then ['-'] else []) ++ magnitudeText layout m q

end Decimal

end PipeScript
