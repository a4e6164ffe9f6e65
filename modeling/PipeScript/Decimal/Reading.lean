/-
Reading floats: an optional sign, then digits with at most one point and an optional exponent, or
the name of an infinity or of no number at all. The nearest float is taken, ties to the even one.
-/
import PipeScript.Decimal.Shortest
import PipeScript.Text.Digits

namespace PipeScript.Decimal

open Text

/-- Reads what follows the digits: nothing, or the letter e, an optional sign and digits. -/
def readExponent? : List Char → Option Int
  | [] => some 0
  | c :: rest =>
    if c = 'e' ∨ c = 'E' then readWhole? rest else none

/-- Reads digits with at most one point among, before or after them, and an optional exponent. At
least one digit must stand before the exponent. -/
def read? (cs : List Char) : Option Decimal :=
  let (whole, afterWhole) := spanDigits cs
  let (part, afterPart) := match afterWhole with
    | '.' :: rest => spanDigits rest
    | _ => ([], afterWhole)
  if whole ++ part = [] then none
  else (readExponent? afterPart).map fun e => ⟨ofDigits (whole ++ part), e - part.length⟩

/-- The nearest float. Numbers far beyond the range of floats are decided by their size alone, so
that no huge power is ever formed. -/
def toFloat (d : Decimal) : Float :=
  let size := d.exponent + digitCount d.digits
  if d.digits = 0 ∨ size < -400 then 0.0
  else if 400 < size then 1.0 / 0.0
  else Float.ofScientific d.digits (d.exponent < 0) d.exponent.natAbs

/-- Reads a float without a sign. -/
def readMagnitude? (cs : List Char) : Option Float :=
  let word := String.ofList (cs.map Char.toLower)
  if word = "inf" ∨ word = "infinity" then some (1.0 / 0.0)
  else if word = "nan" then some (0.0 / 0.0)
  else (read? cs).map toFloat

/-- Reads a float. -/
def readFloat? (cs : List Char) : Option Float :=
  let (negative, magnitude) := spanSign cs
  (readMagnitude? magnitude).map fun x => if negative then -x else x

end PipeScript.Decimal
