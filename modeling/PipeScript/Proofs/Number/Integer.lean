/-
Integers in decimal digits: the digits of a number spell it, and the literal of the digits of an
integer's magnitude is that integer, up to the minus sign that is read on its own.
-/
import PipeScript.Syntax

namespace PipeScript

namespace Text

theorem isDigit_of_mem_digitsOf {n : Nat} {c : Char} (hc : c ∈ digitsOf n) : c.isDigit :=
  Nat.isDigit_of_mem_toDigits (by decide) (by decide) hc

theorem digitsOf_ne_nil (n : Nat) : digitsOf n ≠ [] :=
  Nat.toDigits_ne_nil

theorem ofDigits_digitsOf (n : Nat) : ofDigits (digitsOf n) = n := by
  rw [ofDigits, digitsOf, ← Nat.ofDigitChars_eq_foldl, Nat.ofDigitChars_ten_toDigits]

theorem isDigits_iff {cs : List Char} : isDigits cs = true ↔ cs ≠ [] ∧ ∀ c ∈ cs, c.isDigit := by
  simp [isDigits]

/-- Digits without a sign are read as the number they spell. -/
theorem readWhole?_of_isDigits {cs : List Char} (hcs : isDigits cs = true) :
    readWhole? cs = some (ofDigits cs : Int) := by
  have hsign : spanSign cs = (false, cs) := by
    unfold spanSign
    split
    · simp [isDigits] at hcs
    · simp [isDigits] at hcs
    · rfl
  rw [readWhole?, hsign]
  simp [hcs]

end Text

namespace Literal

/-- The digits of a number that fits are the literal of that integer. -/
theorem ofNumber?_digitsOf {n : Nat} (hn : Integer.Fits n) :
    ofNumber? (Text.digitsOf n) = some (.integer (Int64.ofInt n)) := by
  have hpoint : '.' ∉ Text.digitsOf n := fun hc => by cases Text.isDigit_of_mem_digitsOf hc
  have hread : Integer.read? (Text.digitsOf n) = some (Int64.ofInt n) := by
    have hdigits : Text.isDigits (Text.digitsOf n) = true :=
      Text.isDigits_iff.2 ⟨Text.digitsOf_ne_nil n, fun c hc => Text.isDigit_of_mem_digitsOf hc⟩
    rw [Integer.read?, Text.readWhole?_of_isDigits hdigits, Text.ofDigits_digitsOf]
    simp [Integer.ofInt?, hn]
  simp [ofNumber?, hpoint, hread]

theorem fits_natAbs {a : Int64} (ha : a ≠ Int64.minValue) : Integer.Fits a.toInt.natAbs := by
  have hfits := Integer.fits_toInt a
  have hne : a.toInt ≠ -9223372036854775808 := fun h => ha (Int64.toInt_inj.1 h)
  unfold Integer.Fits at hfits ⊢
  omega

theorem ofNumber?_of_nonneg {a : Int64} (ha : 0 ≤ a.toInt) :
    ofNumber? (Text.digitsOf a.toInt.natAbs) = some (.integer a) := by
  have hfits : Integer.Fits a.toInt.natAbs := by
    rw [Int.natAbs_of_nonneg ha]
    exact Integer.fits_toInt a
  rw [ofNumber?_digitsOf hfits, Int.natAbs_of_nonneg ha, Int64.ofInt_toInt]

/-- The digits of a negative integer are the literal whose opposite it is, unless it is the least one. -/
theorem ofNumber?_of_neg {a : Int64} (ha : a.toInt < 0) (hne : a ≠ Int64.minValue) :
    ∃ l, ofNumber? (Text.digitsOf a.toInt.natAbs) = some l ∧ l.negate = .integer a := by
  refine ⟨_, ofNumber?_digitsOf (fits_natAbs hne), ?_⟩
  have hneg : Integer.neg? (Int64.ofInt a.toInt.natAbs) = some a := by
    rw [Integer.neg?, Integer.ofInt?_eq_some_iff, Integer.toInt_ofInt_of_fits (fits_natAbs hne)]
    omega
  rw [negate, hneg]

end Literal

end PipeScript
