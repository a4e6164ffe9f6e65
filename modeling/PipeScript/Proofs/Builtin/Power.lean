/-
Powers of integers. What is computed for a power is the exact one if it is an integer, since a base beyond
one in magnitude outgrows all integers within sixty-four factors. The function of the language takes that
way for exponents of at most thirty-two bits. So it answers every power that is an integer, but those of
minus one, zero and one to greater exponents, which it computes as floats.
-/
import Mathlib.Algebra.Order.Ring.Abs
import Mathlib.Algebra.Ring.Parity
import Mathlib.Tactic.Ring
import PipeScript.Builtin.Call
import PipeScript.Proofs.Run

namespace PipeScript

namespace Integer

/-- Within sixty-four factors a base beyond one in magnitude outgrows all integers. -/
theorem not_fits_pow {base : Int} {exponent : Nat} (hbase : 1 < base.natAbs) (hexponent : 64 ≤ exponent) :
    ¬Fits (base ^ exponent) := by
  intro hfits
  have hmagnitude : (base ^ exponent).natAbs ≤ 9223372036854775808 := by
    unfold Fits at hfits
    omega
  have hgrown : 2 ^ 64 ≤ (base ^ exponent).natAbs := by
    rw [Int.natAbs_pow]
    calc 2 ^ 64 ≤ 2 ^ exponent := Nat.pow_le_pow_right (by decide) hexponent
      _ ≤ base.natAbs ^ exponent := Nat.pow_le_pow_left hbase exponent
  omega

/-- The powers of a base of at most one in magnitude. -/
theorem pow_of_natAbs_le_one {base : Int} (hbase : base.natAbs ≤ 1) (exponent : Nat) :
    base ^ exponent = if exponent = 0 ∨ (base = -1 ∧ exponent % 2 = 0) then 1 else base := by
  obtain rfl | hexponent := Nat.eq_zero_or_pos exponent
  · simp
  have hcases : base = -1 ∨ base = 0 ∨ base = 1 := by omega
  rcases hcases with rfl | rfl | rfl
  · rcases Nat.even_or_odd exponent with heven | hodd
    · rw [heven.neg_one_pow, if_pos (.inr ⟨rfl, Nat.even_iff.1 heven⟩)]
    · have hmod := Nat.odd_iff.1 hodd
      rw [hodd.neg_one_pow, if_neg (by omega)]
  · rw [zero_pow hexponent.ne', if_neg (by omega)]
  · simp

/-- The power is exact if it fits, and there is none otherwise. -/
theorem power?_eq (base : Int) (exponent : Nat) : power? base exponent = ofInt? (base ^ exponent) := by
  unfold power?
  split
  · next hbase =>
    rw [pow_of_natAbs_le_one hbase]
    split <;> rfl
  · next hbase =>
    split
    · rfl
    · next hexponent =>
      exact (ofInt?_eq_none_iff.2 (not_fits_pow (by omega) (by omega))).symm

/-- Which integers are answered as powers. The width of the exponent matters to small bases only. -/
theorem pow?_eq_some_iff {base exponent n : Int64} (hexponent : 0 ≤ exponent.toInt) :
    pow? base exponent = some n ↔ n.toInt = base.toInt ^ exponent.toInt.toNat ∧
      (exponent.toInt ≤ 4294967295 ∨ 1 < base.toInt.natAbs) := by
  simp only [pow?, power?_eq]
  split
  · next hwidth =>
    rw [ofInt?_eq_some_iff]
    exact ⟨fun h => ⟨h, .inl hwidth.2⟩, fun h => h.1⟩
  · next hwidth =>
    refine ⟨nofun, fun ⟨hn, hor⟩ => ?_⟩
    have hbase : 1 < base.toInt.natAbs := hor.resolve_left fun hle => hwidth ⟨hexponent, hle⟩
    have hfits : Fits (base.toInt ^ exponent.toInt.toNat) := hn ▸ fits_toInt n
    exact absurd hfits (not_fits_pow hbase (by omega))

end Integer

/-- The power of two integers is answered as an integer only if it was computed as one. -/
theorem Arithmetic.pow_eq_int_iff {b e n : Int64} :
    Arithmetic.pow [.int b, .int e] = .ok (.int n) ↔ Integer.pow? b e = some n := by
  constructor
  · intro h
    simp only [Arithmetic.pow, Arguments.two, bind, Except.bind] at h
    cases hp : Integer.pow? b e with
    | some m =>
      rw [hp] at h
      cases h
      rfl
    | none =>
      -- what is computed from here on is a float or fails
      rw [hp] at h
      simp only [Arguments.number, Value.toFloat?] at h
      split at h
      · cases h
      · split at h <;> cases h
  · intro h
    simp only [Arithmetic.pow, Arguments.two, bind, Except.bind, h]
    rfl

variable {σ : Type}

namespace Builtin

/-- The answer to a base and an exponent that is not negative is the integer `n` exactly if `n` is the power,
and the exponent has at most thirty-two bits or the base is beyond one in magnitude. -/
theorem run_pow_eq_int_iff {b e : Int64} (he : 0 ≤ e.toInt) (n : Int64) (fuel : Nat) (call : Caller σ)
    (w : World σ) : (pow.run fuel call [.int b, .int e]).run.run w = (.ok (.int n), w) ↔
      n.toInt = b.toInt ^ e.toInt.toNat ∧ (e.toInt ≤ 4294967295 ∨ 1 < b.toInt.natAbs) := by
  calc (pow.run fuel call [.int b, .int e]).run.run w = (.ok (.int n), w)
      ↔ Arithmetic.pow [.int b, .int e] = .ok (.int n) := Run.run_ofExcept_eq_ok_iff
    _ ↔ Integer.pow? b e = Option.some n := Arithmetic.pow_eq_int_iff
    _ ↔ _ := Integer.pow?_eq_some_iff he

/-- Minus two to the sixty-third is the least integer, and is answered as such. -/
theorem run_pow_minValue : 0 ≤ (63 : Int64).toInt ∧
    (pow.run 0 (fun _ _ => throw .exhausted) [.int (-2), .int 63]).run.run emptyWorld =
      (.ok (.int Int64.minValue), emptyWorld) := by
  refine ⟨by decide, (run_pow_eq_int_iff (by decide) _ _ _ _).2 ⟨?_, .inl (by decide)⟩⟩
  decide

/-- Minus one to two to the thirty-second is one, but is not answered as the integer. -/
theorem pow_minusOne_ne_int : 0 ≤ (4294967296 : Int64).toInt ∧
    (1 : Int64).toInt = (-1 : Int64).toInt ^ (4294967296 : Int64).toInt.toNat ∧
    Arithmetic.pow [.int (-1), .int 4294967296] ≠ .ok (.int 1) := by
  have hbase : (-1 : Int64).toInt = -1 := by decide
  have hexponent : (4294967296 : Int64).toInt = 4294967296 := by decide
  have heven : Even (4294967296 : Int).toNat := ⟨2147483648, by decide⟩
  refine ⟨by decide, ?_, fun h => ?_⟩
  · rw [hbase, hexponent, heven.neg_one_pow]
    decide
  · have hpow := (Integer.pow?_eq_some_iff (by decide)).1 (Arithmetic.pow_eq_int_iff.1 h)
    exact absurd hpow.2 (by decide)

end Builtin

end PipeScript
