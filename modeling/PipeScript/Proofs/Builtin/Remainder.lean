/-
Remainders of integers. The division toward zero leaves a remainder that is smaller than the divisor. Where it has
the other sign, the sum of the two lies between zero and the divisor, so that it is an integer whatever the two
numbers are. What comes of it is the remainder of the division that is rounded down.
-/
import Mathlib.Data.Rat.Floor
import Mathlib.Tactic.Linarith
import Mathlib.Tactic.Ring
import PipeScript.Builtin.Call
import PipeScript.Proofs.Heap.Numbers
import PipeScript.Proofs.Run

namespace PipeScript

open Binary

/-! ## Division rounded down -/

/-- The number is a remainder of the divisor: it lies between zero and the divisor, and is not the divisor. -/
def IsRemainder (r b : Int) : Prop :=
  0 ≤ r ∧ r < b ∨ b < r ∧ r ≤ 0

namespace IsRemainder

variable {r a b q : Int}

theorem sign (h : IsRemainder r b) : r = 0 ∨ r.sign = b.sign := by
  rcases h with ⟨hr, hb⟩ | ⟨hb, hr⟩
  · rcases hr.eq_or_lt with rfl | hr
    · exact .inl rfl
    · exact .inr (by rw [Int.sign_eq_one_of_pos hr, Int.sign_eq_one_of_pos (hr.trans hb)])
  · rcases hr.eq_or_lt with rfl | hr
    · exact .inl rfl
    · exact .inr (by rw [Int.sign_eq_neg_one_of_neg hr, Int.sign_eq_neg_one_of_neg (hb.trans hr)])

theorem abs_lt (h : IsRemainder r b) : |r| < |b| := by
  rcases h with ⟨hr, hb⟩ | ⟨hb, hr⟩
  · rwa [abs_of_nonneg hr, abs_of_nonneg (hr.trans hb.le)]
  · rw [abs_of_nonpos hr, abs_of_nonpos (hb.le.trans hr)]
    omega

/-- What leaves such a remainder is the quotient rounded down. -/
theorem floor_eq (h : IsRemainder (a - b * q) b) : ⌊(a : ℚ) / b⌋ = q := by
  rw [Int.floor_eq_iff]
  rcases h with ⟨hlow, hhigh⟩ | ⟨hlow, hhigh⟩
  · have hb : (0 : ℚ) < b := by exact_mod_cast hlow.trans_lt hhigh
    have hlow : (0 : ℚ) ≤ a - b * q := by exact_mod_cast hlow
    have hhigh : (a - b * q : ℚ) < b := by exact_mod_cast hhigh
    constructor
    · rw [le_div_iff₀ hb]
      linarith
    · rw [div_lt_iff₀ hb]
      linarith
  · have hb : (b : ℚ) < 0 := by exact_mod_cast hlow.trans_le hhigh
    have hlow : (b : ℚ) < a - b * q := by exact_mod_cast hlow
    have hhigh : (a - b * q : ℚ) ≤ 0 := by exact_mod_cast hhigh
    constructor
    · rw [le_div_iff_of_neg hb]
      linarith
    · rw [div_lt_iff_of_neg hb]
      linarith

end IsRemainder

/-! ## The remainder toward zero, corrected -/

namespace Integer

variable {a b : Int64}

theorem add?_eq_some_of_fits (h : Fits (a.toInt + b.toInt)) : add? a b = some (a + b) := by
  have hle : -2 ^ 63 ≤ a.toInt + b.toInt := h.1
  have hlt : a.toInt + b.toInt < 2 ^ 63 := Int.lt_add_one_of_le h.2
  rw [add?, ofInt?_eq_some_iff, Int64.toInt_add, Int.bmod_eq_of_le (by omega) (by omega)]

theorem toInt_ne_zero (hb : b ≠ 0) : b.toInt ≠ 0 :=
  fun h => hb (Int64.toInt_inj.1 h)

/-- The remainder has the other sign than the divisor. -/
def Opposes (r b : Int64) : Prop :=
  r ≠ 0 ∧ decide (r < 0) ≠ decide (b < 0)

instance (r b : Int64) : Decidable (Opposes r b) :=
  inferInstanceAs (Decidable (_ ∧ _))

theorem floorMod_eq : floorMod a b = if Opposes (a % b) b then a % b + b else a % b := rfl

theorem opposes_iff {r : Int64} (hb : b ≠ 0) :
    Opposes r b ↔ r.toInt < 0 ∧ 0 < b.toInt ∨ 0 < r.toInt ∧ b.toInt < 0 := by
  have hb := toInt_ne_zero hb
  have hr : r ≠ 0 ↔ r.toInt ≠ 0 := not_congr Int64.toInt_inj.symm
  have hnegative (c : Int64) : c < 0 ↔ c.toInt < 0 := Int64.lt_iff_toInt_lt
  rw [Opposes, hr, ne_eq (decide _), decide_eq_decide, hnegative, hnegative]
  omega

/-- The remainder toward zero is smaller than the divisor. -/
theorem natAbs_toInt_mod_lt (a : Int64) (hb : b ≠ 0) : (a % b).toInt.natAbs < b.toInt.natAbs := by
  rw [Int64.toInt_mod, Int.natAbs_tmod]
  exact Nat.mod_lt _ (Int.natAbs_pos.2 (toInt_ne_zero hb))

/-- The sum that corrects a remainder is always an integer. -/
theorem add?_mod_of_opposes (hb : b ≠ 0) (ho : Opposes (a % b) b) : add? (a % b) b = some (a % b + b) := by
  have hsmall := natAbs_toInt_mod_lt a hb
  have hsigns := (opposes_iff hb).1 ho
  have hfits := fits_toInt b
  refine add?_eq_some_of_fits ?_
  unfold Fits at *
  omega

/-- The corrected remainder is the one that the quotient leaves when it is rounded down. -/
theorem exists_quotient (a : Int64) (hb : b ≠ 0) :
    ∃ q, (floorMod a b).toInt = a.toInt - b.toInt * q ∧ IsRemainder (floorMod a b).toInt b.toInt := by
  have hsmall := natAbs_toInt_mod_lt a hb
  have hmod : (a % b).toInt = a.toInt - b.toInt * a.toInt.tdiv b.toInt := by
    rw [Int64.toInt_mod, Int.tmod_def]
  have hsigns := opposes_iff (r := a % b) hb
  rw [floorMod_eq]
  unfold IsRemainder
  by_cases ho : Opposes (a % b) b
  · have hsum : (a % b + b).toInt = (a % b).toInt + b.toInt := ofInt?_eq_some_iff.1 (add?_mod_of_opposes hb ho)
    have hsigns := hsigns.1 ho
    rw [if_pos ho]
    refine ⟨a.toInt.tdiv b.toInt - 1, ?_, ?_⟩
    · rw [hsum, hmod]
      ring
    · omega
  · have hsigns := mt hsigns.2 ho
    have hb := toInt_ne_zero hb
    rw [if_neg ho]
    exact ⟨a.toInt.tdiv b.toInt, hmod, by omega⟩

/-- Only zero is the float zero. -/
theorem toFloat_beq_zero (n : Int64) : (toFloat n == 0.0) = decide (n = 0) := by
  obtain ⟨y, hy, hnearest⟩ := exists_value_toFloat n
  have hzero : (ofFloat 0.0).value? = some 0 := by
    have hparts : ofFloat 0.0 = .finite false 0 leastExponent := by decide +kernel
    rw [hparts, value?, value_zero]
  have heq : (toFloat n == 0.0) = true ↔ y = 0 := by
    rw [← Heap.floatOrder_eq_iff, Heap.floatOrder_eq_places, Heap.place?_eq_of_value? hy,
      Heap.place?_eq_of_value? hzero, Option.bind_some, Option.map_some, Option.some.injEq, compare_coe,
      compare_eq_iff_eq]
  rw [Bool.eq_iff_iff, heq, decide_eq_true_iff]
  constructor
  · rintro rfl
    -- rounding does not pass over one, nor over minus one
    have hlt : (n.toInt : ℚ) < 1 := hnearest.lt_of_lt ⟨1, 0, by decide, by norm_num⟩ one_pos
    have hgt : (-1 : ℚ) < n.toInt := hnearest.gt_of_gt ⟨-1, 0, by decide, by norm_num⟩ neg_one_lt_zero
    have hlt : n.toInt < 1 := by exact_mod_cast hlt
    have hgt : -1 < n.toInt := by exact_mod_cast hgt
    refine Int64.toInt_inj.1 ?_
    rw [Int64.toInt_zero]
    omega
  · rintro rfl
    have hexact : y = (0 : Int64).toInt := hnearest.eq ⟨0, 0, by decide, by simp⟩
    exact_mod_cast hexact

end Integer

/-! ## The function -/

variable {σ : Type}

theorem Arithmetic.mod_int {a b : Int64} (hb : b ≠ 0) :
    Arithmetic.mod [.int a, .int b] = .ok (.int (Integer.floorMod a b)) := by
  have hzero : Arithmetic.isZero (.int b) = .ok false := by
    show Except.ok (Integer.toFloat b == 0.0) = _
    rw [Integer.toFloat_beq_zero, decide_eq_false hb]
  simp only [Arithmetic.mod, Arguments.two, Arguments.number, Value.toFloat?, bind, Except.bind, hzero]
  rfl

namespace Builtin

/-- The remainder of two integers is the one that the quotient leaves when it is rounded down. It is zero or has
the sign of the divisor, and is smaller than the divisor. If the remainder toward zero is to be corrected for that,
the sum does not overflow. -/
theorem run_mod_int {y : Int64} (hy : y ≠ 0) (x : Int64) (fuel : Nat) (call : Caller σ) (w : World σ) :
    ∃ r : Int64, (mod.run fuel call [.int x, .int y]).run.run w = (.ok (.int r), w) ∧
      r.toInt = x.toInt - y.toInt * ⌊(x.toInt : ℚ) / y.toInt⌋ ∧
      (r.toInt = 0 ∨ r.toInt.sign = y.toInt.sign) ∧ |r.toInt| < |y.toInt| ∧
      (Integer.Opposes (x % y) y → Integer.add? (x % y) y = Option.some r) := by
  obtain ⟨q, hq, hr⟩ := Integer.exists_quotient x hy
  refine ⟨Integer.floorMod x y, ?_, ?_, hr.sign, hr.abs_lt, fun ho => ?_⟩
  · refine (Run.run_ofExcept (Arithmetic.mod [.int x, .int y]) w).trans ?_
    rw [Arithmetic.mod_int hy]
    rfl
  · rw [IsRemainder.floor_eq (hq ▸ hr), hq]
  · rw [Integer.add?_mod_of_opposes hy ho, Integer.floorMod_eq, if_pos ho]

/-- The least integer divided by minus one leaves nothing, though its quotient is no integer. -/
theorem run_mod_minValue : (-1 : Int64) ≠ 0 ∧
    (mod.run 0 (fun _ _ => throw .exhausted) [.int Int64.minValue, .int (-1)]).run.run emptyWorld =
      (.ok (.int 0), emptyWorld) := by
  refine ⟨by decide, ?_⟩
  obtain ⟨r, hrun, -, -, hsmall, -⟩ :=
    run_mod_int (by decide : (-1 : Int64) ≠ 0) Int64.minValue 0 (fun _ _ => throw .exhausted) emptyWorld
  rw [hrun]
  have hone : |(-1 : Int64).toInt| = 1 := by decide
  have hr : r.toInt = 0 := Int.abs_lt_one_iff.1 (hone ▸ hsmall)
  rw [Int64.toInt_inj.1 (hr.trans Int64.toInt_zero.symm)]

end Builtin

end PipeScript
