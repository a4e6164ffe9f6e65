/-
What floats denote. The sixty-four bits of a float, read as parts or as a number of so many digits, say the same.
Its parts have the shape of a float: a significand of fifty-three bits, or of fewer at the least exponent. That
makes the parts compare as the numbers do that they denote: a finite float is a number, the two infinities are
beyond all numbers, and what is no number has no place among them.
-/
import Mathlib.Algebra.Order.Field.Power
import Mathlib.Algebra.Order.Field.Rat
import Mathlib.Order.WithBotTop
import Mathlib.Tactic.GCongr
import Mathlib.Tactic.Linarith
import Mathlib.Tactic.NormNum
import Mathlib.Tactic.Positivity
import Mathlib.Tactic.Ring
import Mathlib.Tactic.SplitIfs
import PipeScript.Number.Binary

namespace PipeScript.Binary

open Float.Model Float.Model.UnpackedFloat

/-! ## Parts -/

/-- What the parts of a float say that it denotes. -/
def ofUnpacked : UnpackedFloat → Binary
  | .notANumber => .notNumber
  | .infinity s => .infinite (s == .negative)
  | .zero s => .finite (s == .negative) 0 leastExponent
  | .finite s m e _ => .finite (s == .negative) m e

theorem unpackExponent_toNat (b : BitVec Format.binary64.numBits) :
    (unpackExponent b).toNat = b.toNat / leadingBit % 2048 := by
  simp [unpackExponent, BitVec.extractLsb_toNat, Nat.shiftRight_eq_div_pow, leadingBit]

theorem unpackMantissa_toNat (b : BitVec Format.binary64.numBits) :
    (unpackMantissa b).toNat = b.toNat % leadingBit := by
  simp [unpackMantissa, BitVec.extractLsb_toNat, leadingBit]

theorem unpackSign_toNat (b : BitVec Format.binary64.numBits) : (unpackSign b).toNat = b.toNat / signBit := by
  have hlt : b.toNat < 2 ^ 64 := b.isLt
  have hsign : (unpackSign b).toNat = b.toNat / signBit % 2 := by
    show (BitVec.extractLsb 63 63 b).toNat = _
    simp [BitVec.extractLsb_toNat, Nat.shiftRight_eq_div_pow, signBit]
  unfold signBit at *
  omega

theorem isNegative_eq (b : BitVec Format.binary64.numBits) :
    (Sign.ofBitVec (unpackSign b) == .negative) = decide (signBit ≤ b.toNat) := by
  have hsign := unpackSign_toNat b
  unfold Sign.ofBitVec signBit at *
  by_cases hzero : unpackSign b = 0#1
  · rw [if_pos hzero]
    have : (unpackSign b).toNat = 0 := by rw [hzero]; rfl
    rw [decide_eq_false (by omega)]
    rfl
  · rw [if_neg hzero]
    have : (unpackSign b).toNat ≠ 0 := fun h => hzero (BitVec.eq_of_toNat_eq h)
    rw [decide_eq_true (by omega)]
    rfl

/-- The parts of sixty-four bits, read off the number that the bits spell. -/
theorem ofUnpacked_unpack (b : BitVec Format.binary64.numBits) :
    ofUnpacked (UnpackedFloat.unpack Format.binary64 b) =
      if b.toNat / leadingBit % 2048 = 2047 then
        if b.toNat % leadingBit = 0 then .infinite (decide (signBit ≤ b.toNat)) else .notNumber
      else if b.toNat / leadingBit % 2048 = 0 then
        .finite (decide (signBit ≤ b.toNat)) (b.toNat % leadingBit) leastExponent
      else .finite (decide (signBit ≤ b.toNat)) (leadingBit + b.toNat % leadingBit)
        (((b.toNat / leadingBit % 2048 : Nat) : Int) - 1075) := by
  have hones : unpackExponent b = -1#_ ↔ b.toNat / leadingBit % 2048 = 2047 := by
    rw [← BitVec.toNat_inj, unpackExponent_toNat]
    rfl
  have hzeros : unpackExponent b = 0#_ ↔ b.toNat / leadingBit % 2048 = 0 := by
    rw [← BitVec.toNat_inj, unpackExponent_toNat]
    rfl
  have hnone : unpackMantissa b = 0#_ ↔ b.toNat % leadingBit = 0 := by
    rw [← BitVec.toNat_inj, unpackMantissa_toNat]
    rfl
  simp only [← hones, ← hzeros, ← hnone]
  unfold UnpackedFloat.unpack
  dsimp only
  let negative := Sign.ofBitVec (unpackSign b) == .negative
  by_cases h1 : unpackExponent b = -1#_
  · rw [if_pos h1, if_pos h1]
    by_cases h2 : unpackMantissa b = 0#_
    · rw [if_pos h2, if_pos h2, ← isNegative_eq]
      rfl
    · rw [if_neg h2, if_neg h2]
      rfl
  rw [if_neg h1, if_neg h1, ← isNegative_eq]
  by_cases h2 : unpackExponent b = 0#_
  · rw [if_pos h2, if_pos h2]
    by_cases h3 : unpackMantissa b = 0#_
    · rw [dif_pos h3, hnone.1 h3]
      rfl
    · rw [dif_neg h3, ← unpackMantissa_toNat]
      show Binary.finite negative _ _ = _
      rw [unpackExponent_toNat, hzeros.1 h2]
      rfl
  · have hlow : (unpackMantissa b).toNat < 2 ^ 52 := (unpackMantissa b).isLt
    rw [if_neg h2, if_neg h2]
    show Binary.finite negative _ _ = _
    rw [unpackExponent_toNat, BitVec.toNat_append, ← Nat.shiftLeft_add_eq_or_of_lt hlow, unpackMantissa_toNat]
    rfl

theorem ofFloat_eq (x : Float) : ofFloat x = ofUnpacked x.toModel.unpack :=
  (ofUnpacked_unpack _).symm

/-! ## Values -/

/-- The numbers and the two infinities. -/
abbrev Place := WithBotTop ℚ

/-- The number `± m · 2 ^ q`. -/
def value (negative : Bool) (m : Nat) (q : Int) : ℚ :=
  if negative then -(m * 2 ^ q) else m * 2 ^ q

/-- The number that is denoted, if it is finite. -/
def value? : Binary → Option ℚ
  | .finite negative m q => some (value negative m q)
  | _ => none

/-- The place among the numbers and the two infinities. Only what is no number has none. -/
def place? : Binary → Option Place
  | .notNumber => none
  | .infinite negative => some (if negative then ⊥ else ⊤)
  | .finite negative m q => some (value negative m q : ℚ)

/-- Significand and exponent are those of a float: the significand has fifty-three bits, or fewer at the least
exponent. -/
structure Canonical (m : Nat) (q : Int) : Prop where
  lt : m < 2 * leadingBit
  le : leastExponent ≤ q
  full : q = leastExponent ∨ leadingBit ≤ m

theorem canonical_ofFloat {x : Float} {negative : Bool} {m : Nat} {q : Int}
    (hx : ofFloat x = .finite negative m q) : Canonical m q := by
  have hfraction : x.toBits.toNat % leadingBit < leadingBit := Nat.mod_lt _ (by decide)
  unfold ofFloat at hx
  dsimp only at hx
  split_ifs at hx with hones hzero hzeros
  · cases hx
    exact ⟨by omega, le_rfl, .inl rfl⟩
  · cases hx
    exact ⟨by omega, by unfold leastExponent; omega, .inr (by omega)⟩

/-- Of two floats the one with the greater exponent is farther from zero. -/
theorem lt_of_exponent_lt {m m' : Nat} {q q' : Int} (h : Canonical m q) (h' : Canonical m' q') (hq : q < q') :
    (m * 2 ^ q : ℚ) < m' * 2 ^ q' := by
  have hfull : leadingBit ≤ m' := by
    rcases h'.full with he | hm
    · exact absurd hq (by have := h.le; omega)
    · exact hm
  have hm : (m : ℚ) < leadingBit * 2 := by
    have := h.lt
    exact_mod_cast (by omega : m < leadingBit * 2)
  have hm' : (leadingBit : ℚ) ≤ m' := by exact_mod_cast hfull
  calc (m * 2 ^ q : ℚ) < leadingBit * 2 * 2 ^ q := by gcongr
    _ = leadingBit * 2 ^ (q + 1) := by rw [zpow_add_one₀ two_ne_zero]; ring
    _ ≤ m' * 2 ^ q' := mul_le_mul hm' (zpow_le_zpow_right₀ one_le_two hq) (by positivity) (by positivity)

theorem compare_parts {m m' : Nat} {q q' : Int} (h : Canonical m q) (h' : Canonical m' q') :
    (compare q q').then (compare m m') = compare (m * 2 ^ q : ℚ) (m' * 2 ^ q') := by
  rcases lt_trichotomy q q' with hq | rfl | hq
  · rw [compare_lt_iff_lt.2 hq, compare_lt_iff_lt.2 (lt_of_exponent_lt h h' hq)]
    rfl
  · have hpos : (0 : ℚ) < 2 ^ q := by positivity
    rw [compare_eq_iff_eq.2 rfl, Ordering.eq_then]
    rcases lt_trichotomy m m' with hm | rfl | hm
    · rw [compare_lt_iff_lt.2 hm, compare_lt_iff_lt.2 (by gcongr)]
    · rw [compare_eq_iff_eq.2 rfl, compare_eq_iff_eq.2 rfl]
    · rw [compare_gt_iff_gt.2 hm, compare_gt_iff_gt.2 (by gcongr)]
  · rw [compare_gt_iff_gt.2 hq, compare_gt_iff_gt.2 (lt_of_exponent_lt h' h hq)]
    rfl

/-- The parts are those of a float. -/
def OfFloat : UnpackedFloat → Prop
  | .finite _ m q _ => Canonical m q
  | _ => True

theorem ofFloat_unpack (x : Float) : OfFloat x.toModel.unpack := by
  have hx := ofFloat_eq x
  rcases hu : x.toModel.unpack with s | _ | s | ⟨s, m, q, hm⟩
  case finite =>
    rw [hu] at hx
    exact canonical_ofFloat hx
  all_goals trivial

theorem compare_coe (a b : ℚ) : compare (a : Place) (b : Place) = compare a b := by
  rcases lt_trichotomy a b with hab | rfl | hab
  · rw [compare_lt_iff_lt.2 hab, compare_lt_iff_lt.2 (WithBotTop.coe_lt_coe.2 hab)]
  · rw [compare_eq_iff_eq.2 rfl, compare_eq_iff_eq.2 rfl]
  · rw [compare_gt_iff_gt.2 hab, compare_gt_iff_gt.2 (WithBotTop.coe_lt_coe.2 hab)]

theorem coe_lt_top (a : ℚ) : (a : Place) < ⊤ := WithBot.coe_lt_coe.2 (WithTop.coe_lt_top a)

theorem bot_lt_coe (a : ℚ) : (⊥ : Place) < a := WithBot.bot_lt_coe _

theorem value_zero (negative : Bool) (q : Int) : value negative 0 q = 0 := by
  cases negative <;> simp [value]

theorem value_pos {m : Nat} (hm : 0 < m) (q : Int) : 0 < value false m q := by
  have hm : (0 : ℚ) < m := by exact_mod_cast hm
  unfold value
  simp only [Bool.false_eq_true, if_false]
  positivity

theorem value_neg {m : Nat} (hm : 0 < m) (q : Int) : value true m q < 0 := neg_lt_zero.2 (value_pos hm q)

theorem compare_neg (a b : ℚ) : compare (-a) (-b) = compare b a := by
  rcases lt_trichotomy a b with hab | rfl | hab
  · rw [compare_gt_iff_gt.2 hab, compare_gt_iff_gt.2 (neg_lt_neg hab)]
  · rw [compare_eq_iff_eq.2 rfl, compare_eq_iff_eq.2 rfl]
  · rw [compare_lt_iff_lt.2 hab, compare_lt_iff_lt.2 (neg_lt_neg hab)]

/-- Floats in parts compare as their places do. -/
theorem compare_unpacked {a b : UnpackedFloat} (ha : OfFloat a) (hb : OfFloat b) :
    a.compare b = (ofUnpacked a).place?.bind fun v => (ofUnpacked b).place?.map (compare v) := by
  have hlt {v w : Place} (hvw : v < w) : Ordering.lt = compare v w := (compare_lt_iff_lt.2 hvw).symm
  have hgt {v w : Place} (hvw : w < v) : Ordering.gt = compare v w := (compare_gt_iff_gt.2 hvw).symm
  have heq {v w : Place} (hvw : v = w) : Ordering.eq = compare v w := (compare_eq_iff_eq.2 hvw).symm
  have hcoe {v w : ℚ} (hvw : v < w) : (v : Place) < w := WithBotTop.coe_lt_coe.2 hvw
  rcases a with s | _ | s | ⟨s, m, q, hm⟩ <;> rcases b with s' | _ | s' | ⟨s', m', q', hm'⟩
  case notANumber.notANumber | notANumber.infinity | notANumber.zero | notANumber.finite => rfl
  case infinity.notANumber | zero.notANumber | finite.notANumber => cases s <;> rfl
  case infinity.infinity =>
    cases s <;> cases s' <;> refine congrArg some ?_
    · exact heq rfl
    · exact hlt bot_lt_top
    · exact hgt bot_lt_top
    · exact heq rfl
  case infinity.zero | infinity.finite =>
    cases s <;> refine congrArg some ?_
    · exact hlt (bot_lt_coe _)
    · exact hgt (coe_lt_top _)
  case zero.infinity | finite.infinity =>
    cases s' <;> (try cases s) <;> refine congrArg some ?_
    all_goals first | exact hgt (bot_lt_coe _) | exact hlt (coe_lt_top _)
  case zero.zero => exact congrArg some (heq (by simp only [value_zero]))
  case zero.finite =>
    cases s' <;> refine congrArg some ?_
    · exact hgt (hcoe (by rw [value_zero]; exact value_neg hm' q'))
    · exact hlt (hcoe (by rw [value_zero]; exact value_pos hm' q'))
  case finite.zero =>
    cases s <;> refine congrArg some ?_
    · exact hlt (hcoe (by rw [value_zero]; exact value_neg hm q))
    · exact hgt (hcoe (by rw [value_zero]; exact value_pos hm q))
  case finite.finite =>
    cases s <;> cases s' <;> refine congrArg some ?_
    · rw [compare_parts ha hb, ← Std.OrientedOrd.eq_swap]
      exact ((compare_coe _ _).trans (compare_neg _ _)).symm
    · exact hlt (hcoe ((value_neg hm q).trans (value_pos hm' q')))
    · exact hgt (hcoe ((value_neg hm' q').trans (value_pos hm q)))
    · rw [compare_parts ha hb]
      exact (compare_coe _ _).symm

/-! ## Numbers of fifty-three bits -/

/-- The number is one of those that fifty-three bits and some exponent can denote. -/
def IsDyadic (v : ℚ) : Prop :=
  ∃ (k : Int) (p : Int), k.natAbs < 2 * leadingBit ∧ v = k * 2 ^ p

theorem isDyadic_of_value? {x : Float} {v : ℚ} (hx : (ofFloat x).value? = some v) : IsDyadic v := by
  rcases hb : ofFloat x with _ | _ | ⟨negative, m, q⟩ <;> rw [hb] at hx <;> cases hx
  have hm := (canonical_ofFloat hb).lt
  cases negative with
  | false => exact ⟨m, q, hm, by simp [value]⟩
  | true => exact ⟨-m, q, by rwa [Int.natAbs_neg], by simp [value]⟩

theorem isDyadic_neg {v : ℚ} (hv : IsDyadic v) : IsDyadic (-v) := by
  obtain ⟨k, p, hk, rfl⟩ := hv
  exact ⟨-k, p, by rwa [Int.natAbs_neg], by push_cast; ring⟩

end PipeScript.Binary
