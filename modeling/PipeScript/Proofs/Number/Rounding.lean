/-
Integers as floats. To round a number to fifty-three bits, the other bits are dropped one by one, which leaves
the multiple of the last bit below the number, and what is needed to tell whether the next one is nearer. The
nearest multiple is also the nearest of all numbers of fifty-three bits, since those that are no multiples are
too small. So the float of an integer is the nearest there is, and as it passes over no number of fifty-three
bits, an integer can be compared by its float with all floats but one.
-/
import Mathlib
import PipeScript.Number.Integer
import PipeScript.Proofs.Number.Binary

namespace PipeScript.Binary

open Float.Model Float.Model.UnpackedFloat

/-! ## Dropping bits -/

/-- What is left of a number without its last bits: the rest of its digits, whether the first bit that was
dropped was set, and whether another one was. -/
structure Dropped (M n : Nat) (em : ExtendedMantissa) : Prop where
  mantissa : em.mantissa = M / 2 ^ n
  roundBit : em.roundBit = true ↔ 2 ^ n ≤ 2 * (M % 2 ^ n)
  stickyBit : em.stickyBit = true ↔ 2 * M % 2 ^ n ≠ 0

theorem dropped_zero (M : Nat) : Dropped M 0 ⟨M, false, false⟩ := by
  constructor <;> simp <;> omega

theorem Dropped.next {M n : Nat} {em : ExtendedMantissa} (h : Dropped M n em) :
    Dropped M (n + 1) em.shiftRightOne := by
  have hpow : 2 ^ (n + 1) = 2 * 2 ^ n := by rw [Nat.pow_succ, Nat.mul_comm]
  have hpos : 0 < 2 ^ n := Nat.two_pow_pos n
  have hrest : M % 2 ^ (n + 1) = M % 2 ^ n + 2 ^ n * (M / 2 ^ n % 2) := Nat.mod_pow_succ
  have hlt : M % 2 ^ n < 2 ^ n := Nat.mod_lt M hpos
  constructor
  · show em.mantissa / 2 = _
    rw [h.mantissa, Nat.div_div_eq_div_mul, hpow, Nat.mul_comm]
  · show (em.mantissa % 2 != 0) = true ↔ _
    rw [h.mantissa, hrest, hpow, bne_iff_ne]
    rcases Nat.mod_two_eq_zero_or_one (M / 2 ^ n) with hbit | hbit <;> rw [hbit] <;> omega
  · show (em.roundBit || em.stickyBit) = true ↔ _
    rw [Bool.or_eq_true, h.roundBit, h.stickyBit, hpow, Nat.mul_mod_mul_left]
    have hdouble : 2 * M % 2 ^ n = 2 * (M % 2 ^ n) % 2 ^ n := by rw [Nat.mul_mod_mod]
    rw [hdouble]
    constructor
    · rintro (hround | hsticky)
      · omega
      · intro hzero
        exact hsticky (by rw [hzero, Nat.zero_mod])
    · intro hne
      by_cases hround : 2 ^ n ≤ 2 * (M % 2 ^ n)
      · exact .inl hround
      · refine .inr ?_
        rw [Nat.mod_eq_of_lt (by omega)]
        omega

theorem dropped_shift (M n : Nat) : Dropped M n ((⟨M, false, false⟩ : ExtendedMantissa) >>> n) := by
  induction n with
  | zero => exact dropped_zero M
  | succ n ih => exact ih.next

/-- The multiple of `2 ^ n` is one of the two around `M`, and no farther from `M` than half of `2 ^ n`. -/
structure Near (M n m : Nat) : Prop where
  le : M / 2 ^ n ≤ m
  ge : m ≤ M / 2 ^ n + 1
  below : 2 * M ≤ 2 * (m * 2 ^ n) + 2 ^ n
  above : 2 * (m * 2 ^ n) ≤ 2 * M + 2 ^ n

theorem near_down {M n : Nat} (h : 2 * (M % 2 ^ n) ≤ 2 ^ n) : Near M n (M / 2 ^ n) := by
  have hdiv := Nat.div_add_mod M (2 ^ n)
  rw [Nat.mul_comm] at hdiv
  constructor <;> omega

theorem near_up {M n : Nat} (h : 2 ^ n ≤ 2 * (M % 2 ^ n)) : Near M n (M / 2 ^ n + 1) := by
  have hdiv := Nat.div_add_mod M (2 ^ n)
  have hlt := Nat.mod_lt M (Nat.two_pow_pos n)
  have hnext := Nat.add_one_mul (M / 2 ^ n) (2 ^ n)
  rw [Nat.mul_comm] at hdiv
  constructor <;> omega

/-- Rounding goes to the nearer multiple. -/
theorem Dropped.near {M n : Nat} {em : ExtendedMantissa} (h : Dropped M n em) : Near M n em.roundedMantissa := by
  obtain ⟨m, roundBit, stickyBit⟩ := em
  obtain ⟨rfl, hround, hsticky⟩ := h
  cases roundBit with
  | false =>
    have hdown : Near M n (M / 2 ^ n) := near_down (by simp at hround; omega)
    cases stickyBit <;> exact hdown
  | true =>
    have hup : 2 ^ n ≤ 2 * (M % 2 ^ n) := hround.1 rfl
    cases stickyBit with
    | true => exact near_up hup
    | false =>
      -- a half, which goes to the even one of the two
      have hexact : 2 * M % 2 ^ n = 0 := by_contra fun hne => absurd (hsticky.2 hne) nofun
      have hhalf : 2 * (M % 2 ^ n) = 2 ^ n := by
        have hlt := Nat.mod_lt M (Nat.two_pow_pos n)
        rw [← Nat.mul_mod_mod, Nat.mod_eq_sub_mod hup, Nat.mod_eq_of_lt (by omega)] at hexact
        omega
      show Near M n (M / 2 ^ n + M / 2 ^ n % 2)
      rcases Nat.mod_two_eq_zero_or_one (M / 2 ^ n) with hbit | hbit <;> rw [hbit]
      · exact near_down hhalf.le
      · exact near_up hhalf.ge

/-- No other multiple is nearer. -/
theorem Near.nearest {M n m : Nat} (h : Near M n m) (k : Int) :
    |(M : Int) - m * 2 ^ n| ≤ |(M : Int) - k * 2 ^ n| := by
  have hbelow : 2 * (M : Int) ≤ 2 * (m * 2 ^ n) + 2 ^ n := by exact_mod_cast h.below
  have habove : 2 * ((m : Int) * 2 ^ n) ≤ 2 * M + 2 ^ n := by exact_mod_cast h.above
  have hpos : (0 : Int) < 2 ^ n := by positivity
  have hhalf : 2 * |(M : Int) - m * 2 ^ n| ≤ 2 ^ n := by
    rcases abs_cases ((M : Int) - m * 2 ^ n) with ⟨he, -⟩ | ⟨he, -⟩ <;> rw [he] <;> omega
  rcases lt_trichotomy k m with hk | rfl | hk
  · -- a lesser multiple is less by `2 ^ n` at least
    have hstep : k * 2 ^ n + 2 ^ n ≤ m * 2 ^ n := by nlinarith
    have habs := le_abs_self ((M : Int) - k * 2 ^ n)
    rcases abs_cases ((M : Int) - m * 2 ^ n) with ⟨he, -⟩ | ⟨he, -⟩ <;> omega
  · exact le_rfl
  · have hstep : m * 2 ^ n + 2 ^ n ≤ k * 2 ^ n := by nlinarith
    have habs := neg_le_abs ((M : Int) - k * 2 ^ n)
    rcases abs_cases ((M : Int) - m * 2 ^ n) with ⟨he, -⟩ | ⟨he, -⟩ <;> omega

/-! ## Lengths -/

theorem leadingBit_eq : leadingBit = 2 ^ 52 := rfl

theorem log2_eq {m n : Nat} (hle : 2 ^ n ≤ m) (hlt : m < 2 ^ (n + 1)) : m.log2 = n := by
  have hpos : m ≠ 0 := by
    have := Nat.two_pow_pos n
    omega
  exact (Nat.log2_eq_iff hpos).2 ⟨hle, hlt⟩

theorem log2_mul_two_pow {n : Nat} (hn : n ≠ 0) (k : Nat) : (n * 2 ^ k).log2 = n.log2 + k := by
  obtain ⟨hle, hlt⟩ := (Nat.log2_eq_iff hn).1 rfl
  refine log2_eq ?_ ?_
  · rw [Nat.pow_add]
    exact Nat.mul_le_mul_right _ hle
  · rw [Nat.add_right_comm, Nat.pow_add]
    exact Nat.mul_lt_mul_of_pos_right hlt (Nat.two_pow_pos k)

/-- What the length of a number says of its size. -/
theorem size_of_log2 {M n : Nat} (hM : M.log2 = 52 + n) :
    leadingBit * 2 ^ n ≤ M ∧ M < 2 * leadingBit * 2 ^ n := by
  have hne : M ≠ 0 := by
    rintro rfl
    rw [Nat.log2_zero] at hM
    omega
  obtain ⟨hle, hlt⟩ := (Nat.log2_eq_iff hne).1 hM
  have hlow : leadingBit * 2 ^ n = 2 ^ (52 + n) := by rw [leadingBit, Nat.pow_add]
  have hhigh : 2 * leadingBit * 2 ^ n = 2 ^ (52 + n + 1) := by rw [Nat.mul_assoc, hlow, Nat.pow_succ, Nat.mul_comm]
  exact ⟨hlow ▸ hle, hhigh ▸ hlt⟩

/-! ## Rounding to fifty-three bits -/

/-- The shift that leaves fifty-three bits. -/
theorem shiftToTargetExponent_eq {M n : Nat} {E : Int} (hM : M.log2 = 52 + n) (hE : leastExponent ≤ E + n) :
    shiftToTargetExponent .binary64 M E .exact = ((⟨M, false, false⟩ : ExtendedMantissa) >>> n, E + n) := by
  have htarget : Format.binary64.targetExponent (totalExponent M E) = E + n := by
    have hbits : (Format.binary64.mantissaBits : Int) = 53 := rfl
    have hleast : Format.binary64.minExponent = leastExponent := rfl
    unfold Format.targetExponent totalExponent
    rw [hbits, hleast, hM]
    push_cast
    omega
  unfold shiftToTargetExponent shiftToExponent
  have hshift : (E + n - E).toNat = n := by omega
  simp only [htarget, hshift]
  rfl

/-- Rounding leaves fifty-three bits, or a single one behind fifty-three others. -/
theorem Near.bounds {M n m : Nat} (h : Near M n m) (hM : M.log2 = 52 + n) :
    leadingBit ≤ m ∧ m ≤ 2 * leadingBit := by
  obtain ⟨hle, hlt⟩ := size_of_log2 hM
  have hlow : leadingBit ≤ M / 2 ^ n := (Nat.le_div_iff_mul_le (Nat.two_pow_pos n)).2 hle
  have hhigh : M / 2 ^ n < 2 * leadingBit := (Nat.div_lt_iff_lt_mul (Nat.two_pow_pos n)).2 hlt
  exact ⟨hlow.trans h.le, h.ge.trans hhigh⟩

/-- A number of at least fifty-three bits is rounded to the nearest multiple of the last bit that is left. -/
theorem exists_rounded (s : Sign) {M n : Nat} {E : Int} (hM : M.log2 = 52 + n) (hE : leastExponent ≤ E + n) :
    ∃ m q hm, roundWithAccuracy .binary64 s M E .exact = .finite s m q hm ∧
      leadingBit ≤ m ∧ Canonical m q ∧ q ≤ E + n + 1 ∧
      ∃ k, Near M n k ∧ (m * 2 ^ q : ℚ) = k * 2 ^ (E + n) := by
  have hnear := (dropped_shift M n).near
  have hbounds := hnear.bounds hM
  generalize hk : ((⟨M, false, false⟩ : ExtendedMantissa) >>> n).roundedMantissa = k at hnear hbounds
  obtain ⟨hlow, hhigh⟩ := hbounds
  obtain hlt | rfl := Nat.lt_or_eq_of_le hhigh
  · have hlog : k.log2 = 52 + 0 := log2_eq hlow hlt
    have hsecond := shiftToTargetExponent_eq (E := E + n) hlog (by omega)
    have hpos : 0 < k := lt_of_lt_of_le (by decide) hlow
    refine ⟨k, E + n, hpos, ?_, hlow, ⟨hlt, hE, .inr hlow⟩, by omega, k, hnear, rfl⟩
    unfold roundWithAccuracy
    simp only [shiftToTargetExponent_eq hM hE, hk, hsecond, Nat.cast_zero, add_zero]
    exact dif_neg hpos.ne'
  · -- one more bit is dropped, which is zero
    have hlog : (2 * leadingBit).log2 = 52 + 1 := log2_eq (by decide) (by decide)
    have hsecond := shiftToTargetExponent_eq (E := E + n) hlog (by omega)
    refine ⟨leadingBit, E + n + 1, by decide, ?_, le_rfl, ⟨by decide, by omega, .inr le_rfl⟩, le_rfl,
      2 * leadingBit, hnear, ?_⟩
    · unfold roundWithAccuracy
      simp only [shiftToTargetExponent_eq hM hE, hk, hsecond]
      exact dif_neg (by decide)
    · rw [zpow_add_one₀ two_ne_zero]
      push_cast
      ring

/-- Among the numbers of fifty-three bits the nearest multiple is the nearest. -/
theorem Near.le_abs_sub {M n k : Nat} {E : Int} (h : Near M n k) (hM : M.log2 = 52 + n) {v : ℚ}
    (hv : IsDyadic v) : |(M * 2 ^ E : ℚ) - k * 2 ^ (E + n)| ≤ |(M * 2 ^ E : ℚ) - v| := by
  have hscale : (0 : ℚ) < 2 ^ E := by positivity
  have hmultiple (l : Int) : (M * 2 ^ E : ℚ) - l * 2 ^ (E + n) = ((M - l * 2 ^ n : Int) : ℚ) * 2 ^ E := by
    rw [zpow_add₀ two_ne_zero, zpow_natCast]
    push_cast
    ring
  have hnearest (l : Int) : |(M * 2 ^ E : ℚ) - k * 2 ^ (E + n)| ≤ |(M * 2 ^ E : ℚ) - l * 2 ^ (E + n)| := by
    have hint := h.nearest l
    have hk := hmultiple k
    rw [Int.cast_natCast] at hk
    rw [hk, hmultiple l, abs_mul, abs_mul, ← Int.cast_abs, ← Int.cast_abs]
    gcongr
  obtain ⟨l, p, hl, rfl⟩ := hv
  obtain hp | hp := le_or_gt (E + n) p
  · -- a multiple of the last bit that is left
    obtain ⟨d, rfl⟩ := Int.le.dest hp
    have hmulti : (l : ℚ) * 2 ^ (E + n + d) = ((l * 2 ^ d : Int) : ℚ) * 2 ^ (E + n) := by
      rw [zpow_add₀ two_ne_zero (E + n), zpow_natCast]
      push_cast
      ring
    rw [hmulti]
    exact hnearest (l * 2 ^ d)
  · -- too small to be beyond the least multiple of fifty-three bits
    have hlow : (l : ℚ) * 2 ^ p ≤ leadingBit * 2 ^ (E + n) := by
      have hbound : (l : ℚ) ≤ leadingBit * 2 := by
        exact_mod_cast (by omega : l ≤ leadingBit * 2)
      calc (l : ℚ) * 2 ^ p ≤ leadingBit * 2 * 2 ^ p := by gcongr
        _ = leadingBit * 2 ^ (p + 1) := by rw [zpow_add_one₀ two_ne_zero]; ring
        _ ≤ leadingBit * 2 ^ (E + n) := by gcongr ?_ * ?_; exact zpow_le_zpow_right₀ one_le_two hp
    have hfull : (leadingBit : ℚ) * 2 ^ (E + n) ≤ M * 2 ^ E := by
      have hM : leadingBit * 2 ^ n ≤ M := (size_of_log2 hM).1
      calc (leadingBit : ℚ) * 2 ^ (E + n) = (leadingBit * 2 ^ n : Nat) * 2 ^ E := by
            rw [zpow_add₀ two_ne_zero, zpow_natCast]
            push_cast
            ring
        _ ≤ M * 2 ^ E := by gcongr
    calc |(M * 2 ^ E : ℚ) - k * 2 ^ (E + n)| ≤ |(M * 2 ^ E : ℚ) - leadingBit * 2 ^ (E + n)| := by
          simpa using hnearest leadingBit
      _ = M * 2 ^ E - leadingBit * 2 ^ (E + n) := abs_of_nonneg (by linarith)
      _ ≤ M * 2 ^ E - l * 2 ^ p := by linarith
      _ ≤ |(M * 2 ^ E : ℚ) - l * 2 ^ p| := le_abs_self _

/-! ## The nearest number -/

/-- No number of fifty-three bits is nearer to `r`. -/
def IsNearest (r w : ℚ) : Prop :=
  ∀ v, IsDyadic v → |r - w| ≤ |r - v|

/-- A number of fifty-three bits is its own nearest. -/
theorem IsNearest.eq {r w : ℚ} (h : IsNearest r w) (hr : IsDyadic r) : w = r := by
  have hzero := h r hr
  rw [sub_self, abs_zero, abs_nonpos_iff, sub_eq_zero] at hzero
  exact hzero.symm

/-- Rounding to the nearest keeps to one side of every number of fifty-three bits. -/
theorem IsNearest.lt_of_lt {r w v : ℚ} (h : IsNearest r w) (hv : IsDyadic v) (hwv : w < v) : r < v := by
  by_contra hle
  have hnear := h v hv
  rw [abs_of_nonneg (by linarith), abs_of_nonneg (by linarith)] at hnear
  linarith

theorem IsNearest.gt_of_gt {r w v : ℚ} (h : IsNearest r w) (hv : IsDyadic v) (hwv : v < w) : v < r := by
  by_contra hle
  have hnear := h v hv
  rw [abs_of_nonpos (by linarith), abs_of_nonpos (by linarith)] at hnear
  linarith

/-- To be compared with a number of fifty-three bits, a number can be rounded, unless it is rounded to just that
number and is another one. -/
theorem IsNearest.compare_eq_iff {r w v : ℚ} (h : IsNearest r w) (hv : IsDyadic v) :
    compare w v = compare r v ↔ (w = v → r = v) := by
  rcases lt_trichotomy w v with hwv | rfl | hwv
  · rw [compare_lt_iff_lt.2 hwv, compare_lt_iff_lt.2 (h.lt_of_lt hv hwv)]
    exact ⟨fun _ he => absurd he hwv.ne, fun _ => rfl⟩
  · rw [compare_eq_iff_eq.2 rfl, eq_comm, compare_eq_iff_eq]
    exact ⟨fun he _ => he, fun he => he rfl⟩
  · rw [compare_gt_iff_gt.2 hwv, compare_gt_iff_gt.2 (h.gt_of_gt hv hwv)]
    exact ⟨fun _ he => absurd he hwv.ne', fun _ => rfl⟩

/-! ## Bits -/

/-- The bits of the exponent spell a number between zero and all ones. -/
theorem toNat_exponentBits {q : Int} (hleast : leastExponent ≤ q) (hq : q ≤ 971) :
    (BitVec.ofNat Format.binary64.exponentBits (q + 1075).toNat).toNat = (q + 1075).toNat ∧
      0 < (q + 1075).toNat ∧ (q + 1075).toNat < 2047 := by
  unfold leastExponent at hleast
  have hlt : (q + 1075).toNat < 2047 := by omega
  exact ⟨Nat.mod_eq_of_lt (hlt.trans (by decide)), by omega, hlt⟩

/-- The bits of the significand spell it without its leading bit. -/
theorem toNat_significandBits {m : Nat} (hfull : leadingBit ≤ m) (hlt : m < 2 * leadingBit) :
    (1#1 ++ BitVec.ofNat Format.binary64.mantissaBitsWithoutImplicit m).toNat = m := by
  have hlow : (BitVec.ofNat Format.binary64.mantissaBitsWithoutImplicit m).toNat = m - leadingBit := by
    show m % leadingBit = _
    rw [Nat.mod_eq_sub_mod hfull, Nat.mod_eq_of_lt (by omega)]
  rw [BitVec.toNat_append, ← Nat.shiftLeft_add_eq_or_of_lt (BitVec.isLt _), hlow]
  show leadingBit + _ = m
  omega

theorem pack_eq {s : Sign} {m : Nat} {q : Int} {hm : 0 < m} (hfull : leadingBit ≤ m) (h : Canonical m q)
    (hq : q ≤ 971) : UnpackedFloat.pack .binary64 (.finite s m q hm) =
      packComponents .binary64 s (BitVec.ofNat _ (q + 1075).toNat) (BitVec.ofNat _ m) := by
  have hlog : m.log2 + 1 = Format.binary64.mantissaBits := by
    rw [log2_eq (n := 52) hfull h.lt]
    rfl
  have hbiased : (q + Format.binary64.exponentBias + Format.binary64.mantissaBitsWithoutImplicit).toNat =
      (q + 1075).toNat := by
    show (q + 1023 + 52).toNat = _
    congr 1
    omega
  have hnot : ¬2 ^ Format.binary64.exponentBits ≤ (q + 1075).toNat + 1 := by
    show ¬2048 ≤ _
    omega
  unfold UnpackedFloat.pack
  dsimp only
  rw [hbiased, if_neg hnot, if_pos hlog]

/-- A float of fifty-three bits is made of its parts, if the exponent is not too great. -/
theorem unpack_pack {s : Sign} {m : Nat} {q : Int} {hm : 0 < m} (hfull : leadingBit ≤ m) (h : Canonical m q)
    (hq : q ≤ 971) :
    UnpackedFloat.unpack .binary64 (UnpackedFloat.pack .binary64 (.finite s m q hm)) = .finite s m q hm := by
  obtain ⟨hbits, hpos, hlt⟩ := toNat_exponentBits h.le hq
  have hones : BitVec.ofNat Format.binary64.exponentBits (q + 1075).toNat ≠ -1#_ := by
    intro he
    have htoNat : (q + 1075).toNat = 2047 := hbits.symm.trans (congrArg BitVec.toNat he)
    omega
  have hzeros : BitVec.ofNat Format.binary64.exponentBits (q + 1075).toNat ≠ 0#_ := by
    intro he
    have htoNat : (q + 1075).toNat = 0 := hbits.symm.trans (congrArg BitVec.toNat he)
    omega
  have hunbiased : ((q + 1075).toNat : Int) -
      (Format.binary64.exponentBias + Format.binary64.mantissaBitsWithoutImplicit) = q := by
    show _ - (1023 + 52 : Int) = q
    omega
  rw [pack_eq hfull h hq]
  unfold UnpackedFloat.unpack
  simp only [unpackExponent_packComponents, unpackMantissa_packComponents, unpackSign_packComponents,
    Sign.ofBitVec_toBitVec, hones, hzeros, if_false, hbits, toNat_significandBits hfull h.lt, hunbiased]

/-! ## Nearest floats -/

/-- The parts are those of a positive float of fifty-three bits that is the nearest to `r`. -/
def Nearest (r : ℚ) (u : UnpackedFloat) : Prop :=
  ∃ m q hm, u = .finite .positive m q hm ∧ leadingBit ≤ m ∧ Canonical m q ∧ IsNearest r (m * 2 ^ q)

theorem nearest_rounded {M n : Nat} {E : Int} (hM : M.log2 = 52 + n) (hE : leastExponent ≤ E + n)
    (hle : E + n ≤ 970) :
    Nearest (M * 2 ^ E) (Float.Model.pack (roundWithAccuracy .binary64 .positive M E .exact)).unpack := by
  obtain ⟨m, q, hm, hround, hfull, hcanonical, hq, k, hnear, hvalue⟩ := exists_rounded .positive hM hE
  refine ⟨m, q, hm, ?_, hfull, hcanonical, fun v hv => ?_⟩
  · rw [hround]
    exact unpack_pack hfull hcanonical (by omega)
  · rw [hvalue]
    exact hnear.le_abs_sub hM hv

/-- What is nearest is at most twice as far from zero. -/
theorem exponent_le {r : ℚ} {m : Nat} {q : Int} (h : IsNearest r (m * 2 ^ q)) (hm : 0 < m) (hr : 0 ≤ r)
    (hle : r ≤ 2 ^ 63) : q ≤ 64 := by
  have hzero := h 0 ⟨0, 0, by decide, by simp⟩
  rw [sub_zero, abs_of_nonneg hr] at hzero
  have hone : (1 : ℚ) ≤ m := by exact_mod_cast hm
  have hpow : (2 : ℚ) ^ q ≤ 2 ^ (64 : Int) := by
    calc (2 : ℚ) ^ q ≤ m * 2 ^ q := le_mul_of_one_le_left (by positivity) hone
      _ ≤ 2 * r := by linarith [neg_abs_le (r - m * 2 ^ q)]
      _ ≤ 2 ^ (64 : Int) := by norm_num at hle ⊢; linarith
  exact (zpow_le_zpow_iff_right₀ one_lt_two).1 hpow

/-- The float one. -/
theorem unpack_one :
    (Float.ofBits 0x3FF0000000000000).toModel.unpack = .finite .positive leadingBit (-52) (by decide) :=
  rfl

/-- Multiplied by one, the nearest float of a number of fifty-three bits stays as near. -/
theorem Nearest.mul_one {r : ℚ} {x : Float} (h : Nearest r x.toModel.unpack) (hr : IsDyadic r) (hpos : 0 ≤ r)
    (hle : r ≤ 2 ^ 63) : Nearest r (x * Float.ofBits 0x3FF0000000000000).toModel.unpack := by
  obtain ⟨m, q, hm, hx, hfull, hcanonical, hnearest⟩ := h
  have hq := exponent_le hnearest hm hpos hle
  have hleast := hcanonical.le
  have hlog : (m * leadingBit).log2 = 52 + 52 := by
    rw [leadingBit_eq, log2_mul_two_pow hm.ne', log2_eq (n := 52) hfull hcanonical.lt]
  have hrounded := nearest_rounded (E := q + -52) hlog (by omega) (by omega)
  have hproduct : ((m * leadingBit : Nat) * 2 ^ (q + -52) : ℚ) = r := by
    rw [← hnearest.eq hr, zpow_add₀ two_ne_zero]
    push_cast [leadingBit]
    norm_num
    ring
  rw [hproduct] at hrounded
  have hmul : (x * Float.ofBits 0x3FF0000000000000).toModel = Float.Model.pack
      (roundWithAccuracy .binary64 .positive (m * leadingBit) (q + -52) .exact) := by
    show Float.Model.pack (UnpackedFloat.mul .binary64 x.toModel.unpack _) = _
    rw [hx, unpack_one]
    rfl
  rw [hmul]
  exact hrounded

/-- Before a number of at most fifty-three bits is rounded, it is filled up with zeros. -/
theorem round_eq {n : Nat} (hlog : n.log2 ≤ 52) :
    UnpackedFloat.round .binary64 .positive n 0 =
      roundWithAccuracy .binary64 .positive (n * 2 ^ (52 - n.log2)) (n.log2 - 52) .exact := by
  have htarget : Format.binary64.targetExponent (totalExponent n 0) = n.log2 - 52 := by
    have hbits : (Format.binary64.mantissaBits : Int) = 53 := rfl
    have hleast : Format.binary64.minExponent = -1074 := rfl
    unfold Format.targetExponent totalExponent
    rw [hbits, hleast]
    omega
  unfold UnpackedFloat.round decreaseExponent
  have hshift : (0 - ((n.log2 : Int) - 52)).toNat = 52 - n.log2 := by omega
  have hexponent : (0 : Int) - (52 - n.log2 : Nat) = n.log2 - 52 := by omega
  simp only [htarget, hshift, hexponent, Nat.shiftLeft_eq]

theorem nearest_toFloat {n : Nat} (hpos : 0 < n) (hn : n < 2 ^ 53) : Nearest n n.toUInt64.toFloat.toModel.unpack := by
  have hlog : n.log2 ≤ 52 := by
    have := (Nat.log2_lt hpos.ne').2 hn
    omega
  have hround : n.toUInt64.toFloat.toModel = Float.Model.pack (UnpackedFloat.round .binary64 .positive n 0) := by
    show Float.Model.pack (UnpackedFloat.normalize .binary64 (n.toUInt64.toNat : Int) 0 .positive) = _
    have htoNat : n.toUInt64.toNat = n := Nat.mod_eq_of_lt (by omega)
    have hgt : compare (n : Int) 0 = .gt := compare_gt_iff_gt.2 (by omega)
    rw [htoNat, UnpackedFloat.normalize, hgt]
    rfl
  have hfilled : (n * 2 ^ (52 - n.log2)).log2 = 52 + 0 := by
    rw [log2_mul_two_pow hpos.ne']
    omega
  have hrounded := nearest_rounded (E := n.log2 - 52) hfilled (by unfold leastExponent; omega) (by omega)
  have hvalue : ((n * 2 ^ (52 - n.log2) : Nat) * 2 ^ ((n.log2 : Int) - 52) : ℚ) = n := by
    have hexponent : (n.log2 : Int) - 52 = -(52 - n.log2 : Nat) := by omega
    rw [hexponent, zpow_neg, zpow_natCast]
    push_cast
    exact mul_inv_cancel_right₀ (by positivity) _
  rw [hround, round_eq hlog]
  rwa [hvalue] at hrounded

/-- A number of more than fifty-three bits is made a float as a decimal without an exponent. -/
theorem toModel_ofNat {n : Nat} (hn : ¬n < 2 ^ 53) (hshort : n.log2 < 64) :
    (Float.ofNat n).toModel =
      Float.Model.pack (roundWithAccuracy .binary64 .positive (n * 2 ^ 53) (-53) .exact) := by
  have hne : n ≠ 0 := by omega
  have hpow : (0 : Int) ≤ 2 ^ Format.binary64.exponentBits := by decide
  have hdecimal : Float.ofNat n = Float.ofModel (Float.Model.ofScientific n 0) := dif_neg fun h => hn h.1
  rw [hdecimal]
  show Float.Model.pack (UnpackedFloat.ofScientific .binary64 n 0) = _
  rw [UnpackedFloat.ofScientific, dif_neg hne, if_neg (by omega), if_neg (by omega), if_pos le_rfl]
  show Float.Model.pack (roundWithAccuracy .binary64 .positive ((n <<< 53) * 1) (-53 + 0) .exact) = _
  rw [Nat.shiftLeft_eq, Nat.mul_one]
  rfl

/-- The float of a number without a fraction. -/
theorem nearest_ofNat {n : Nat} (hpos : 0 < n) (hle : n ≤ 2 ^ 63) : Nearest n (Float.ofNat n).toModel.unpack := by
  by_cases hn : n < 2 ^ 53
  · have hdyadic : IsDyadic n := ⟨n, 0, hn, by simp⟩
    have hfloat : Float.ofNat n = n.toUInt64.toFloat * Float.ofBits 0x3FF0000000000000 :=
      dif_pos ⟨hn, by decide⟩
    rw [hfloat]
    exact (nearest_toFloat hpos hn).mul_one hdyadic (by positivity) (by exact_mod_cast hle)
  · have hlong : 53 ≤ n.log2 := (Nat.le_log2 hpos.ne').2 (by omega)
    have hshort : n.log2 < 64 := (Nat.log2_lt hpos.ne').2 (by omega)
    have hlog : (n * 2 ^ 53).log2 = 52 + (n.log2 + 1) := by
      rw [log2_mul_two_pow hpos.ne']
      omega
    have hrounded := nearest_rounded (E := -53) hlog (by unfold leastExponent; omega) (by omega)
    have hvalue : ((n * 2 ^ 53 : Nat) * 2 ^ (-53 : Int) : ℚ) = n := by
      rw [zpow_neg]
      push_cast
      exact mul_inv_cancel_right₀ (by positivity) _
    rw [toModel_ofNat hn hshort]
    rwa [hvalue] at hrounded

/-! ## Integers as floats -/

theorem Nearest.neg {r : ℚ} {x : Float} (h : Nearest r x.toModel.unpack) (hr : 0 ≤ r) (hle : r ≤ 2 ^ 63) :
    ∃ m q hm, x.neg.toModel.unpack = .finite .negative m q hm ∧ IsNearest r (m * 2 ^ q) := by
  obtain ⟨m, q, hm, hx, hfull, hcanonical, hnearest⟩ := h
  have hq := exponent_le hnearest hm hr hle
  refine ⟨m, q, hm, ?_, hnearest⟩
  show (Float.Model.pack (UnpackedFloat.neg x.toModel.unpack)).unpack = _
  rw [hx]
  exact unpack_pack hfull hcanonical (by omega)

theorem IsNearest.neg {r w : ℚ} (h : IsNearest r w) : IsNearest (-r) (-w) := by
  intro v hv
  calc |-r - -w| = |r - w| := by rw [← abs_neg]; ring_nf
    _ ≤ |r - -v| := h (-v) (isDyadic_neg hv)
    _ = |-r - v| := by rw [← abs_neg]; ring_nf

/-- The float of an integer is finite, and the nearest of all. -/
theorem exists_value_toFloat (a : Int64) :
    ∃ y, (ofFloat (Integer.toFloat a)).value? = some y ∧ IsNearest a.toInt y := by
  have hleast := Int64.le_toInt a
  have hgreatest := Int64.toInt_lt a
  unfold Integer.toFloat
  cases ha : a.toInt with
  | ofNat n =>
    have hn : a.toInt = n := ha
    have hle : n ≤ 2 ^ 63 := by omega
    obtain rfl | hpos := Nat.eq_zero_or_pos n
    · have hzero : ofFloat (Float.ofInt 0) = .finite false 0 leastExponent := by decide +kernel
      exact ⟨value false 0 leastExponent, congrArg value? hzero, fun v _ => by simp [value_zero]⟩
    · obtain ⟨m, q, hm, hu, -, -, hnearest⟩ := nearest_ofNat hpos hle
      refine ⟨m * 2 ^ q, ?_, hnearest⟩
      rw [ofFloat_eq, Float.ofInt, hu]
      rfl
  | negSucc n =>
    have hle : n + 1 ≤ 2 ^ 63 := by omega
    obtain ⟨m, q, hm, hu, hnearest⟩ := (nearest_ofNat n.succ_pos hle).neg (by positivity) (by exact_mod_cast hle)
    refine ⟨-(m * 2 ^ q), ?_, ?_⟩
    · rw [ofFloat_eq, Float.ofInt, hu]
      rfl
    · rw [Int.cast_negSucc]
      exact hnearest.neg

end PipeScript.Binary
