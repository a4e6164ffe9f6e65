/-
Integers and floats compared with each other. An integer is compared with a float by the float nearest to it.
So they compare as the two numbers do, unless the integer is rounded to just that float and is another number.
Where there is no such pair, all numbers are compared by their places, and equality of numbers is transitive.
Up to two to the fifty-third no integer is rounded.
-/
import PipeScript.Proofs.Heap.Coherence
import PipeScript.Proofs.Number.Rounding

namespace PipeScript

open Binary

namespace Integer

/-- The float is the nearest to the integer. -/
def RoundsTo (n : Int64) (x : Float) : Prop :=
  (ofFloat (toFloat n)).value? = (ofFloat x).value?

/-- The float is the integer. -/
def Is (n : Int64) (x : Float) : Prop :=
  (ofFloat x).value? = some (n.toInt : ℚ)

/-- An integer of up to fifty-three bits is not rounded, nor is the next one. -/
theorem is_toFloat {n : Int64} (hn : n.toInt.natAbs ≤ 9007199254740992) : Is n (toFloat n) := by
  obtain ⟨y, hy, hnearest⟩ := exists_value_toFloat n
  have hdyadic : IsDyadic n.toInt := by
    by_cases hlt : n.toInt.natAbs < 2 * leadingBit
    · exact ⟨n.toInt, 0, hlt, by simp⟩
    · -- the first number of fifty-four bits ends in zero
      have hends : n.toInt = leadingBit * 2 ∨ n.toInt = -leadingBit * 2 := by
        unfold leadingBit at *
        omega
      rcases hends with he | he
      · exact ⟨leadingBit, 1, by decide, by rw [he]; norm_num⟩
      · exact ⟨-leadingBit, 1, by decide, by rw [he]; norm_num⟩
  rw [Is, hy, hnearest.eq hdyadic]

end Integer

namespace Value

/-- The place of a number among the numbers and the two infinities. -/
def place? : Value → Option Place
  | .int n => some (n.toInt : ℚ)
  | .float x => (ofFloat x).place?
  | _ => none

/-- If the one is an integer and the other a float that it is rounded to, they are the same number. -/
def Agrees (a b : Value) : Prop :=
  ∀ n x, a = .int n ∧ b = .float x ∨ a = .float x ∧ b = .int n → Integer.RoundsTo n x → Integer.Is n x

end Value

namespace Heap

variable {h : Heap} {a b c : Value} {n : Int64} {x : Float}

theorem place?_eq_of_value? {B : Binary} {v : ℚ} (hB : B.value? = some v) : B.place? = some (v : Place) := by
  cases B <;> cases hB
  rfl

theorem floatOrder_eq_places (x y : Float) :
    floatOrder x y = (ofFloat x).place?.bind fun v => (ofFloat y).place?.map (compare v) := by
  rw [floatOrder_eq_compare, ofFloat_eq, ofFloat_eq]
  exact compare_unpacked (ofFloat_unpack x) (ofFloat_unpack y)

/-- An integer has the same order as its place beside every float, but beside one that it is rounded to without
being it. -/
theorem leafOrder_int_float_iff :
    leafOrder (.int n) (.float x) = (ofFloat x).place?.map (compare ((n.toInt : ℚ) : Place)) ↔
      (Integer.RoundsTo n x → Integer.Is n x) := by
  obtain ⟨y, hy, hnearest⟩ := exists_value_toFloat n
  have horder : leafOrder (.int n) (.float x) = (ofFloat x).place?.map (compare (y : Place)) := by
    show floatOrder (Integer.toFloat n) x = _
    rw [floatOrder_eq_places, place?_eq_of_value? hy]
    rfl
  rw [horder, Integer.RoundsTo, Integer.Is, hy]
  rcases hx : ofFloat x with _ | negative | ⟨negative, m, q⟩
  · exact ⟨fun _ => nofun, fun _ => rfl⟩
  · refine ⟨fun _ => nofun, fun _ => congrArg some ?_⟩
    cases negative with
    | false => exact (compare_lt_iff_lt.2 (coe_lt_top y)).trans (compare_lt_iff_lt.2 (coe_lt_top _)).symm
    | true => exact (compare_gt_iff_gt.2 (bot_lt_coe y)).trans (compare_gt_iff_gt.2 (bot_lt_coe _)).symm
  · have hdyadic : IsDyadic (value negative m q) := isDyadic_of_value? (congrArg value? hx)
    simp only [place?, value?, Option.map_some, Option.some.injEq, compare_coe]
    rw [hnearest.compare_eq_iff hdyadic, eq_comm (a := (n.toInt : ℚ))]

theorem compare_intCast (a b : Int) : compare (a : ℚ) (b : ℚ) = compare a b := by
  rcases lt_trichotomy a b with hab | rfl | hab
  · rw [compare_lt_iff_lt.2 hab, compare_lt_iff_lt.2 (by exact_mod_cast hab)]
  · rw [compare_eq_iff_eq.2 rfl, compare_eq_iff_eq.2 rfl]
  · rw [compare_gt_iff_gt.2 hab, compare_gt_iff_gt.2 (by exact_mod_cast hab)]

/-- Numbers that agree are ordered as their places are. -/
theorem leafOrder_eq_places (ha : a.isNumber = true) (hb : b.isNumber = true) (hab : a.Agrees b) :
    leafOrder a b = a.place?.bind fun v => b.place?.map (compare v) := by
  rcases Value.isNumber_iff.1 ha with ⟨n, rfl⟩ | ⟨x, rfl⟩ <;> rcases Value.isNumber_iff.1 hb with ⟨m, rfl⟩ | ⟨y, rfl⟩
  · exact congrArg some ((compare_coe _ _).trans (compare_intCast _ _)).symm
  · exact leafOrder_int_float_iff.2 (hab n y (.inl ⟨rfl, rfl⟩))
  · rw [leafOrder_swap, leafOrder_int_float_iff.2 (hab m x (.inr ⟨rfl, rfl⟩)), Option.map_map]
    show _ = (ofFloat x).place?.bind fun v => some (compare v ((m.toInt : ℚ) : Place))
    rw [Option.map_eq_bind]
    congr 1
    funext v
    exact congrArg some Std.OrientedOrd.eq_swap.symm
  · exact floatOrder_eq_places x y

/-- Numbers are equal that compare as equal. -/
theorem eq_iff_leafOrder (ha : a.isNumber = true) (hb : b.isNumber = true) :
    h.eq a b = true ↔ leafOrder a b = some .eq := by
  constructor
  · intro hab
    cases eq_iff_matches.1 hab with
    | int => exact congrArg some Std.ReflOrd.compare_self
    | intFloat hx | floatInt hx | float hx => exact floatOrder_eq_iff.2 hx
    | null | bool | str | function | sameList | sameDict | lists | dicts => cases ha
  · intro ho
    exact eq_iff_matches.2 (matches_of_leafOrder ho)

theorem order_number (ha : a.isNumber = true) : h.order a b = leafOrder a b := by
  refine orderOn_leaf fun r s hr _ => ?_
  rw [hr] at ha
  cases ha

theorem compare_places_eq_iff {p q : Option Place} :
    (p.bind fun v => q.map (compare v)) = some .eq ↔ ∃ v, p = some v ∧ q = some v := by
  rcases p with _ | v <;> rcases q with _ | w
  case some.some =>
    rw [Option.bind_some, Option.map_some, Option.some.injEq, compare_eq_iff_eq]
    simp [eq_comm]
  all_goals simp

/-- So equality is transitive among numbers that agree. -/
theorem eq_trans_of_agrees (ha : a.isNumber = true) (hb : b.isNumber = true) (hc : c.isNumber = true)
    (hab : a.Agrees b) (hbc : b.Agrees c) (hac : a.Agrees c) (heq : h.eq a b = true) (heq' : h.eq b c = true) :
    h.eq a c = true := by
  rw [eq_iff_leafOrder ha hb, leafOrder_eq_places ha hb hab, compare_places_eq_iff] at heq
  rw [eq_iff_leafOrder hb hc, leafOrder_eq_places hb hc hbc, compare_places_eq_iff] at heq'
  rw [eq_iff_leafOrder ha hc, leafOrder_eq_places ha hc hac, compare_places_eq_iff]
  obtain ⟨v, hav, hbv⟩ := heq
  obtain ⟨w, hbw, hcw⟩ := heq'
  obtain rfl := Option.some.inj (hbv.symm.trans hbw)
  exact ⟨v, hav, hcw⟩

/-- An integer and a float that denotes the number `v` compare as the two numbers do. -/
structure ComparesAs (h : Heap) (n : Int64) (x : Float) (v : ℚ) : Prop where
  order : h.order (.int n) (.float x) = some (compare (n.toInt : ℚ) v)
  order_back : h.order (.float x) (.int n) = some (compare v (n.toInt : ℚ))
  eq : h.eq (.int n) (.float x) = true ↔ (n.toInt : ℚ) = v
  eq_back : h.eq (.float x) (.int n) = true ↔ (n.toInt : ℚ) = v

theorem comparesAs_iff {v : ℚ} (hx : (ofFloat x).value? = some v) :
    ComparesAs h n x v ↔ (Integer.RoundsTo n x → Integer.Is n x) := by
  rw [← leafOrder_int_float_iff, place?_eq_of_value? hx, Option.map_some, compare_coe,
    ← order_number (h := h) (a := .int n) rfl]
  constructor
  · exact fun hcompares => hcompares.order
  · intro ho
    have heq : h.eq (.int n) (.float x) = true ↔ (n.toInt : ℚ) = v := by
      rw [eq_iff_leafOrder rfl rfl, ← order_number rfl, ho, Option.some.injEq, compare_eq_iff_eq]
    refine ⟨ho, ?_, heq, by rwa [eq_symm]⟩
    rw [order_swap, ho, Option.map_some, ← Std.OrientedOrd.eq_swap]

/-- A finite float and an integer compare as numbers exactly if the float is not the one that the integer is
rounded to, or is the integer. It is rounded to the nearest float, and not at all up to two to the fifty-third.
Equality is transitive among numbers where all integers and floats compare so. -/
theorem compares_numbers (h : Heap) :
    (∀ (n : Int64) (x : Float) (v : ℚ), (ofFloat x).value? = some v →
      (ComparesAs h n x v ↔ (Integer.RoundsTo n x → Integer.Is n x))) ∧
    (∀ n : Int64, ∃ y, (ofFloat (Integer.toFloat n)).value? = some y ∧
      (∀ z v, (ofFloat z).value? = some v → |(n.toInt : ℚ) - y| ≤ |n.toInt - v|) ∧
      (n.toInt.natAbs ≤ 9007199254740992 → y = n.toInt)) ∧
    (∀ a b c : Value, a.isNumber = true → b.isNumber = true → c.isNumber = true →
      a.Agrees b → b.Agrees c → a.Agrees c → h.eq a b = true → h.eq b c = true → h.eq a c = true) := by
  refine ⟨fun n x v hx => comparesAs_iff hx, fun n => ?_, fun a b c ha hb hc => eq_trans_of_agrees ha hb hc⟩
  obtain ⟨y, hy, hnearest⟩ := exists_value_toFloat n
  refine ⟨y, hy, fun z v hz => hnearest v (isDyadic_of_value? hz), fun hn => ?_⟩
  exact Option.some.inj (hy.symm.trans (Integer.is_toFloat hn))

/-- The float two to the fifty-third. -/
def limit : Float :=
  Float.ofBits 0x4340000000000000

theorem value?_limit : (ofFloat limit).value? = some 9007199254740992 := by
  have hparts : ofFloat limit = .finite false leadingBit 1 := by decide +kernel
  rw [hparts]
  norm_num [value?, value, leadingBit]

/-- The integer two to the fifty-third compares with the float as the same number. -/
theorem compares_limit : (ofFloat limit).value? = some 9007199254740992 ∧
    ComparesAs empty 9007199254740992 limit 9007199254740992 :=
  ⟨value?_limit, ((compares_numbers empty).1 _ _ _ value?_limit).2 fun _ => value?_limit⟩

/-- The next integer is rounded to that float, and is equal to it, but not to the integer that the float is. -/
theorem eq_limit_not_trans : (ofFloat limit).value? = some 9007199254740992 ∧
    empty.order (.int 9007199254740993) (.float limit) = some .eq ∧
    empty.eq (.int 9007199254740993) (.float limit) = true ∧
    empty.eq (.float limit) (.int 9007199254740992) = true ∧
    empty.eq (.int 9007199254740993) (.int 9007199254740992) = false := by
  have horder : leafOrder (.int 9007199254740993) (.float limit) = some .eq := by decide +kernel
  have hback : leafOrder (.float limit) (.int 9007199254740992) = some .eq := by decide +kernel
  have hne : leafOrder (.int 9007199254740993) (.int 9007199254740992) ≠ some .eq := by decide +kernel
  refine ⟨value?_limit, ?_, (eq_iff_leafOrder rfl rfl).2 horder, (eq_iff_leafOrder rfl rfl).2 hback, ?_⟩
  · rw [order_number rfl]
    exact horder
  · exact Bool.eq_false_iff.2 fun heq => hne ((eq_iff_leafOrder rfl rfl).1 heq)

end Heap

end PipeScript
