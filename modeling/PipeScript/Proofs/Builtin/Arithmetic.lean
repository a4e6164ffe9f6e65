/-
Exact arithmetic of integers. Sums and products are taken from the left, and the partial result is an integer as
long as each one so far has been. From the first one on that does not fit, all partial results are floats, whatever
comes later. So the result is an integer if all partial results fit, and it is exact then. Whether the arguments are
numbers at all does not depend on that.
-/
import Mathlib.Algebra.BigOperators.Group.List.Basic
import Mathlib.Algebra.Order.Ring.Abs
import PipeScript.Builtin.Call
import PipeScript.Proofs.Number.Integer
import PipeScript.Proofs.Run

namespace PipeScript

namespace Arithmetic

open Integer

variable {whole : Int64 → Int64 → Option Int64} {real : Float → Float → Float} {op : Int → Int → Int}

/-! ## Two numbers -/

theorem combine_int (a b : Int64) : combine whole real (.int a) (.int b) =
    match whole a b with
    | some n => .ok (.int n)
    | none => .ok (.float (real (toFloat a) (toFloat b))) := by
  simp only [combine]
  cases whole a b <;> rfl

variable (whole real) in
/-- Two numbers always can be combined. -/
theorem exists_combine {u v : Value} (hu : u.isNumber = true) (hv : v.isNumber = true) :
    ∃ r, combine whole real u v = .ok r ∧ r.isNumber = true := by
  rcases Value.isNumber_iff.1 hu with ⟨a, rfl⟩ | ⟨x, rfl⟩ <;>
    rcases Value.isNumber_iff.1 hv with ⟨b, rfl⟩ | ⟨y, rfl⟩
  · rw [combine_int]
    cases whole a b <;> exact ⟨_, rfl, rfl⟩
  all_goals exact ⟨_, rfl, rfl⟩

/-- What is no number cannot be added to one. -/
theorem combine_of_not_isNumber {u v : Value} (hu : u.isNumber = true) (hv : v.isNumber = false) :
    combine whole real u v = .error (.mismatch "a number" v.kind) := by
  rcases Value.isNumber_iff.1 hu with ⟨a, rfl⟩ | ⟨x, rfl⟩ <;>
  · cases v with
    | int | float => cases hv
    | null | bool | str | list | dict | function => rfl

/-- A float makes a float of everything. -/
theorem combine_float (x : Float) (v : Value) :
    Yields (fun r => ∃ y, r = .float y) (combine whole real (.float x) v) :=
  .after fun _ => .after fun _ => .ok ⟨_, rfl⟩

/-! ## Many numbers -/

/-- Integers are combined exactly, if the result fits. -/
def Exact (whole : Int64 → Int64 → Option Int64) (op : Int → Int → Int) : Prop :=
  ∀ a b, whole a b = ofInt? (op a.toInt b.toInt)

/-- The result of integers taken from the left. -/
def total (op : Int → Int → Int) (start : Int) (ns : List Int64) : Int :=
  (ns.map Int64.toInt).foldl op start

/-- All partial results fit. -/
def AllFit (op : Int → Int → Int) (start : Int) (ns : List Int64) : Prop :=
  ∀ p, p <+: ns → Fits (total op start p)

theorem allFit_cons {start : Int} {n : Int64} {ns : List Int64} (hstart : Fits start) :
    AllFit op start (n :: ns) ↔ AllFit op (op start n.toInt) ns := by
  constructor
  · intro h p hp
    exact h (n :: p) (List.cons_prefix_cons.2 ⟨rfl, hp⟩)
  · intro h p hp
    rcases List.prefix_cons_iff.1 hp with rfl | ⟨q, rfl, hq⟩
    · exact hstart
    · exact h q hq

/-- From a float on, all partial results are floats. -/
theorem foldlM_float (x : Float) (args : List Value) :
    Yields (fun r => ∃ y, r = .float y) (args.foldlM (combine whole real) (.float x)) := by
  refine .foldlM ⟨x, rfl⟩ ?_
  rintro _ v - ⟨y, rfl⟩
  exact combine_float y v

variable (whole real) in
/-- Numbers always come to a number. -/
theorem exists_foldlM {args : List Value} (hargs : ∀ v ∈ args, v.isNumber = true) {u : Value}
    (hu : u.isNumber = true) : ∃ r, args.foldlM (combine whole real) u = .ok r ∧ r.isNumber = true := by
  induction args generalizing u with
  | nil => exact ⟨u, rfl, hu⟩
  | cons v args ih =>
    rw [List.forall_mem_cons] at hargs
    obtain ⟨r, hr, hnumber⟩ := exists_combine whole real hu hargs.1
    rw [List.foldlM_cons, hr]
    exact ih hargs.2 hnumber

/-- The first argument that is no number is reported, however far the numbers before it have come. -/
theorem foldlM_of_find? {args : List Value} {v : Value} (hv : args.find? (fun v => !v.isNumber) = some v)
    {u : Value} (hu : u.isNumber = true) :
    args.foldlM (combine whole real) u = .error (.mismatch "a number" v.kind) := by
  induction args generalizing u with
  | nil => cases hv
  | cons v' args ih =>
    rw [List.foldlM_cons]
    cases hv' : v'.isNumber with
    | false =>
      obtain rfl : v' = v := by simpa [hv'] using hv
      rw [combine_of_not_isNumber hu hv']
      rfl
    | true =>
      obtain ⟨r, hr, hnumber⟩ := exists_combine whole real hu hv'
      rw [hr]
      exact ih (by simpa [hv'] using hv) hnumber

theorem foldlM_eq_error_iff {args : List Value} {u : Value} (hu : u.isNumber = true) {e : CallError} :
    args.foldlM (combine whole real) u = .error e ↔
      ∃ v, args.find? (fun v => !v.isNumber) = some v ∧ e = .mismatch "a number" v.kind := by
  cases hfind : args.find? (fun v => !v.isNumber) with
  | none =>
    have hargs : ∀ v ∈ args, v.isNumber = true := by simpa using List.find?_eq_none.1 hfind
    obtain ⟨r, hr, -⟩ := exists_foldlM whole real hargs hu
    simp [hr]
  | some v =>
    rw [foldlM_of_find? hfind hu]
    simp [eq_comm]

/-- Integers come to an integer exactly if all partial results fit. -/
theorem foldlM_eq_int_iff (hwhole : Exact whole op) {start n : Int64} {ns : List Int64} :
    (ns.map Value.int).foldlM (combine whole real) (.int start) = .ok (.int n) ↔
      AllFit op start.toInt ns ∧ n.toInt = total op start.toInt ns := by
  induction ns generalizing start with
  | nil =>
    have hfit : AllFit op start.toInt [] := fun p hp => by
      rw [List.prefix_nil.1 hp]
      exact fits_toInt start
    constructor
    · rintro ⟨⟩
      exact ⟨hfit, rfl⟩
    · rintro ⟨-, hn⟩
      rw [Int64.toInt_inj.1 hn]
      rfl
  | cons m ns ih =>
    rw [List.map_cons, List.foldlM_cons, combine_int, allFit_cons (fits_toInt start)]
    cases hm : whole start m with
    | some k =>
      have hk : k.toInt = op start.toInt m.toInt := ofInt?_eq_some_iff.1 (hwhole start m ▸ hm)
      rw [← hk]
      refine ih.trans ?_
      rw [total, total, List.map_cons, List.foldl_cons, ← hk]
    | none =>
      -- from here on there are floats only
      have hunfit : ¬Fits (op start.toInt m.toInt) := ofInt?_eq_none_iff.1 (hwhole start m ▸ hm)
      constructor
      · intro h
        obtain ⟨y, hy⟩ := foldlM_float _ _ _ h
        cases hy
      · intro h
        exact absurd (h.1 [] List.nil_prefix) hunfit

/-- The exact result if it may be an integer, and a float otherwise. -/
structure Promotes (fits : Prop) (value : Int) (answer : Except CallError Value) : Prop where
  exact : fits → ∃ n : Int64, n.toInt = value ∧ answer = .ok (.int n)
  promoted : ¬fits → ∃ x, answer = .ok (.float x)

theorem combine_promotes (hwhole : Exact whole op) (a b : Int64) :
    Promotes (Fits (op a.toInt b.toInt)) (op a.toInt b.toInt) (combine whole real (.int a) (.int b)) := by
  rw [combine_int, hwhole]
  constructor
  · intro hfits
    refine ⟨Int64.ofInt _, toInt_ofInt_of_fits hfits, ?_⟩
    rw [ofInt?, if_pos hfits]
  · intro hunfit
    rw [ofInt?, if_neg hunfit]
    exact ⟨_, rfl⟩

theorem foldlM_promotes (hwhole : Exact whole op) (start : Int64) (ns : List Int64) :
    Promotes (AllFit op start.toInt ns) (total op start.toInt ns)
      ((ns.map Value.int).foldlM (combine whole real) (.int start)) := by
  constructor
  · intro hfit
    have htotal := toInt_ofInt_of_fits (hfit ns List.prefix_rfl)
    exact ⟨_, htotal, (foldlM_eq_int_iff hwhole).2 ⟨hfit, htotal⟩⟩
  · intro hunfit
    have hnumbers : ∀ v ∈ ns.map Value.int, v.isNumber = true := by simp [Value.isNumber, Value.toFloat?]
    obtain ⟨r, hr, hnumber⟩ := exists_foldlM whole real hnumbers (u := .int start) rfl
    rcases Value.isNumber_iff.1 hnumber with ⟨n, rfl⟩ | ⟨x, rfl⟩
    · exact absurd ((foldlM_eq_int_iff hwhole).1 hr).1 hunfit
    · exact ⟨x, hr⟩

/-- Arguments are taken together one after the other: once there is a float, there is no integer again, and what
is no number is reported wherever it stands. -/
structure Accumulates (answer : List Value → Except CallError Value) : Prop where
  stays : ∀ args more x n, answer args = .ok (.float x) → answer (args ++ more) ≠ .ok (.int n)
  error_iff : ∀ args e, answer args = .error e ↔
    ∃ v, args.find? (fun v => !v.isNumber) = some v ∧ e = .mismatch "a number" v.kind

theorem foldlM_append_ne_int {u : Value} {args more : List Value} {x : Float} {n : Int64}
    (h : args.foldlM (combine whole real) u = .ok (.float x)) :
    (args ++ more).foldlM (combine whole real) u ≠ .ok (.int n) := by
  rw [List.foldlM_append, h]
  intro hint
  obtain ⟨y, hy⟩ := foldlM_float _ _ _ hint
  cases hy

/-! ## The functions -/

theorem mul_cons (v : Value) (args : List Value) :
    mul (v :: args) = (v :: args).foldlM (combine mul? (· * ·)) (.int 1) :=
  if_neg (List.cons_ne_nil v args)

theorem add_promotes (ns : List Int64) : Promotes (∀ p, p <+: ns → Fits (p.map Int64.toInt).sum)
    (ns.map Int64.toInt).sum (add (ns.map .int)) := by
  have htotal (p : List Int64) : (p.map Int64.toInt).sum = total (· + ·) 0 p := List.sum_eq_foldl
  simp only [htotal]
  exact foldlM_promotes (fun _ _ => rfl) 0 ns

theorem mul_promotes (n : Int64) (ns : List Int64) :
    Promotes (∀ p, p <+: n :: ns → Fits (p.map Int64.toInt).prod) ((n :: ns).map Int64.toInt).prod
      (mul ((n :: ns).map .int)) := by
  have htotal (p : List Int64) : (p.map Int64.toInt).prod = total (· * ·) 1 p := List.prod_eq_foldl
  simp only [htotal]
  rw [List.map_cons, mul_cons]
  exact foldlM_promotes (fun _ _ => rfl) 1 (n :: ns)

theorem sub_promotes (a b : Int64) :
    Promotes (Fits (a.toInt - b.toInt)) (a.toInt - b.toInt) (sub [.int a, .int b]) :=
  combine_promotes (fun _ _ => rfl) a b

theorem abs_promotes (a : Int64) : Promotes (Fits |a.toInt|) |a.toInt| (abs [.int a]) := by
  have habs : abs [.int a] = match abs? a with
    | some n => .ok (.int n)
    | none => .ok (.float (toFloat a).abs) := by
    simp only [abs, Arguments.one, bind, Except.bind]
    cases abs? a <;> rfl
  rw [habs, abs?, Int.abs_eq_natAbs, ofInt?]
  constructor
  · intro hfits
    rw [if_pos hfits]
    exact ⟨_, toInt_ofInt_of_fits hfits, rfl⟩
  · intro hunfit
    rw [if_neg hunfit]
    exact ⟨_, rfl⟩

theorem add_accumulates : Accumulates add where
  stays _ _ _ _ h := foldlM_append_ne_int h
  error_iff _ _ := foldlM_eq_error_iff rfl

theorem mul_accumulates : Accumulates mul where
  stays args more x n h := by
    cases args with
    | nil => cases h
    | cons v args =>
      rw [mul_cons] at h
      rw [List.cons_append, mul_cons]
      exact foldlM_append_ne_int h
  error_iff args e := by
    cases args with
    | nil => simp [mul]
    | cons v args => exact mul_cons v args ▸ foldlM_eq_error_iff rfl

end Arithmetic

variable {σ : Type}

namespace Builtin

open Arithmetic

/-- The sum of integers is exact if all sums of the first few are integers, and a float otherwise; so is the product
of at least one, the difference, and the magnitude. Where many arguments are taken together, a float stays a float,
and it fails exactly if one of them is no number. The world stays as it is. -/
theorem run_arithmetic (fuel : Nat) (call : Caller σ) (w : World σ) :
    (∀ args,
      (add.run fuel call args).run.run w = ((Arithmetic.add args).mapError .failed, w) ∧
      (mul.run fuel call args).run.run w = ((Arithmetic.mul args).mapError .failed, w) ∧
      (sub.run fuel call args).run.run w = ((Arithmetic.sub args).mapError .failed, w) ∧
      (abs.run fuel call args).run.run w = ((Arithmetic.abs args).mapError .failed, w)) ∧
    (∀ ns : List Int64, Promotes (∀ p, p <+: ns → Integer.Fits (p.map Int64.toInt).sum)
      (ns.map Int64.toInt).sum (Arithmetic.add (ns.map .int))) ∧
    (∀ (n : Int64) (ns : List Int64), Promotes (∀ p, p <+: n :: ns → Integer.Fits (p.map Int64.toInt).prod)
      ((n :: ns).map Int64.toInt).prod (Arithmetic.mul ((n :: ns).map .int))) ∧
    (∀ a b : Int64, Promotes (Integer.Fits (a.toInt - b.toInt)) (a.toInt - b.toInt)
      (Arithmetic.sub [.int a, .int b])) ∧
    (∀ a : Int64, Promotes (Integer.Fits |a.toInt|) |a.toInt| (Arithmetic.abs [.int a])) ∧
    Accumulates Arithmetic.add ∧ Accumulates Arithmetic.mul :=
  ⟨fun _ => ⟨Run.run_ofExcept _ w, Run.run_ofExcept _ w, Run.run_ofExcept _ w, Run.run_ofExcept _ w⟩,
    add_promotes, mul_promotes, sub_promotes, abs_promotes, add_accumulates, mul_accumulates⟩

/-- The three numbers come to the greatest integer, but the first two do not fit. -/
theorem run_add_thereAndBack :
    ¬(∀ p, p <+: [Int64.maxValue, 1, -1] → Integer.Fits (p.map Int64.toInt).sum) ∧
      ∃ x, (add.run 0 (fun _ _ => throw .exhausted) [.int Int64.maxValue, .int 1, .int (-1)]).run.run emptyWorld =
        (.ok (.float x), emptyWorld) := by
  have hunfit : ¬(∀ p, p <+: [Int64.maxValue, 1, -1] → Integer.Fits (p.map Int64.toInt).sum) := fun h =>
    absurd (h [Int64.maxValue, 1] (by decide)) (by decide)
  obtain ⟨hrun, hadd, -⟩ := run_arithmetic 0 (fun _ _ => throw .exhausted) emptyWorld
  obtain ⟨x, hx⟩ := (hadd _).promoted hunfit
  refine ⟨hunfit, x, (hrun _).1.trans ?_⟩
  exact congrArg (fun answer => (Except.mapError Fault.failed answer, emptyWorld)) hx

end Builtin

end PipeScript
