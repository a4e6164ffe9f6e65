/-
Slices. Each bound says a place of the row, where a negative one counts from its end, and what is cut out are the
items from the one place on and before the other. The sums that this takes are integers of the program for every row
whose length is one, and the places found with them are those of the row, in order. So to cut a row at any place
gives two parts that make it up again.
-/
import Mathlib.Algebra.Order.Ring.Int
import Mathlib.Data.Nat.Cast.Order.Ring
import Mathlib.Tactic.SplitIfs
import PipeScript.Builtin.Call
import PipeScript.Proofs.Heap.Copy
import PipeScript.Proofs.Heap.Display
import PipeScript.Proofs.Run

namespace PipeScript

namespace Slice

variable {α : Type}

/-! ## Places -/

/-- The place that a bound says, among `length` items: a negative one is counted from the end, and none is before the
first item or behind the last. One that is left open says the place `otherwise`. -/
def told (length : Nat) (otherwise : Int) : Option Int64 → Int
  | none => otherwise
  | some s => if s.toInt < 0 then max (s.toInt + length) 0 else min s.toInt length

theorem place_eq (length : Nat) (s : Int64) (otherwise : Int) :
    (place length s : Int) = told length otherwise (some s) := by
  have hplace : place length s = if s.toInt < 0 then (s.toInt + length).toNat else min s.toInt.toNat length := rfl
  rw [hplace, told]
  split <;> omega

theorem place_le (length : Nat) (s : Int64) : place length s ≤ length := by
  have hplace := place_eq length s 0
  unfold told at hplace
  split at hplace <;> omega

theorem getD_place_eq (length otherwise : Nat) (s : Option Int64) :
    (((s.map (place length)).getD otherwise : Nat) : Int) = told length otherwise s := by
  cases s with
  | none => rfl
  | some s => exact place_eq length s otherwise

theorem getD_place_le {length otherwise : Nat} (h : otherwise ≤ length) (s : Option Int64) :
    (s.map (place length)).getD otherwise ≤ length := by
  cases s with
  | none => exact h
  | some s => exact place_le length s

/-- The first place is the one that the first bound says, and the second one too unless it would come before it. -/
theorem range_eq (length : Nat) (start stop : Option Int64) :
    ((range length start stop).1 : Int) = told length 0 start ∧
      ((range length start stop).2 : Int) = max (told length length stop) (told length 0 start) := by
  have hlow : (((start.map (place length)).getD 0 : Nat) : Int) = told length 0 start := getD_place_eq length 0 start
  have hhigh := getD_place_eq length length stop
  refine ⟨hlow, ?_⟩
  rw [← hlow, ← hhigh]
  exact Nat.cast_max _ _

/-- The places are in order, and within the row. -/
theorem range_le (length : Nat) (start stop : Option Int64) :
    (range length start stop).1 ≤ (range length start stop).2 ∧ (range length start stop).2 ≤ length := by
  have hlow : (range length start stop).1 ≤ length := getD_place_le (Nat.zero_le length) start
  exact ⟨Nat.le_max_right _ _, Nat.max_le.2 ⟨getD_place_le (Nat.le_refl length) stop, hlow⟩⟩

/-! ## Items -/

/-- The items at the places from `low` on and before `high`, in order. -/
def between (low high : Int) (row : List α) : List α :=
  (row.zipIdx.filter fun (_, j) => low ≤ j ∧ j < high).map Prod.fst

/-- The items from the place that the one bound says on, and before the one that the other says. -/
def selected (start stop : Option Int64) (row : List α) : List α :=
  between (told row.length 0 start) (told row.length row.length stop) row

/-- Places are counted from `k` here, as the row may be the rest of a longer one. -/
theorem filter_zipIdx (low high k : Nat) (row : List α) :
    ((row.zipIdx k).filter fun (_, j) => (low : Int) ≤ j ∧ (j : Int) < high).map Prod.fst =
      (row.take (high - k)).drop (low - k) := by
  induction row generalizing k with
  | nil => simp
  | cons x row ih =>
    rw [List.zipIdx_cons]
    by_cases hin : low ≤ k ∧ k < high
    · obtain ⟨n, hn⟩ : ∃ n, high - k = n + 1 := ⟨high - k - 1, by omega⟩
      rw [List.filter_cons_of_pos (by simpa using hin), List.map_cons, ih, hn, List.take_succ_cons,
        (by omega : low - k = 0), (by omega : low - (k + 1) = 0), (by omega : high - (k + 1) = n)]
      rfl
    · rw [List.filter_cons_of_neg (by simpa using hin), ih]
      by_cases hhigh : high ≤ k
      · rw [(by omega : high - k = 0), (by omega : high - (k + 1) = 0)]
        simp
      · obtain ⟨n, hn⟩ : ∃ n, high - k = n + 1 := ⟨high - k - 1, by omega⟩
        obtain ⟨m, hm⟩ : ∃ m, low - k = m + 1 := ⟨low - k - 1, by omega⟩
        rw [hn, hm, (by omega : high - (k + 1) = n), (by omega : low - (k + 1) = m)]
        rfl

theorem between_max (low high : Int) (row : List α) : between low (max high low) row = between low high row := by
  unfold between
  congr 2
  funext p
  exact decide_eq_decide.2 (by omega)

/-- What is cut out are the items between the two places that the bounds say. -/
theorem apply_eq (start stop : Option Int64) (row : List α) : apply start stop row = selected start stop row := by
  obtain ⟨hlow, hhigh⟩ := range_eq row.length start stop
  rw [selected, ← between_max, ← hhigh, ← hlow]
  exact (filter_zipIdx _ _ 0 row).symm

/-- The two parts that a row is cut into make it up again. -/
theorem apply_append_apply (k : Int64) (row : List α) :
    apply none (some k) row ++ apply (some k) none row = row := by
  have hle : place row.length k ≤ row.length := place_le row.length k
  have hfirst : apply none (some k) row = row.take (place row.length k) := by
    show (row.take (max (place row.length k) 0)).drop 0 = _
    rw [Nat.max_zero, List.drop_zero]
  have hsecond : apply (some k) none row = row.drop (place row.length k) := by
    show (row.take (max row.length (place row.length k))).drop _ = _
    rw [Nat.max_eq_left hle, List.take_length]
    rfl
  rw [hfirst, hsecond, List.take_append_drop]

/-! ## Places as integers of the program -/

/-- The place of a bound, computed with integers of the program. There is none if a sum does not fit. -/
def place? (length bound : Int64) : Option Int64 := do
  let index ← if bound < 0 then Integer.add? bound length else some bound
  return if index < 0 then 0 else if length < index then length else index

/-- Both places, computed with integers of the program. -/
def range? (length : Int64) (start stop : Option Int64) : Option (Int64 × Int64) := do
  let low ← start.elim (some 0) (place? length)
  let high ← stop.elim (some length) (place? length)
  return (low, if high < low then low else high)

variable {length : Int64} {n : Nat}

/-- The sum of a negative bound and a length always fits. -/
theorem exists_place? (hlength : length.toInt = n) (bound : Int64) :
    ∃ p, place? length bound = some p ∧ p.toInt = place n bound := by
  have hclamp (index : Int64) : (if index < 0 then 0 else if length < index then length else index).toInt =
      max 0 (min index.toInt n) := by
    simp only [apply_ite Int64.toInt, Int64.lt_iff_toInt_lt, Int64.toInt_zero, hlength]
    split_ifs <;> omega
  rw [place_eq n bound 0, told]
  unfold place?
  by_cases hneg : bound.toInt < 0
  · have hfits : Integer.Fits (bound.toInt + length.toInt) := by
      have hbound := Integer.fits_toInt bound
      have hlen := Integer.fits_toInt length
      unfold Integer.Fits at *
      omega
    have hsum : Integer.add? bound length = some (Int64.ofInt (bound.toInt + length.toInt)) :=
      Integer.ofInt?_of_fits hfits
    rw [if_pos (Int64.lt_iff_toInt_lt.2 hneg), if_pos hneg, hsum]
    refine ⟨_, rfl, (hclamp _).trans ?_⟩
    rw [Integer.toInt_ofInt_of_fits hfits, hlength]
    omega
  · rw [if_neg (mt Int64.lt_iff_toInt_lt.1 hneg), if_neg hneg]
    refine ⟨_, rfl, (hclamp _).trans ?_⟩
    omega

theorem exists_elim_place? (hlength : length.toInt = n) {otherwise : Int64} {m : Nat} (hm : otherwise.toInt = m)
    (s : Option Int64) : ∃ p, s.elim (some otherwise) (place? length) = some p ∧
      p.toInt = ((s.map (place n)).getD m : Nat) := by
  cases s with
  | none => exact ⟨otherwise, rfl, hm⟩
  | some s => exact exists_place? hlength s

theorem exists_range? (hlength : length.toInt = n) (start stop : Option Int64) :
    ∃ low high, range? length start stop = some (low, high) ∧
      low.toInt = (range n start stop).1 ∧ high.toInt = (range n start stop).2 := by
  obtain ⟨low, hlow, hlow'⟩ := exists_elim_place? hlength Int64.toInt_zero start
  obtain ⟨high, hhigh, hhigh'⟩ := exists_elim_place? hlength hlength stop
  refine ⟨low, if high < low then low else high, ?_, hlow', ?_⟩
  · rw [range?, hlow, hhigh]
    rfl
  · simp only [apply_ite Int64.toInt, Int64.lt_iff_toInt_lt, hlow', hhigh', range]
    split_ifs <;> omega

/-- The argument of a bound, where null leaves it open. -/
def argument : Option Int64 → Value
  | none => .null
  | some n => .int n

theorem bound_argument (s : Option Int64) : Arguments.bound (argument s) = .ok s := by
  cases s <;> rfl

end Slice

/-! ## The functions -/

variable {h : Heap} {σ : Type}

namespace Lists

theorem slice_list (r : ListRef) (start stop : Option Int64) :
    slice h [.list r, Slice.argument start, Slice.argument stop] =
      .ok (made h (Slice.apply start stop (h.items r))) := by
  simp only [slice, Arguments.twoOrThree, bind, Except.bind, Slice.bound_argument]
  rfl

theorem slice_str (t : String) (start stop : Option Int64) :
    slice h [.str t, Slice.argument start, Slice.argument stop] =
      .ok (Words.ofChars (Slice.apply start stop t.toList), h) := by
  simp only [slice, Arguments.twoOrThree, bind, Except.bind, Slice.bound_argument]
  rfl

/-- A text is cut by both functions alike, with any arguments. -/
theorem slice_str_eq_substring (t : String) (args : List Value) :
    slice h (.str t :: args) = (Words.substring h (.str t :: args)).map (·, h) := by
  have hargs : (∃ e, Arguments.twoOrThree (.str t :: args) = .error e) ∨
      ∃ a b, Arguments.twoOrThree (.str t :: args) = .ok (.str t, a, b) := by
    rcases args with _ | ⟨a, _ | ⟨b, _ | ⟨c, args⟩⟩⟩
    · exact .inl ⟨_, rfl⟩
    · exact .inr ⟨a, .null, rfl⟩
    · exact .inr ⟨a, b, rfl⟩
    · exact .inl ⟨_, rfl⟩
  unfold slice Words.substring
  rcases hargs with ⟨e, he⟩ | ⟨a, b, hab⟩
  · rw [he]
    rfl
  · simp only [hab, bind, Except.bind]
    cases Arguments.bound a with
    | error e => rfl
    | ok start =>
      cases Arguments.bound b with
      | error e => rfl
      | ok stop =>
        dsimp only
        rw [Heap.display_str]
        rfl

end Lists

namespace Heap

/-- To make a new list of what is cut out of a list leaves that list as it is, even if the heap does not have it. -/
theorem items_newList_slice (r : ListRef) (start stop : Option Int64) :
    (h.newList (Slice.apply start stop (h.items r))).2.items r = h.items r := by
  rw [items_newList]
  split
  · next hr =>
    have hnil : h.items r = [] := items_eq_nil (hr ▸ Nat.lt_irrefl _)
    rw [hnil]
    simp [Slice.apply]
  · rfl

end Heap

namespace Builtin

variable (fuel : Nat) (call : Caller σ) (w : World σ)

theorem run_slice_list (r : ListRef) (start stop : Option Int64) :
    (slice.run fuel call [.list r, Slice.argument start, Slice.argument stop]).run.run w =
      (Run.newList (Slice.apply start stop (w.heap.items r))).run.run w := by
  rw [Run.run_newList]
  refine (Run.run_changing (Lists.slice · _) w).trans ?_
  rw [Lists.slice_list]
  rfl

theorem run_slice_str (t : String) (start stop : Option Int64) :
    (slice.run fuel call [.str t, Slice.argument start, Slice.argument stop]).run.run w =
      (.ok (Words.ofChars (Slice.apply start stop t.toList)), w) := by
  refine (Run.run_changing (Lists.slice · _) w).trans ?_
  rw [Lists.slice_str]

/-- Cuts before the place `k`, and then from it on. -/
def halves (v : Value) (k : Int64) : Run σ (Value × Value) := do
  let before ← slice.run fuel call [v, .null, .int k]
  let after ← slice.run fuel call [v, .int k, .null]
  return (before, after)

theorem run_halves_list (r : ListRef) (k : Int64) :
    ∃ before after w', (halves fuel call (.list r) k).run.run w = (.ok (.list before, .list after), w') ∧
      w'.heap.items before ++ w'.heap.items after = w.heap.items r := by
  let row := w.heap.items r
  let w₁ : World σ := { w with heap := (w.heap.newList (Slice.apply none (Option.some k) row)).2 }
  let w₂ : World σ := { w with heap := (w₁.heap.newList (Slice.apply (Option.some k) none row)).2 }
  let before := (w.heap.newList (Slice.apply none (Option.some k) row)).1
  let after := (w₁.heap.newList (Slice.apply (Option.some k) none row)).1
  have hfirst : (slice.run fuel call [.list r, .null, .int k]).run.run w = (.ok (.list before), w₁) :=
    (run_slice_list fuel call w r none (Option.some k)).trans (Run.run_newList _ w)
  have hsecond : (slice.run fuel call [.list r, .int k, .null]).run.run w₁ = (.ok (.list after), w₂) := by
    have hrow : w₁.heap.items r = row := Heap.items_newList_slice r none (Option.some k)
    refine (run_slice_list fuel call w₁ r (Option.some k) none).trans ?_
    rw [hrow]
    exact Run.run_newList _ w₁
  have hne : before ≠ after := fun he => by simpa [before, after, w₁, Heap.newList] using congrArg ListRef.index he
  refine ⟨before, after, w₂, ?_, ?_⟩
  · unfold halves
    rw [Run.run_bind_of_ok hfirst, Run.run_bind_of_ok hsecond]
    rfl
  · have hbefore : w₂.heap.items before = Slice.apply none (Option.some k) row := by
      rw [Heap.items_newList, if_neg hne, Heap.items_newList, if_pos rfl]
    have hafter : w₂.heap.items after = Slice.apply (Option.some k) none row := by
      rw [Heap.items_newList, if_pos rfl]
    rw [hbefore, hafter, Slice.apply_append_apply]

theorem run_halves_str (t : String) (k : Int64) :
    ∃ before after, (halves fuel call (.str t) k).run.run w = (.ok (.str before, .str after), w) ∧
      before ++ after = t := by
  refine ⟨String.ofList (Slice.apply none (Option.some k) t.toList),
    String.ofList (Slice.apply (Option.some k) none t.toList), ?_, ?_⟩
  · refine (Run.run_bind_of_ok (run_slice_str fuel call w t none (Option.some k)) _).trans ?_
    refine (Run.run_bind_of_ok (run_slice_str fuel call w t (Option.some k) none) _).trans ?_
    rfl
  · rw [← String.ofList_append, Slice.apply_append_apply, String.ofList_toList]

/-- Slicing gives the items between the two places that the bounds say, as a new list, or as a text of characters
where a text is sliced. A bound that is left out is as good as null, and a substring of a text is the same as a slice.
The places are in order and within the row, and can be computed without a sum that overflows. Cut before some place
and from it on, a row comes to itself again. -/
theorem run_slice (fuel : Nat) (call : Caller σ) (w : World σ) :
    (∀ (r : ListRef) (start stop : Option Int64),
      (slice.run fuel call [.list r, Slice.argument start, Slice.argument stop]).run.run w =
        (Run.newList (Slice.selected start stop (w.heap.items r))).run.run w) ∧
    (∀ (t : String) (start stop : Option Int64),
      (slice.run fuel call [.str t, Slice.argument start, Slice.argument stop]).run.run w =
        (.ok (.str (String.ofList (Slice.selected start stop t.toList))), w)) ∧
    (∀ v start, slice.run fuel call [v, start] = slice.run fuel call [v, start, .null]) ∧
    (∀ (t : String) (args : List Value), (substring.run fuel call (.str t :: args)).run.run w =
      (slice.run fuel call (.str t :: args)).run.run w) ∧
    (∀ (n : Nat) (start stop : Option Int64),
      (Slice.range n start stop).1 ≤ (Slice.range n start stop).2 ∧ (Slice.range n start stop).2 ≤ n ∧
      ∀ length : Int64, length.toInt = n → ∃ low high, Slice.range? length start stop = Option.some (low, high) ∧
        low.toInt = (Slice.range n start stop).1 ∧ high.toInt = (Slice.range n start stop).2) ∧
    (∀ (r : ListRef) (k : Int64), ∃ before after w',
      (halves fuel call (.list r) k).run.run w = (.ok (.list before, .list after), w') ∧
      w'.heap.items before ++ w'.heap.items after = w.heap.items r) ∧
    (∀ (t : String) (k : Int64), ∃ before after,
      (halves fuel call (.str t) k).run.run w = (.ok (.str before, .str after), w) ∧ before ++ after = t) := by
  refine ⟨fun r start stop => ?_, fun t start stop => ?_, fun v start => rfl, fun t args => ?_,
    fun n start stop => ?_, run_halves_list fuel call w, run_halves_str fuel call w⟩
  · rw [run_slice_list, Slice.apply_eq]
  · rw [run_slice_str, Slice.apply_eq]
    rfl
  · refine (Run.run_reading (Words.substring · _) w).trans (Eq.trans ?_ (Run.run_changing (Lists.slice · _) w).symm)
    rw [Lists.slice_str_eq_substring]
    cases Words.substring w.heap (.str t :: args) <;> rfl
  · obtain ⟨hle, hle'⟩ := Slice.range_le n start stop
    exact ⟨hle, hle', fun length hlength => Slice.exists_range? hlength start stop⟩

/-- From the least integer to the greatest, five characters are cut out of five, and no sum overflows for that. -/
theorem run_slice_limits : (5 : Int64).toInt = (5 : Nat) ∧
    (∃ low high, Slice.range? 5 (Option.some Int64.minValue) (Option.some Int64.maxValue) = Option.some (low, high) ∧
      low.toInt = 0 ∧ high.toInt = 5) ∧
    (slice.run 0 (fun _ _ => throw .exhausted) [.str "hello", .int Int64.minValue, .int Int64.maxValue]).run.run
      emptyWorld = (.ok (.str "hello"), emptyWorld) := by
  obtain ⟨-, hstr, -, -, hrange, -⟩ := run_slice 0 (fun _ _ => throw .exhausted) emptyWorld
  have hlength : (5 : Int64).toInt = (5 : Nat) := by decide
  obtain ⟨-, -, hplaces⟩ := hrange 5 (Option.some Int64.minValue) (Option.some Int64.maxValue)
  obtain ⟨low, high, hsome, hlow, hhigh⟩ := hplaces 5 hlength
  have hall : Slice.range 5 (Option.some Int64.minValue) (Option.some Int64.maxValue) = (0, 5) := by decide
  rw [hall] at hlow hhigh
  refine ⟨hlength, ⟨low, high, hsome, hlow, hhigh⟩, ?_⟩
  exact hstr "hello" (Option.some Int64.minValue) (Option.some Int64.maxValue)

end Builtin

end PipeScript
