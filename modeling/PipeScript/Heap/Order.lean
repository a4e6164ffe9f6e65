/-
The natural order of values, which sorting and all comparisons use: numbers by their values, texts
by code points, false before true, lists item by item and then by length. Other values, and values
of different types, cannot be ordered.

A list is in order with itself without a look at its items. A pair of lists that is met again
inside itself counts as equal there.
-/
import PipeScript.Heap.Path

namespace PipeScript.Heap

/-- The order of two floats. A float that is no number has none. -/
def floatOrder (x y : Float) : Option Ordering :=
  if x < y then some .lt
  else if x == y then some .eq
  else if y < x then some .gt
  else none

/-- The order of two values that are not both lists. -/
def leafOrder : Value → Value → Option Ordering
  | .int a, .int b => some (compare a.toInt b.toInt)
  | .str a, .str b => some (compare a b)
  | .bool a, .bool b => some (compare a b)
  | a, b =>
    match a.toFloat?, b.toFloat? with
    | some x, some y => floatOrder x y
    | _, _ => none

/-- The order of two sequences: that of the first items that differ, or that of the lengths where
one sequence begins the other. There is none if items before that cannot be ordered. -/
def itemsOrder (order : Value → Value → Option Ordering) :
    List Value → List Value → Option Ordering
  | [], [] => some .eq
  | [], _ :: _ => some .lt
  | _ :: _, [] => some .gt
  | x :: xs, y :: ys =>
    match order x y with
    | some .eq => itemsOrder order xs ys
    | other => other

/-- The order of two values inside the pairs of lists on the path. -/
def orderOn (h : Heap) (path : List (Container × Container)) (a b : Value) : Option Ordering :=
  match a, b with
  | .list r, .list s =>
    if r = s ∨ (.list r, .list s) ∈ path then some .eq
    else if _inside : h.Has (.list r) ∧ h.Has (.list s) ∧ (.list r, .list s) ∉ path then
      itemsOrder (fun x y => h.orderOn ((.list r, .list s) :: path) x y) (h.items r) (h.items s)
    else itemsOrder (fun _ _ => none) (h.items r) (h.items s)
  | a, b => leafOrder a b
termination_by unmet h.pairs path
decreasing_by exact unmet_cons_lt (mem_pairs.2 ⟨_inside.1, _inside.2.1⟩) _inside.2.2

/-- The order of two values, if they can be ordered. -/
def order (h : Heap) (a b : Value) : Option Ordering :=
  h.orderOn [] a b

/-- Items of which there are none on one side need no order. -/
theorem itemsOrder_congr_of_nil {f g : Value → Value → Option Ordering} {xs ys : List Value}
    (h : xs = [] ∨ ys = []) : itemsOrder f xs ys = itemsOrder g xs ys := by
  rcases h with rfl | rfl
  · cases ys <;> rfl
  · cases xs <;> rfl

/-- Two lists that are neither the same nor met before are ordered by their items. -/
theorem orderOn_list {h : Heap} {path : List (Container × Container)} {r s : ListRef}
    (hne : r ≠ s) (hpath : (.list r, .list s) ∉ path) :
    h.orderOn path (.list r) (.list s) =
      itemsOrder (h.orderOn ((.list r, .list s) :: path)) (h.items r) (h.items s) := by
  rw [orderOn]
  rw [if_neg (by simp [hne, hpath])]
  split
  · rfl
  · next hn =>
    refine itemsOrder_congr_of_nil ?_
    by_cases hr : h.Has (.list r)
    · exact .inr (items_eq_nil fun hs => hn ⟨hr, hs, hpath⟩)
    · exact .inl (items_eq_nil hr)

/-- The same list, or a pair met before, counts as equal. -/
theorem orderOn_list_of_met {h : Heap} {path : List (Container × Container)} {r s : ListRef}
    (hmet : r = s ∨ (.list r, .list s) ∈ path) :
    h.orderOn path (.list r) (.list s) = some .eq := by
  rw [orderOn, if_pos hmet]

end PipeScript.Heap
