/-
Equality of values: null, booleans, texts and numbers by value, an integer and a float by their
floats, functions by name, lists and dictionaries by contents. Values of different types differ,
the two types of numbers apart.

A list or dictionary equals itself without a look at its contents. A pair that is met again inside
itself counts as equal there.
-/
import PipeScript.Heap.Path

namespace PipeScript.Heap

/-- Equality of two values that are not both lists nor both dictionaries. -/
def leafEq : Value → Value → Bool
  | .null, .null => true
  | .bool a, .bool b => a == b
  | .int a, .int b => a == b
  | .str a, .str b => a == b
  | .function f, .function g => f.name == g.name
  | a, b =>
    match a.toFloat?, b.toFloat? with
    | some x, some y => x == y
    | _, _ => false

/-- Equality of two sequences of items. -/
def itemsEq (eq : Value → Value → Bool) (xs ys : List Value) : Bool :=
  xs.isEqv ys eq

/-- Equality of two sequences of entries. -/
def entriesEq (eq : Value → Value → Bool) (xs ys : List (String × Value)) : Bool :=
  xs.isEqv ys fun a b => a.1 == b.1 && eq a.2 b.2

/-- Equality of two values inside the pairs of containers on the path. -/
def eqOn (h : Heap) (path : List (Container × Container)) (a b : Value) : Bool :=
  match a, b with
  | .list r, .list s =>
    if r = s ∨ (.list r, .list s) ∈ path then true
    else if _inside : h.Has (.list r) ∧ h.Has (.list s) ∧ (.list r, .list s) ∉ path then
      itemsEq (fun x y => h.eqOn ((.list r, .list s) :: path) x y) (h.items r) (h.items s)
    else itemsEq (fun _ _ => false) (h.items r) (h.items s)
  | .dict r, .dict s =>
    if r = s ∨ (.dict r, .dict s) ∈ path then true
    else if _inside : h.Has (.dict r) ∧ h.Has (.dict s) ∧ (.dict r, .dict s) ∉ path then
      entriesEq (fun x y => h.eqOn ((.dict r, .dict s) :: path) x y)
        (h.entries r).entries (h.entries s).entries
    else entriesEq (fun _ _ => false) (h.entries r).entries (h.entries s).entries
  | a, b => leafEq a b
termination_by unmet h.pairs path
decreasing_by all_goals exact unmet_cons_lt (mem_pairs.2 ⟨_inside.1, _inside.2.1⟩) _inside.2.2

/-- Whether two values are equal. -/
def eq (h : Heap) (a b : Value) : Bool :=
  h.eqOn [] a b

theorem isEqv_congr_of_nil {α : Type} {f g : α → α → Bool} {xs ys : List α}
    (h : xs = [] ∨ ys = []) : xs.isEqv ys f = xs.isEqv ys g := by
  rcases h with rfl | rfl
  · cases ys <;> rfl
  · cases xs <;> rfl

/-- A dictionary that the heap does not have is empty. -/
theorem entries_eq_nil {h : Heap} {r : DictRef} (hr : ¬h.Has (.dict r)) :
    (h.entries r).entries = [] := by
  have : h.dicts.size ≤ r.index := Nat.not_lt.1 hr
  simp [entries, this, Table.empty]

/-- Two lists that are neither the same nor met before are equal if their items are. -/
theorem eqOn_list {h : Heap} {path : List (Container × Container)} {r s : ListRef}
    (hne : r ≠ s) (hpath : (.list r, .list s) ∉ path) :
    h.eqOn path (.list r) (.list s) =
      itemsEq (h.eqOn ((.list r, .list s) :: path)) (h.items r) (h.items s) := by
  rw [eqOn]
  rw [if_neg (by simp [hne, hpath])]
  split
  · rfl
  · next hn =>
    refine isEqv_congr_of_nil ?_
    by_cases hr : h.Has (.list r)
    · exact .inr (items_eq_nil fun hs => hn ⟨hr, hs, hpath⟩)
    · exact .inl (items_eq_nil hr)

/-- Two dictionaries that are neither the same nor met before are equal if their entries are. -/
theorem eqOn_dict {h : Heap} {path : List (Container × Container)} {r s : DictRef}
    (hne : r ≠ s) (hpath : (.dict r, .dict s) ∉ path) :
    h.eqOn path (.dict r) (.dict s) =
      entriesEq (h.eqOn ((.dict r, .dict s) :: path)) (h.entries r).entries
        (h.entries s).entries := by
  rw [eqOn]
  rw [if_neg (by simp [hne, hpath])]
  split
  · rfl
  · next hn =>
    refine isEqv_congr_of_nil ?_
    by_cases hr : h.Has (.dict r)
    · exact .inr (entries_eq_nil fun hs => hn ⟨hr, hs, hpath⟩)
    · exact .inl (entries_eq_nil hr)

end PipeScript.Heap
