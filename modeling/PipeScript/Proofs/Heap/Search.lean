/-
Searches through two values at once. A search is given what it takes for two values to be related,
in terms of how what lies inside them is related; it takes a pair of containers that it is inside
of for granted when it meets that pair again, and forgets the pair when it leaves it. Whatever the
heap, cycles included, such a search finds the largest relation there is.

The proof is coinduction up to the pairs on the path: what a search finds inside of a pair is
supported by itself and by that pair, and the pair is supported by what was found inside it.
-/
import Mathlib.Data.List.Forall2
import Mathlib.Order.FixedPoints
import Mathlib.Order.CompletePartialOrder
import Mathlib.Order.ConditionallyCompleteLattice.Basic
import PipeScript.Heap.Path

namespace PipeScript

/-! ## Greatest fixed points, some pairs being granted -/

section UpTo

variable {α : Type} [CompleteLattice α] (f : α →o α)

/-- The largest element that `f` supports where `y` is granted. -/
def upTo (y : α) : α :=
  OrderHom.gfp ⟨fun x => f (x ⊔ y), fun _ _ hx => f.mono (sup_le_sup_right hx y)⟩

theorem upTo_le (y : α) : upTo f y ≤ f (upTo f y ⊔ y) :=
  le_of_eq (OrderHom.map_gfp _).symm

theorem le_upTo {x y : α} (h : x ≤ f (x ⊔ y)) : x ≤ upTo f y :=
  OrderHom.le_gfp _ h

theorem upTo_mono {y z : α} (h : y ≤ z) : upTo f y ≤ upTo f z :=
  le_upTo f (le_trans (upTo_le f y) (f.mono (sup_le_sup_left h _)))

/-- What is supported where it is itself granted, is supported without that. -/
theorem le_upTo_of_le {x y : α} (h : x ≤ f (upTo f (y ⊔ x) ⊔ (y ⊔ x))) : x ≤ upTo f y := by
  have hz : upTo f (y ⊔ x) ⊔ x ≤ f (upTo f (y ⊔ x) ⊔ x ⊔ y) := by
    rw [sup_assoc, sup_comm x y]
    exact sup_le (upTo_le f _) h
  exact le_trans le_sup_right (le_upTo f hz)

/-- Granting what holds anyway adds nothing. -/
theorem upTo_le_gfp {y : α} (hy : y ≤ OrderHom.gfp f) : upTo f y ≤ OrderHom.gfp f := by
  have h : upTo f y ⊔ OrderHom.gfp f ≤ f (upTo f y ⊔ OrderHom.gfp f) := by
    refine sup_le ?_ ?_
    · exact le_trans (upTo_le f y) (f.mono (sup_le_sup_left hy _))
    · exact le_trans (le_of_eq (OrderHom.map_gfp f).symm) (f.mono le_sup_right)
  exact le_trans le_sup_left (OrderHom.le_gfp f h)

end UpTo

namespace Heap

/-- What lies directly inside a list or dictionary. -/
def contents (h : Heap) : Container → List Value
  | .list r => h.items r
  | .dict r => (h.entries r).values

/-- A container that the heap does not have is empty. -/
theorem has_of_mem_contents {h : Heap} {c : Container} {v : Value} (hv : v ∈ h.contents c) : h.Has c := by
  by_contra hc
  cases c with
  | list r => rw [contents, items_eq_nil hc] at hv; cases hv
  | dict r =>
    have hr : h.dicts.size ≤ r.index := Nat.not_lt.1 hc
    simp [contents, entries, hr, Table.empty, Table.values] at hv

/-- What holds of all values in the lists that are stored holds of the items of each list. -/
theorem forall_mem_items {h : Heap} {P : Value → Prop} (hl : ∀ xs ∈ h.lists.toList, ∀ v ∈ xs, P v)
    (r : ListRef) : ∀ v ∈ h.items r, P v := by
  intro v hv
  have hr : r.index < h.lists.size := has_of_mem_contents (c := .list r) hv
  refine hl (h.items r) ?_ v hv
  rw [items, Array.getD_eq_getD_getElem?, Array.getElem?_eq_getElem hr]
  exact Array.getElem_mem_toList hr

/-! ## Searches -/

theorem forall₂_imp_of_mem {α β : Type} {R R' : α → β → Prop} {xs : List α} {ys : List β}
    (hR : ∀ x ∈ xs, ∀ y ∈ ys, R x y → R' x y) (h : List.Forall₂ R xs ys) : List.Forall₂ R' xs ys := by
  induction h with
  | nil => exact .nil
  | cons hxy _ ih =>
    refine .cons (hR _ List.mem_cons_self _ List.mem_cons_self hxy) (ih fun x hx y hy => ?_)
    exact hR x (List.mem_cons_of_mem _ hx) y (List.mem_cons_of_mem _ hy)

/-- A search through two values at once. -/
structure Search (h : Heap) where
  /-- The pair of containers that is entered for the sake of two values, if they are entered. -/
  pair? : Value → Value → Option (Container × Container)
  pair?_inj : ∀ {a b a' b' p}, pair? a b = some p → pair? a' b' = some p → a = a' ∧ b = b'
  /-- What it takes for two values to be related. -/
  step : (Value → Value → Prop) →o (Value → Value → Prop)
  /-- It takes nothing more than what lies inside the pair that is entered. -/
  step_local : ∀ {R R' : Value → Value → Prop} {a b}, step R a b →
    (∀ p, pair? a b = some p → ∀ x ∈ h.contents p.1, ∀ y ∈ h.contents p.2, R x y → R' x y) → step R' a b
  /-- The answer for two values inside the pairs on the path. -/
  answer : List (Container × Container) → Value → Value → Prop
  answer_iff : ∀ {path a b}, answer path a b ↔
    (∃ p ∈ path, pair? a b = some p) ∨ step (answer ((pair? a b).toList ++ path)) a b

namespace Search

variable {h : Heap} (S : h.Search)

/-- The values whose pair is on the path. -/
def Met (path : List (Container × Container)) (a b : Value) : Prop :=
  ∃ p ∈ path, S.pair? a b = some p

/-- The path inside the pair of two values. -/
def enter (path : List (Container × Container)) (a b : Value) : List (Container × Container) :=
  (S.pair? a b).toList ++ path

/-- Inside a pair there is less left to enter. -/
theorem unmet_enter_lt {path : List (Container × Container)} {a b x y : Value} {p : Container × Container}
    (hp : S.pair? a b = some p) (hm : ¬S.Met path a b) (hx : x ∈ h.contents p.1) (hy : y ∈ h.contents p.2) :
    unmet h.pairs (S.enter path a b) < unmet h.pairs path := by
  have hpath : p ∉ path := fun hin => hm ⟨p, hin, hp⟩
  have hall : p ∈ h.pairs := mem_pairs.2 ⟨has_of_mem_contents hx, has_of_mem_contents hy⟩
  simpa [enter, hp] using unmet_cons_lt hall hpath

/-- Inside a pair, that pair is granted and nothing else that was not before. -/
theorem met_enter_le (path : List (Container × Container)) (a b : Value) :
    S.Met (S.enter path a b) ≤ S.Met path ⊔ fun x y => x = a ∧ y = b := by
  rintro x y ⟨p, hp, hxy⟩
  rcases List.mem_append.1 hp with hp | hp
  · exact .inr (S.pair?_inj hxy (Option.mem_toList.1 hp))
  · exact .inl ⟨p, hp, hxy⟩

/-- A relation that supports itself is found. -/
theorem answer_of_le {R : Value → Value → Prop} (hR : R ≤ S.step R) (path : List (Container × Container))
    {a b : Value} (hab : R a b) : S.answer path a b := by
  -- on the pairs that are left to be entered
  induction hn : unmet h.pairs path using Nat.strong_induction_on generalizing path a b with
  | _ n ih =>
    by_cases hm : S.Met path a b
    · exact S.answer_iff.2 (.inl hm)
    · refine S.answer_iff.2 (.inr (S.step_local (hR a b hab) fun p hp x hx y hy hxy => ?_))
      exact ih _ (hn ▸ S.unmet_enter_lt hp hm hx hy) _ hxy rfl

/-- What is found is on the path, or supported where the path is granted. -/
theorem met_or_upTo (path : List (Container × Container)) {a b : Value} (hab : S.answer path a b) :
    S.Met path a b ∨ upTo S.step (S.Met path) a b := by
  induction hn : unmet h.pairs path using Nat.strong_induction_on generalizing path a b with
  | _ n ih =>
    by_cases hm : S.Met path a b
    · exact .inl hm
    · have hin := (S.answer_iff.1 hab).resolve_left hm
      have hle := S.met_enter_le path a b
      -- the pair is granted inside itself, and what is found there supports it without that
      refine .inr (le_upTo_of_le S.step (x := fun x y => x = a ∧ y = b) ?_ a b ⟨rfl, rfl⟩)
      rintro _ _ ⟨rfl, rfl⟩
      refine S.step_local hin fun p hp x hx y hy hxy => ?_
      rcases ih _ (hn ▸ S.unmet_enter_lt hp hm hx hy) _ hxy rfl with hmet | hup
      · exact .inr (hle x y hmet)
      · exact .inl (upTo_mono S.step hle x y hup)

/-- A search finds the largest relation that supports itself, also where it sets out with pairs
granted that are in that relation. -/
theorem answer_iff_gfp {path : List (Container × Container)} (hpath : S.Met path ≤ OrderHom.gfp S.step)
    {a b : Value} : S.answer path a b ↔ OrderHom.gfp S.step a b := by
  constructor
  · intro hab
    rcases S.met_or_upTo path hab with hm | hup
    · exact hpath a b hm
    · exact upTo_le_gfp S.step hpath a b hup
  · exact S.answer_of_le (le_of_eq (OrderHom.map_gfp S.step).symm) path

theorem met_nil_le (R : Value → Value → Prop) : S.Met [] ≤ R := by
  rintro a b ⟨p, hp, -⟩
  cases hp

end Search

end Heap

end PipeScript
