/-
Plain values: those that hold no function and no dictionary at any depth. A heap may have dictionaries
that no plain value reaches, so it is values that are plain, not heaps. They may lie inside themselves,
which is why they are found by a set of values that is closed under what lies inside, and not by going
down. To make a list of plain values, or to change one to plain items, makes no plain value another.
-/
import PipeScript.Proofs.Heap.Copy

namespace PipeScript

/-- Neither a dictionary nor a function. -/
def Value.IsPlain : Value → Prop
  | .dict _ | .function _ => False
  | _ => True

/-- Neither a container nor a function. -/
def Value.IsLeaf : Value → Prop
  | .list _ | .dict _ | .function _ => False
  | _ => True

namespace Heap

open Relation

/-- Neither the value nor what lies in it at any depth is a dictionary or a function. -/
def Plain (h : Heap) (v : Value) : Prop :=
  ∀ w, ReflTransGen h.Inside w v → w.IsPlain

/-- What is plain in the one heap is plain in the other. -/
def Keeps (h h' : Heap) : Prop :=
  ∀ v, h.Plain v → h'.Plain v

variable {h h' h'' : Heap} {v w : Value} {r : ListRef} {xs : List Value}

theorem Keeps.refl (h : Heap) : h.Keeps h := fun _ hv => hv

theorem Keeps.trans (hh : h.Keeps h') (hh' : h'.Keeps h'') : h.Keeps h'' := fun v hv => hh' v (hh v hv)

theorem Plain.isPlain (hv : h.Plain v) : v.IsPlain := hv v .refl

theorem Plain.inside (hv : h.Plain v) (hw : h.Inside w v) : h.Plain w := fun x hx => hv x (hx.tail hw)

/-- Values are plain that are among values of which none is a dictionary or a function, and none has
another value inside. -/
theorem plain_of_closed {S : Value → Prop} (hplain : ∀ v, S v → v.IsPlain)
    (hclosed : ∀ v w, S v → h.Inside w v → S w) (hv : S v) : h.Plain v := by
  intro w hw
  refine hplain w ?_
  induction hw using ReflTransGen.head_induction_on with
  | refl => exact hv
  | head hxy _ ih => exact hclosed _ _ ih hxy

theorem not_inside_of_isLeaf (hv : v.IsLeaf) : ¬h.Inside w v := by
  rintro ⟨_ | _, rfl, _⟩ <;> exact hv

theorem plain_of_isLeaf (hv : v.IsLeaf) : h.Plain v := by
  refine plain_of_closed (S := Value.IsLeaf) (fun v hv => ?_) (fun v w hv hw => ?_) hv
  · cases v <;> trivial
  · exact absurd hw (not_inside_of_isLeaf hv)

/-- Where two heaps differ in one list only, and that holds plain values in the end, all that was plain
still is, and that list is. -/
theorem plain_of_items (hother : ∀ s ≠ r, h'.items s = h.items s) (hr : ∀ w ∈ h'.items r, h.Plain w) :
    h.Keeps h' ∧ h'.Plain (.list r) := by
  have hall (v : Value) (hv : h.Plain v ∨ v = .list r) : h'.Plain v := by
    refine plain_of_closed (S := fun v => h.Plain v ∨ v = .list r) ?_ ?_ hv
    · rintro v (hv | rfl)
      · exact hv.isPlain
      · trivial
    · rintro v w hv ⟨s | d, rfl, hw⟩
      · by_cases hs : s = r
        · subst hs
          exact .inl (hr w hw)
        · have hin : w ∈ h.items s := hother s hs ▸ hw
          rcases hv with hv | hv
          · exact .inl (hv.inside (inside_list_iff.2 hin))
          · exact absurd (Value.list.inj hv) hs
      · rcases hv with hv | hv
        · exact hv.isPlain.elim
        · cases hv
  exact ⟨fun v hv => hall v (.inl hv), hall _ (.inr rfl)⟩

theorem items_setItems_of_ne {s : ListRef} (hs : s ≠ r) : (h.setItems r xs).items s = h.items s := by
  have hindex : r.index ≠ s.index := fun he => hs (by cases r; cases s; exact congrArg _ he.symm)
  simp only [items, setItems, Array.getD_eq_getD_getElem?, Array.getElem?_setIfInBounds_ne hindex]

theorem mem_of_mem_items_setItems (hv : v ∈ (h.setItems r xs).items r) : v ∈ xs := by
  simp only [items, setItems, Array.getD_eq_getD_getElem?, Array.getElem?_setIfInBounds] at hv
  split at hv
  · split at hv
    · exact hv
    · exact absurd hv List.not_mem_nil
  · contradiction

/-- To make a list of plain values makes no plain value another. -/
theorem plain_newList (hxs : ∀ x ∈ xs, h.Plain x) :
    h.Keeps (h.newList xs).2 ∧ (h.newList xs).2.Plain (.list (h.newList xs).1) := by
  refine plain_of_items (fun s hs => ?_) fun w hw => ?_
  · rw [items_newList, if_neg hs]
  · rw [items_newList, if_pos rfl] at hw
    exact hxs w hw

/-- To change a list to plain items makes no plain value another. -/
theorem keeps_setItems (r : ListRef) (hxs : ∀ x ∈ xs, h.Plain x) : h.Keeps (h.setItems r xs) :=
  (plain_of_items (fun _ hs => items_setItems_of_ne hs) fun w hw => hxs w (mem_of_mem_items_setItems hw)).1

end Heap

end PipeScript
