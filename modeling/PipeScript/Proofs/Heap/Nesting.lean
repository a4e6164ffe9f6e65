/-
What lies inside of what. A value has a cycle if some container that it is, or that lies in it at any
depth, lies inside itself. The heap is finite, so a value without cycles can be taken apart all the
way down: it admits induction on what lies inside.
-/
import Mathlib.Data.Set.Finite.Basic
import Mathlib.Order.WellFoundedSet
import PipeScript.Proofs.Heap.Search

namespace PipeScript

/-- The value that refers to a container. -/
def Container.value : Container → Value
  | .list r => .list r
  | .dict r => .dict r

namespace Heap

open Relation

/-- The first value lies directly inside the second one. -/
def Inside (h : Heap) (x y : Value) : Prop :=
  ∃ c : Container, y = c.value ∧ x ∈ h.contents c

/-- No container that the value is, or that lies in it at any depth, lies inside itself. -/
def Acyclic (h : Heap) (v : Value) : Prop :=
  ∀ w, ReflTransGen h.Inside w v → ¬TransGen h.Inside w w

variable {h : Heap} {v w : Value}

theorem inside_list_iff {r : ListRef} : h.Inside v (.list r) ↔ v ∈ h.items r := by
  constructor
  · rintro ⟨_ | _, hc, hv⟩ <;> cases hc
    exact hv
  · exact fun hv => ⟨.list r, rfl, hv⟩

/-- Only so many values lie in a value. -/
theorem finite_inside (v : Value) : {w | ReflTransGen h.Inside w v}.Finite := by
  have hall : {w | ReflTransGen h.Inside w v} ⊆ {w | w ∈ v :: h.containers.flatMap h.contents} := by
    intro w hw
    rcases ReflTransGen.cases_head hw with rfl | ⟨y, ⟨c, -, hwc⟩, -⟩
    · exact List.mem_cons_self
    · exact List.mem_cons_of_mem _ (List.mem_flatMap.2 ⟨c, mem_containers.2 (has_of_mem_contents hwc), hwc⟩)
  exact (List.finite_toSet _).subset hall

/-- A value is without cycles exactly when taking it apart comes to an end. -/
theorem acyclic_iff_acc : h.Acyclic v ↔ Acc h.Inside v := by
  constructor
  · intro hv
    refine (Set.WellFoundedOn.acc_iff_wellFoundedOn.out 0 1).2 ?_
    let below := {w // ReflTransGen h.Inside w v}
    have : Finite below := finite_inside v
    have : Std.Irrefl fun x y : below => TransGen h.Inside x y := ⟨fun x => hv x x.2⟩
    have : IsTrans below fun x y => TransGen h.Inside x y := ⟨fun _ _ _ => TransGen.trans⟩
    have hwf : WellFounded fun x y : below => TransGen h.Inside x y := Finite.wellFounded_of_trans_of_irrefl _
    exact Subrelation.wf (r := fun x y : below => TransGen h.Inside x y) (fun hxy => .single hxy) hwf
  · intro hv w hwv hww
    have hw : Acc (TransGen h.Inside) w := by
      rcases reflTransGen_iff_eq_or_transGen.1 hwv with rfl | hwv
      · exact hv.transGen
      · exact hv.transGen.inv hwv
    -- what lies inside itself has no end
    clear hwv
    induction hw with
    | intro w _ ih => exact ih w hww hww

theorem acyclic_of_inside (hv : ∀ w, h.Inside w v → h.Acyclic w) : h.Acyclic v :=
  acyclic_iff_acc.2 (.intro v fun w hw => acyclic_iff_acc.1 (hv w hw))

end Heap

end PipeScript
