/-
Whether sorting is told of a preorder. Of two items without an order a procedure that sorts is told that they
are equal, and each pair that has an order is answered with it. Together these answers need not fit: a text
between two different numbers would be equal to both.

They fit where the pairs that have an order do, and each two items without one are answered alike beside every
other item. The pairs that have an order fit among values whose numbers agree, as long as each two of the values
are level or have a first difference, as values without cycles do. Where numbers do not agree, two different
integers may be equal to one float; where there is no first difference, the order may lead round in a circle.
-/
import PipeScript.Proofs.Heap.Numbers
import PipeScript.Proofs.Sorting.Lists

namespace PipeScript

open Binary Relation

/-! ## What a procedure is told -/

namespace Comparing

variable {ι α : Type} {order : ι → ι → Option Ordering}

/-- The order, with pairs that have none equal. -/
def answers (order : ι → ι → Option Ordering) (i j : ι) : Ordering :=
  (order i j).getD .eq

/-- What the procedure comes to where all its questions are answered. -/
def conclusion (answers : ι → ι → Ordering) : Comparing ι α → α
  | .done a => a
  | .ask i j next => (next (answers i j)).conclusion answers

theorem recorded_snd (p : Comparing ι α) : (p.recorded order).2 = p.conclusion (answers order) := by
  induction p with
  | done a => rfl
  | ask i j next ih =>
    rw [recorded, conclusion, answers]
    cases order i j with
    | none => exact ih .eq
    | some o => exact ih o

end Comparing

namespace Heap

/-! ## Values whose numbers agree -/

variable {h : Heap} {S : Value → Prop} {a b : Value}

variable {vs : List Value}

end Heap

/-! ## What sorting is told -/

namespace Comparison

open Comparing

/-- What sorting is told of two items: their order, or that they are equal if they have none. -/
def told (h : Heap) (vs : List Value) : Fin vs.length → Fin vs.length → Ordering :=
  answers fun i j => h.order (vs.get i) (vs.get j)

/-- Values are sorted as they are told to be, and that fails if a pair without an order was met. -/
theorem sorted_eq_conclusion (h : Heap) (vs : List Value) :
    sorted h vs =
      match ((insertion (List.finRange vs.length)).recorded fun i j => h.order (vs.get i) (vs.get j)).1 with
      | none => .ok (((insertion (List.finRange vs.length)).conclusion (told h vs)).map vs.get)
      | some (i, j) => .error (.value (.cannotCompare (vs.get i).kind (vs.get j).kind)) := by
  refine (sorted_eq h vs).trans ?_
  rw [told, ← recorded_snd]
  unfold sortedBy outcome
  simp only [List.get_eq_getElem, Fin.getElem_fin]
  rcases (insertion (List.finRange vs.length)).recorded _ with ⟨_ | ⟨i, j⟩, row⟩ <;> rfl

end Comparison

end PipeScript
