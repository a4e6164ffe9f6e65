/-
Comparing values: equality, order, and what follows from the order: the extreme of several values,
and sorting.
-/
import PipeScript.Builtin.Arguments
import PipeScript.Heap.Equality
import PipeScript.Heap.Order

namespace PipeScript.Comparison

open Arguments

/-- Whether two values are equal. -/
def eq (h : Heap) (args : List Value) : Except CallError Value := do
  let (a, b) ← two args
  return .bool (h.eq a b)

/-- Whether two values differ. -/
def ne (h : Heap) (args : List Value) : Except CallError Value := do
  let (a, b) ← two args
  return .bool (!h.eq a b)

/-- The order of two values, which must have one. -/
def order (h : Heap) (a b : Value) : Except CallError Ordering :=
  match h.order a b with
  | some o => .ok o
  | none => .error (.value (.cannotCompare a.kind b.kind))

/-- Whether the order of two values is one of those accepted. -/
def ordered (accept : Ordering → Bool) (h : Heap) (args : List Value) : Except CallError Value := do
  let (a, b) ← two args
  return .bool (accept (← order h a b))

/-- Whether the first value is greater. -/
def gt : Heap → List Value → Except CallError Value := ordered Ordering.isGT

/-- Whether the first value is less. -/
def lt : Heap → List Value → Except CallError Value := ordered Ordering.isLT

/-- Whether the first value is not less. -/
def gte : Heap → List Value → Except CallError Value := ordered Ordering.isGE

/-- Whether the first value is not greater. -/
def lte : Heap → List Value → Except CallError Value := ordered Ordering.isLE

/-- The first of the extreme values: each later one replaces the best so far only if it is strictly
further out in the wanted direction. -/
def extremeFrom (wanted : Ordering) (h : Heap) (best : Value) : List Value → Except CallError Value
  | [] => .ok best
  | v :: vs => do
    let o ← order h v best
    extremeFrom wanted h (if o = wanted then v else best) vs

/-- The values among which an extreme is sought: the arguments, or the items of a lone list. -/
def candidates (h : Heap) : List Value → List Value
  | [.list r] => h.items r
  | args => args

/-- The extreme of several values. That of none is the integer zero. -/
def extreme (wanted : Ordering) (h : Heap) (args : List Value) : Except CallError Value :=
  match candidates h args with
  | [] => .ok (.int 0)
  | v :: vs => extremeFrom wanted h v vs

/-- The greatest value. -/
def max : Heap → List Value → Except CallError Value := extreme .gt

/-- The least value. -/
def min : Heap → List Value → Except CallError Value := extreme .lt

/-- Puts a value into a sorted row, which is given greatest first: before the first value that is
not greater. -/
def insertDescending (h : Heap) (v : Value) : List Value → Except CallError (List Value)
  | [] => .ok [v]
  | w :: ws => do
    match ← order h v w with
    | .lt => return w :: (← insertDescending h v ws)
    | _ => return v :: w :: ws

/-- The values in ascending order, those that are equal in the order given. Each value is moved to
the left past all that are greater, from the first value on; the first pair met that cannot be
ordered is reported. -/
def sorted (h : Heap) (vs : List Value) : Except CallError (List Value) := do
  return (← vs.foldlM (fun row v => insertDescending h v row) []).reverse

end PipeScript.Comparison
