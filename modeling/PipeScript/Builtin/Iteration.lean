/-
Applying functions to the items of a list. The items are those that the list has when the call
begins, whatever the function then does to the list. They are taken from the first on, and the
first failure ends the call.
-/
import PipeScript.Builtin.Arguments
import PipeScript.Run

namespace PipeScript.Iteration

variable {σ : Type}

open Arguments

/-- The items of a list and the function to apply to them. -/
def subject (args : List Value) : Run σ (List Value × Callable) :=
  Run.reading fun h => do
    let (items, f) ← two args
    let f ← function f
    return (h.items (← list items), f)

/-- Whether the answer of the function to an item is true. -/
def test (call : Caller σ) (f : Callable) (v : Value) : Run σ Bool := do
  let answer ← call f [v]
  return (← Run.heap).truthy answer

/-- The answers of the function to all items. -/
def answers (call : Caller σ) (f : Callable) : List Value → Run σ (List Value)
  | [] => pure []
  | v :: vs => do
    let answer ← call f [v]
    return answer :: (← answers call f vs)

/-- The items to which the answer is true. -/
def accepted (call : Caller σ) (f : Callable) : List Value → Run σ (List Value)
  | [] => pure []
  | v :: vs => do
    if ← test call f v then return v :: (← accepted call f vs) else accepted call f vs

/-- The first item to which the answer is as wanted. -/
def firstWith (wanted : Bool) (call : Caller σ) (f : Callable) : List Value → Run σ (Option Value)
  | [] => pure none
  | v :: vs => do
    if (← test call f v) = wanted then return some v else firstWith wanted call f vs

/-- A new list of the answers to all items. -/
def map (call : Caller σ) (args : List Value) : Run σ Value := do
  let (items, f) ← subject args
  Run.newList (← answers call f items)

/-- A new list of the items to which the answer is true. -/
def filter (call : Caller σ) (args : List Value) : Run σ Value := do
  let (items, f) ← subject args
  Run.newList (← accepted call f items)

/-- The first item to which the answer is true, or null. -/
def find (call : Caller σ) (args : List Value) : Run σ Value := do
  let (items, f) ← subject args
  return (← firstWith true call f items).getD .null

/-- Whether the answer to some item is true. -/
def some (call : Caller σ) (args : List Value) : Run σ Value := do
  let (items, f) ← subject args
  return .bool (← firstWith true call f items).isSome

/-- Whether the answer to every item is true. -/
def every (call : Caller σ) (args : List Value) : Run σ Value := do
  let (items, f) ← subject args
  return .bool (← firstWith false call f items).isNone

end PipeScript.Iteration
