/-
Choices and loops. All arguments are values by the time of the call, so that only functions among
them can put work off: they are called where other values are taken as they are.
-/
import PipeScript.Builtin.Iteration

namespace PipeScript.Branching

variable {σ : Type}

open Arguments

/-- What a value stands for: a function is called without arguments. -/
def force (call : Caller σ) : Value → Run σ Value
  | .function f => call f []
  | v => pure v

/-- The second argument if the first is true, else the third. -/
def ifElse (call : Caller σ) (args : List Value) : Run σ Value := do
  let (condition, yes, no) ← Run.ofExcept (twoOrThree args)
  if (← Run.heap).truthy condition then force call yes else force call no

/-- The items that a loop runs over: those of a list, or a single value that is none. -/
def range (h : Heap) : Value → List Value
  | .list r => h.items r
  | v => [v]

/-- A new list with an answer of the body to each item. A body that is no function answers null. -/
def forEach (call : Caller σ) (args : List Value) : Run σ Value := do
  let (subject, body) ← Run.ofExcept (two args)
  let items := range (← Run.heap) subject
  match body with
  | .function f => Run.newList (← Iteration.answers call f items)
  | _ => Run.newList (items.map fun _ => .null)

/-- One round of the body of a loop. A body that is no function answers null. -/
def round (call : Caller σ) : Value → Run σ Value
  | .function f => call f []
  | _ => pure .null

/-- Asks the condition and runs the body in turns until the answer is not true, for as many rounds
as there is fuel. The value is that of the last round, or the given one. -/
def rounds (call : Caller σ) (condition : Callable) (body : Value) :
    Nat → Value → Run σ Value
  | 0, _ => throw .exhausted
  | fuel + 1, last => do
    let answer ← call condition []
    if (← Run.heap).truthy answer then
      rounds call condition body fuel (← round call body)
    else return last

/-- Runs the body as long as the condition is true. A condition that is no function must not be
true, as it would stay so. -/
def whileTrue (fuel : Nat) (call : Caller σ) (args : List Value) : Run σ Value := do
  let (condition, body) ← Run.ofExcept (two args)
  match condition with
  | .function f => rounds call f body fuel .null
  | v => if (← Run.heap).truthy v then Run.fail (.value .endless) else return .null

end PipeScript.Branching
