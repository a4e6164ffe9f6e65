/-
Calls of functions. A call has its arguments, and changes the world: the heap, the context of the
evaluator that makes it, and whatever the host keeps for its own functions. It gives a value or a
failure, and in both cases the changes made so far stay.

Functions can call functions that they are given, without a bound that could be known beforehand.
So calls are made with fuel, and running out of it is told apart from every failure.
-/
import PipeScript.Context
import PipeScript.Heap.Display

namespace PipeScript

/-- All that a call can change. The host keeps a state of the type `σ`. -/
structure World (σ : Type) where
  heap : Heap
  context : Context
  host : σ

/-- Why a call gave no value. -/
inductive Fault where
  /-- The fuel did not suffice; more may. -/
  | exhausted
  | failed (e : CallError)
deriving DecidableEq

/-- Something done to the world, which gives a value or a fault. -/
abbrev Run (σ : Type) := ExceptT Fault (StateM (World σ))

/-- A way to call functions. -/
abbrev Caller (σ : Type) := Callable → List Value → Run σ Value

namespace Run

variable {σ α : Type}

/-- Fails for the given reason. -/
def fail (e : CallError) : Run σ α :=
  throw (.failed e)

/-- The value, or the failure. -/
def ofExcept : Except CallError α → Run σ α
  | .ok a => pure a
  | .error e => fail e

/-- The heap as it is. -/
def heap : Run σ Heap :=
  return (← get).heap

/-- What a function finds in the heap. -/
def reading (f : Heap → Except CallError α) : Run σ α := do
  ofExcept (f (← heap))

/-- What a function makes of the heap, and its value. A failure leaves the heap as it is. -/
def changing (f : Heap → Except CallError (α × Heap)) : Run σ α := do
  let (a, h) ← reading f
  modify fun w => { w with heap := h }
  return a

/-- A new list. -/
def newList (items : List Value) : Run σ Value :=
  changing fun h => let (r, h) := h.newList items; .ok (.list r, h)

/-- Writes a text to the output. -/
def write (text : String) : Run σ Unit := do
  let w ← get
  match w.context.output.write (Text.utf8 text) with
  | .ok output => set { w with context := { w.context with output } }
  | .error e => fail (.io e)

/-- Passes on what was written to the output. -/
def flush : Run σ Unit := do
  match (← get).context.output.flush with
  | .ok () => return
  | .error e => fail (.io e)

/-- Reads a line of the input, if there is one. -/
def readLine : Run σ (Option String) := do
  let w ← get
  let (line, input) := w.context.input.readLine
  set { w with context := { w.context with input } }
  match line with
  | .ok line => return line
  | .error e => fail (.io e)

/-- Takes the next random draw. -/
def draw : Run σ Float := do
  let w ← get
  set { w with context := { w.context with draws := w.context.draws.advance } }
  return w.context.draws.next

/-- Takes the next reading of the clock. -/
def now : Run σ Int64 := do
  let w ← get
  set { w with context := { w.context with clock := w.context.clock.advance } }
  return w.context.clock.next

end Run

end PipeScript
