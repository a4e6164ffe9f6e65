/-
Talking to the outside: output, input, random numbers and the time.
-/
import PipeScript.Builtin.Arguments
import PipeScript.Run

namespace PipeScript.Console

variable {σ : Type}

open Arguments

/-- Writes the texts of all arguments on one line, with blanks between them. -/
def print (args : List Value) : Run σ Value := do
  let h ← Run.heap
  Run.write (" ".intercalate (args.map h.text) ++ "\n")
  return .null

/-- Reads a line, after writing the text of the argument, if there is one. At the end of the input
there is null. -/
def input (args : List Value) : Run σ Value := do
  match ← Run.ofExcept (atMostOne args) with
  | some prompt =>
    Run.write ((← Run.heap).text prompt)
    Run.flush
  | none => pure ()
  match ← Run.readLine with
  | some line => return .str line
  | none => return .null

/-- The time in milliseconds. -/
def time (_ : List Value) : Run σ Value := do
  return .int (← Run.now)

/-- A random number between zero and one, or between the two numbers that are given. -/
def random (args : List Value) : Run σ Value := do
  let r ← Run.draw
  match args with
  | [low, high] =>
    let low ← Run.ofExcept (number low)
    let high ← Run.ofExcept (number high)
    return .float (low + (high - low) * r)
  | _ => return .float r

end PipeScript.Console
