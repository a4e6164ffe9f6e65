/-
Interactive sessions: lines of the input are run one after the other by one evaluator, each after a
prompt. A line that fails is reported, and the session goes on with the next one. Scripts read from
the same input, so that a line that a script has read is not run.
-/
import PipeScript.Evaluator

namespace PipeScript.Interactive

variable {σ : Type}

/-- How sessions and scripts are run and reported. -/
structure Manner where
  /-- Recoveries in a source are errors. -/
  strict : Bool := false
  /-- Values are not written. -/
  quiet : Bool := false
deriving DecidableEq, Repr

/-- A machine, and the errors reported so far, the latest first. -/
structure State (σ : Type) where
  machine : Machine σ
  errors : List String := []

/-- Does something that is part of the session itself. Its failures end the session. -/
def State.perform {α : Type} (s : State σ) (r : Run σ α) : Except Fault α × State σ :=
  let (result, world) := r.run.run s.machine.world
  (result, { s with machine := { s.machine with world } })

/-- Writes a value on a line of its own, unless it is null or the session is quiet. -/
def report (manner : Manner) (v : Value) : Run σ Unit := do
  let h ← Run.heap
  if !manner.quiet && !h.eq v .null then Run.write (h.text v ++ "\n")

/-- What came of running a source: its value is written, its failure noted. -/
def run (host : Host σ) (fuel : Nat) (manner : Manner) (text : String) (s : State σ) : State σ :=
  match s.machine.perform (Eval.compiled host fuel manner.strict text) with
  | (.ok v, machine) => ({ s with machine }.perform (report manner v)).2
  | (.error e, machine) => { machine, errors := e.message :: s.errors }

/-- Prompts for a line and reads it. -/
def prompt : Run σ (Option String) := do
  Run.write "> "
  Run.flush
  Run.readLine

/-- Runs lines until the input ends, which is a success, or cannot be read. The number of rounds is
bounded. -/
def rounds (host : Host σ) (fuel : Nat) (manner : Manner) :
    Nat → State σ → Bool × State σ
  | 0, s => (false, s)
  | bound + 1, s =>
    match s.perform prompt with
    | (.ok (some line), s) => rounds host fuel manner bound (run host fuel manner line s)
    | (.ok none, s) => (true, (s.perform (Run.write "\n")).2)
    | (.error (.failed e), s) => (false, { s with errors := e.message :: s.errors })
    | (.error .exhausted, s) => (false, s)

/-- Runs a session. Each round takes a byte of the input at least, and one more meets its end. -/
def session (host : Host σ) (fuel : Nat) (manner : Manner) (m : Machine σ) : Bool × State σ :=
  rounds host fuel manner (m.world.context.input.unread.length + 1) { machine := m }

end PipeScript.Interactive
