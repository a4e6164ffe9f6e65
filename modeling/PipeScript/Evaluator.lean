/-
Running scripts. An evaluator goes through the statements in order and stops at the first that
fails; what was done before that stays done.
-/
import PipeScript.Builtin.Call
import PipeScript.Environment
import PipeScript.Syntax.Compile

namespace PipeScript

/-- An evaluator with the world it runs in. -/
structure Machine (σ : Type) where
  env : Environment
  world : World σ

/-- Why a script came to no value. -/
inductive Halt where
  /-- The fuel did not suffice; more may. -/
  | exhausted
  | failed (e : ScriptError)
deriving DecidableEq

namespace Halt

/-- The wording of a halt. -/
def message : Halt → String
  | .exhausted => "out of fuel"
  | .failed e => e.message

end Halt

/-- Something an evaluator does, which gives a value or halts. -/
abbrev Eval (σ : Type) := ExceptT Halt (StateM (Machine σ))

namespace Eval

variable {σ : Type}

/-- Does something to the world, in the course of a call of the named function. -/
def calling {α : Type} (name : String) (r : Run σ α) : Eval σ α := do
  let m ← get
  let (result, world) := r.run.run m.world
  set { m with world }
  match result with
  | .ok a => return a
  | .error .exhausted => throw .exhausted
  | .error (.failed e) => throw (.failed (.call name e))

/-- Calls the function of a name with values. -/
def call (host : Host σ) (fuel : Nat) (name : String) (args : List Value) : Eval σ Value := do
  match (← get).env.function? name with
  | some f => calling name (host.call fuel f args)
  | none => throw (.failed (.unresolved name))

mutual

/-- The value of a node. A name that is not bound has the value null. The arguments of a call have
their values before it is known whether there is such a function. -/
def node (host : Host σ) (fuel : Nat) : Node → Eval σ Value
  | .literal l => pure (.ofLiteral l)
  | .variable name => do return ((← get).env.get? name).getD .null
  | .assign name value => do
    let v ← node host fuel value
    modify fun m => { m with env := m.env.set name v }
    return v
  | .call name args => do
    let vs ← nodes host fuel args
    call host fuel name vs

/-- The values of nodes, from the first on. -/
def nodes (host : Host σ) (fuel : Nat) : List Node → Eval σ (List Value)
  | [] => pure []
  | n :: ns => do
    let v ← node host fuel n
    let vs ← nodes host fuel ns
    return v :: vs

end

/-- The value of the last statement of a script, or the given one if there are no statements. -/
def statements (host : Host σ) (fuel : Nat) (last : Value) : Program → Eval σ Value
  | [] => pure last
  | s :: rest => do
    let v ← node host fuel s
    statements host fuel v rest

/-- The value of a script: that of its last statement, and null if it has none. -/
def program (host : Host σ) (fuel : Nat) (p : Program) : Eval σ Value :=
  statements host fuel .null p

/-- Runs a source, whatever the recoveries that it takes. -/
def source (host : Host σ) (fuel : Nat) (text : String) : Eval σ Value :=
  program host fuel (parseSource text)

/-- Runs a source. When strict, a recovery keeps it from being run. -/
def compiled (host : Host σ) (fuel : Nat) (strict : Bool) (text : String) : Eval σ Value :=
  match compile strict text with
  | .ok p => program host fuel p
  | .error d => throw (.failed (.malformed d))

end Eval

namespace Machine

variable {σ α : Type}

/-- What comes of doing something, and the machine after it. -/
def perform (m : Machine σ) (e : Eval σ α) : Except Halt α × Machine σ :=
  e.run.run m

end Machine

end PipeScript
