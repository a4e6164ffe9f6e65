/-
What evaluating comes to, one step at a time: a value is had or a halt, and a machine is left behind.
Each kind of node, a call, and the first of several nodes has an equation, so that nothing else has to
look into how an evaluator threads its machine.
-/
import PipeScript.Evaluator

namespace PipeScript

variable {σ α β : Type}

namespace Machine

variable (m : Machine σ)

/-- What one thing and then another does: the second is done where the first one gave a value. -/
theorem perform_bind (e : Eval σ α) (f : α → Eval σ β) : m.perform (e >>= f) =
    match m.perform e with
    | (.ok a, m') => m'.perform (f a)
    | (.error h, m') => (.error h, m') := by
  simp only [perform, ExceptT.run_bind, StateT.run_bind]
  rcases e.run.run m with ⟨a | h, m'⟩ <;> rfl

theorem perform_pure (a : α) : m.perform (pure a : Eval σ α) = (.ok a, m) := rfl

theorem perform_get : m.perform (get : Eval σ (Machine σ)) = (.ok m, m) := rfl

theorem perform_modify (f : Machine σ → Machine σ) : m.perform (modify f : Eval σ PUnit) = (.ok ⟨⟩, f m) := rfl

end Machine

namespace Eval

open Machine

variable (host : Host σ) (fuel : Nat) (m : Machine σ)

/-! ## Calls -/

/-- A call changes the world of the machine, and its failures bear its name. -/
theorem perform_calling (name : String) (r : Run σ α) : m.perform (calling name r) =
    match r.run.run m.world with
    | (.ok a, world) => (.ok a, { m with world })
    | (.error .exhausted, world) => (.error .exhausted, { m with world })
    | (.error (.failed e), world) => (.error (.failed (.call name e)), { m with world }) := by
  simp only [calling, perform_bind, perform_get]
  rcases r.run.run m.world with ⟨(_ | _) | _, _⟩ <;> rfl

/-- Without a function of the name nothing is done. -/
theorem perform_call (name : String) (args : List Value) : m.perform (call host fuel name args) =
    match m.env.function? name with
    | some f => m.perform (calling name (host.call fuel f args))
    | none => (.error (.failed (.unresolved name)), m) := by
  simp only [call, perform_bind, perform_get]
  cases m.env.function? name <;> rfl

/-! ## Nodes -/

theorem perform_literal (l : Literal) :
    m.perform (node host fuel (.literal l)) = (.ok (.ofLiteral l), m) := by
  rw [node, perform_pure]

theorem perform_variable (name : String) :
    m.perform (node host fuel (.variable name)) = (.ok ((m.env.get? name).getD .null), m) := by
  simp only [node, perform_bind, perform_get, perform_pure]

theorem perform_assign (name : String) (value : Node) : m.perform (node host fuel (.assign name value)) =
    match m.perform (node host fuel value) with
    | (.ok v, m') => (.ok v, { m' with env := m'.env.set name v })
    | (.error h, m') => (.error h, m') := by
  simp only [node, perform_bind, perform_modify, perform_pure]
  rcases m.perform (node host fuel value) with ⟨_ | _, _⟩ <;> rfl

theorem perform_call_node (name : String) (args : List Node) : m.perform (node host fuel (.call name args)) =
    match m.perform (nodes host fuel args) with
    | (.ok vs, m') => m'.perform (call host fuel name vs)
    | (.error h, m') => (.error h, m') := by
  rw [node, perform_bind]
  rcases m.perform (nodes host fuel args) with ⟨_ | _, _⟩ <;> rfl

theorem perform_nodes_cons (n : Node) (ns : List Node) : m.perform (nodes host fuel (n :: ns)) =
    match m.perform (node host fuel n) with
    | (.ok v, m') =>
      match m'.perform (nodes host fuel ns) with
      | (.ok vs, m'') => (.ok (v :: vs), m'')
      | (.error h, m'') => (.error h, m'')
    | (.error h, m') => (.error h, m') := by
  simp only [nodes, perform_bind, perform_pure]
  rcases m.perform (node host fuel n) with ⟨_ | v, m'⟩
  · rfl
  · dsimp only
    rcases m'.perform (nodes host fuel ns) with ⟨_ | _, _⟩ <;> rfl

theorem perform_statements_cons (last : Value) (s : Node) (rest : Program) :
    m.perform (statements host fuel last (s :: rest)) =
    match m.perform (node host fuel s) with
    | (.ok v, m') => m'.perform (statements host fuel v rest)
    | (.error h, m') => (.error h, m') := by
  rw [statements, perform_bind]
  rcases m.perform (node host fuel s) with ⟨_ | _, _⟩ <;> rfl

end Eval

/-- A host without functions. -/
def noHost : Host Unit :=
  fun _ _ _ => throw .exhausted

end PipeScript
