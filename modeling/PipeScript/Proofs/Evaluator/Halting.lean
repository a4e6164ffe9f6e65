/-
What a halt leaves behind. Only an assignment binds a name, and it does so after all else that belongs
to it. The arguments of a call that is read from a source are atoms, and evaluating these does nothing.
So a statement of a source that halts has bound no name, and if it halts since no function has the name
that is called, then it has done nothing at all.
-/
import PipeScript.Proofs.Evaluator.Joined
import PipeScript.Proofs.Syntax.Shape

namespace PipeScript

variable {σ α : Type}

/-- From the one machine to the other all names are kept, and if the halt is that no function has the name
that is called, everything is. -/
structure Halt.Keeps (h : Halt) (m m' : Machine σ) : Prop where
  env : m'.env = m.env
  all : ∀ name, h = .failed (.unresolved name) → m' = m

namespace Eval

open Machine

variable {P : String → Prop}

/-! ## Statements -/

section

variable (host : Host σ) (fuel : Nat) (m : Machine σ)

theorem perform_atom {a : Node} (ha : a.Atom P) : ∃ v, m.perform (node host fuel a) = (.ok v, m) := by
  cases ha with
  | literal l => exact ⟨_, perform_literal host fuel m l⟩
  | «variable» _ => exact ⟨_, perform_variable host fuel m _⟩

theorem perform_atoms {args : List Node} (hargs : ∀ a ∈ args, a.Atom P) :
    ∃ vs, m.perform (nodes host fuel args) = (.ok vs, m) := by
  induction args with
  | nil => exact ⟨[], by rw [nodes, perform_pure]⟩
  | cons a args ih =>
    rw [List.forall_mem_cons] at hargs
    obtain ⟨v, hv⟩ := perform_atom host fuel m hargs.1
    obtain ⟨vs, hvs⟩ := ih hargs.2
    refine ⟨v :: vs, ?_⟩
    rw [perform_nodes_cons, hv]
    simp only [hvs]

end

variable {host : Host σ} {fuel : Nat} {m m' : Machine σ} {h : Halt}

/-- The failure of a function bears the name of the call and is never that the function is missing. -/
theorem keeps_of_calling {name : String} {r : Run σ α} (hr : m.perform (calling name r) = (.error h, m')) :
    h.Keeps m m' := by
  rw [perform_calling] at hr
  rcases hw : r.run.run m.world with ⟨(_ | e) | a, world⟩
  all_goals
    rw [hw] at hr
    cases hr
  · exact ⟨rfl, nofun⟩
  · exact ⟨rfl, nofun⟩

theorem keeps_of_call {name : String} {args : List Value}
    (hcall : m.perform (call host fuel name args) = (.error h, m')) : h.Keeps m m' := by
  rw [perform_call] at hcall
  cases hf : m.env.function? name with
  | some f =>
    rw [hf] at hcall
    exact keeps_of_calling hcall
  | none =>
    rw [hf] at hcall
    cases hcall
    exact ⟨rfl, fun _ _ => rfl⟩

/-- An expression that halts does so in its call, when the values of all arguments are had. -/
theorem exists_call_of_flat {a : Node} (ha : a.Flat P) (hhalt : m.perform (node host fuel a) = (.error h, m')) :
    ∃ name args vs, m.perform (nodes host fuel args) = (.ok vs, m) ∧
      m.perform (call host fuel name vs) = (.error h, m') := by
  cases ha with
  | atom ha =>
    obtain ⟨v, hv⟩ := perform_atom host fuel m ha
    rw [hv] at hhalt
    cases hhalt
  | @call name args hargs =>
    obtain ⟨vs, hvs⟩ := perform_atoms host fuel m hargs
    rw [perform_call_node, hvs] at hhalt
    exact ⟨name, args, vs, hvs, hhalt⟩

/-- So does a statement. -/
theorem exists_call_of_line {s : Node} (hs : s.Line P) (hhalt : m.perform (node host fuel s) = (.error h, m')) :
    ∃ name args vs, m.perform (nodes host fuel args) = (.ok vs, m) ∧
      m.perform (call host fuel name vs) = (.error h, m') := by
  cases hs with
  | flat ha => exact exists_call_of_flat ha hhalt
  | @assign name value _ hvalue =>
    rw [perform_assign] at hhalt
    rcases hv : m.perform (node host fuel value) with ⟨h' | v, m₁⟩
    · rw [hv] at hhalt
      cases hhalt
      exact exists_call_of_flat hvalue hv
    -- with its value the assignment does not halt
    · rw [hv] at hhalt
      cases hhalt

theorem keeps_of_line {s : Node} (hs : s.Line P) (hhalt : m.perform (node host fuel s) = (.error h, m')) :
    h.Keeps m m' := by
  obtain ⟨_, _, _, -, hcall⟩ := exists_call_of_line hs hhalt
  exact keeps_of_call hcall

/-! ## Scripts -/

/-- A script that halts does so in one of its statements, after those before it came to a value. -/
theorem exists_halted {last : Value} {p : Program} (hp : m.perform (statements host fuel last p) = (.error h, m')) :
    ∃ before s after v m₁, p = before ++ s :: after ∧
      m.perform (statements host fuel last before) = (.ok v, m₁) ∧
      m₁.perform (node host fuel s) = (.error h, m') := by
  induction p generalizing last m with
  | nil => cases hp
  | cons s p ih =>
    rw [perform_statements_cons] at hp
    rcases hs : m.perform (node host fuel s) with ⟨h' | v, m₁⟩
    · rw [hs] at hp
      cases hp
      exact ⟨[], s, p, last, m, rfl, rfl, hs⟩
    · rw [hs] at hp
      obtain ⟨before, t, after, w, m₂, rfl, hbefore, ht⟩ := ih hp
      refine ⟨s :: before, t, after, w, m₂, rfl, ?_, ht⟩
      rw [perform_statements_cons, hs]
      exact hbefore

end Eval

/-- A source that halts does so in one of its statements: those before it come to a value by themselves,
and every name has the value that it has after them. If no function has the name that is called, the
machine as a whole is the one after them. -/
theorem source_halted {host : Host σ} {fuel : Nat} {m m' : Machine σ} {h : Halt} {text : String}
    (hrun : m.perform (Eval.source host fuel text) = (.error h, m')) :
    ∃ before s after v m₁, parseSource text = before ++ s :: after ∧
      m.perform (Eval.program host fuel before) = (.ok v, m₁) ∧
      m₁.perform (Eval.node host fuel s) = (.error h, m') ∧
      m'.env = m₁.env ∧ ∀ name, h = .failed (.unresolved name) → m' = m₁ := by
  obtain ⟨before, s, after, v, m₁, hscript, hbefore, hs⟩ := Eval.exists_halted hrun
  have hmem : s ∈ parseSource text := by
    rw [hscript]
    exact List.mem_append_cons_self
  have hkeeps : h.Keeps m₁ m' := Eval.keeps_of_line (parse_line _ s hmem) hs
  exact ⟨before, s, after, v, m₁, hscript, hbefore, hs, hkeeps.env, hkeeps.all⟩

/-- A name that is bound, and then would be bound to the value of a call of what is no function. -/
def nopeLine : String :=
  "&a:1\n&a:|nope:!a"

theorem lex_nopeLine : lex nopeLine =
    ⟨[⟨.assign, "", ⟨1, 1⟩⟩, ⟨.identifier, "a", ⟨1, 2⟩⟩, ⟨.symbol, ":", ⟨1, 3⟩⟩, ⟨.number, "1", ⟨1, 4⟩⟩,
      ⟨.assign, "", ⟨2, 1⟩⟩, ⟨.identifier, "a", ⟨2, 2⟩⟩, ⟨.symbol, ":", ⟨2, 3⟩⟩, ⟨.pipe, "nope", ⟨2, 4⟩⟩,
      ⟨.symbol, ":", ⟨2, 9⟩⟩, ⟨.variable, "", ⟨2, 10⟩⟩, ⟨.identifier, "a", ⟨2, 11⟩⟩, ⟨.eof, "", ⟨2, 12⟩⟩], []⟩ := by
  decide +kernel

theorem nopeLine_halted : ∃ m', emptyMachine.perform (Eval.source noHost 1 nopeLine) =
      (.error (.failed (.unresolved "nope")), m') ∧ m'.env.get? "a" = some (.int 1) ∧
    ∃ before s after v m₁, parseSource nopeLine = before ++ s :: after ∧
      emptyMachine.perform (Eval.program noHost 1 before) = (.ok v, m₁) ∧
      m₁.perform (Eval.node noHost 1 s) = (.error (.failed (.unresolved "nope")), m') ∧
      m'.env = m₁.env ∧ m' = m₁ := by
  have hone : (Syntax.number ⟨.number, "1", ⟨1, 4⟩⟩).1 = .integer 1 := by decide +kernel
  have hscript : parseSource nopeLine =
      [.assign "a" (.literal (.integer 1)), .assign "a" (.call "nope" [.variable "a"])] := by
    rw [parseSource, lex_nopeLine]
    simp [hone, parse, Syntax.statements, Syntax.statement, Syntax.assignment, Syntax.skipColon,
      Syntax.assigned, Syntax.expression, Syntax.call, Syntax.arguments, Syntax.operand, Syntax.name,
      Syntax.endsArguments, Token.isColon]
  have hrun : emptyMachine.perform (Eval.source noHost 1 nopeLine) =
      (.error (.failed (.unresolved "nope")), { emptyMachine with env := emptyMachine.env.set "a" (.int 1) }) := by
    rw [Eval.source, hscript]
    rfl
  obtain ⟨before, s, after, v, m₁, hparts, hbefore, hs, henv, hall⟩ := source_halted hrun
  exact ⟨_, hrun, rfl, before, s, after, v, m₁, hparts, hbefore, hs, henv, hall "nope" rfl⟩

end PipeScript
