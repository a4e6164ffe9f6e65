/-
Running scripts in pieces. Statements are run one after the other, each with what the one before left
behind, so to run a script is to run the first statements of it and then, if these did not halt, the
others. A source may be cut wherever its script may.
-/
import PipeScript.Proofs.Evaluator.Steps
import PipeScript.Proofs.Syntax.Joined

namespace PipeScript

variable {σ : Type}

namespace Eval

variable (host : Host σ) (fuel : Nat)

theorem statements_append (last : Value) (p q : Program) : statements host fuel last (p ++ q) = (do
    let v ← statements host fuel last p
    statements host fuel v q) := by
  induction p generalizing last with
  | nil => exact (pure_bind _ _).symm
  | cons s p ih => simp only [List.cons_append, statements, ih, bind_assoc]

/-- The value of a script with a statement in it does not depend on what was before. -/
theorem statements_eq_program {q : Program} (hq : q ≠ []) (last : Value) :
    statements host fuel last q = program host fuel q := by
  cases q with
  | nil => exact absurd rfl hq
  | cons s q => rfl

theorem program_append {q : Program} (hq : q ≠ []) (p : Program) :
    program host fuel (p ++ q) = (do
      let _ ← program host fuel p
      program host fuel q) := by
  simp only [program, statements_append]
  simp only [statements_eq_program host fuel hq]

end Eval

/-- A source of which nothing has to be recovered, and below it one that opens with a call, an
assignment or a variable: the script of both is that of the one followed by that of the other, and to
run both is to run the one and then, unless that halts, the other. -/
theorem run_joined {s t : String} (hs : recoveries s = []) (ht : Opens t) :
    parseSource (s ++ "\n" ++ t) = parseSource s ++ parseSource t ∧
      ∀ {σ : Type} (host : Host σ) (fuel : Nat) (m : Machine σ),
        m.perform (Eval.source host fuel (s ++ "\n" ++ t)) =
          match m.perform (Eval.source host fuel s) with
          | (.ok _, m') => m'.perform (Eval.source host fuel t)
          | (.error h, m') => (.error h, m') := by
  have hscript := parseSource_joined hs ht
  refine ⟨hscript, fun host fuel m => ?_⟩
  rw [Eval.source, hscript, Eval.program_append host fuel ht.parseSource_ne_nil, Machine.perform_bind]
  rw [Eval.source, Eval.source]
  rcases m.perform (Eval.program host fuel (parseSource s)) with ⟨v | h, m'⟩ <;> rfl

/-- An assignment of a call, with a colon after the last argument. -/
def callLine : String :=
  "&x:|add:1:2:"

/-- A variable, after a blank. -/
def variableLine : String :=
  " !x"

/-- A machine with nothing in it. -/
def emptyMachine : Machine Unit :=
  ⟨{}, ⟨.empty, { draws := ⟨fun _ => 0, 0⟩, clock := ⟨fun _ => 0, 0⟩ }, ()⟩⟩

theorem lex_callLine : lex callLine =
    ⟨[⟨.assign, "", ⟨1, 1⟩⟩, ⟨.identifier, "x", ⟨1, 2⟩⟩, ⟨.symbol, ":", ⟨1, 3⟩⟩, ⟨.pipe, "add", ⟨1, 4⟩⟩,
      ⟨.symbol, ":", ⟨1, 8⟩⟩, ⟨.number, "1", ⟨1, 9⟩⟩, ⟨.symbol, ":", ⟨1, 10⟩⟩, ⟨.number, "2", ⟨1, 11⟩⟩,
      ⟨.symbol, ":", ⟨1, 12⟩⟩, ⟨.eof, "", ⟨1, 13⟩⟩], []⟩ := by
  decide +kernel

theorem lex_variableLine : lex variableLine =
    ⟨[⟨.variable, "", ⟨1, 2⟩⟩, ⟨.identifier, "x", ⟨1, 3⟩⟩, ⟨.eof, "", ⟨1, 4⟩⟩], []⟩ := by
  decide +kernel

/-- The variable is not an argument of the call above it, and has the value that was bound there. -/
theorem run_callLine_variableLine : recoveries callLine = [] ∧ Opens variableLine ∧
    parseSource (callLine ++ "\n" ++ variableLine) =
      [.assign "x" (.call "add" [.literal (.integer 1), .literal (.integer 2)]), .variable "x"] ∧
    (emptyMachine.perform (Eval.source (fun _ _ _ => throw .exhausted) 1 (callLine ++ "\n" ++ variableLine))).1 =
      .ok (.int 3) := by
  have hs : recoveries callLine = [] := by decide +kernel
  have ht : Opens variableLine := ⟨⟨.variable, "", ⟨1, 2⟩⟩, by rw [lex_variableLine]; rfl, by decide⟩
  have hfirst : parseSource callLine =
      [.assign "x" (.call "add" [.literal (.integer 1), .literal (.integer 2)])] := by
    have hone : (Syntax.number ⟨.number, "1", ⟨1, 9⟩⟩).1 = .integer 1 := by decide +kernel
    have htwo : (Syntax.number ⟨.number, "2", ⟨1, 11⟩⟩).1 = .integer 2 := by decide +kernel
    rw [parseSource, lex_callLine]
    simp [hone, htwo, parse, Syntax.statements, Syntax.statement, Syntax.assignment, Syntax.skipColon,
      Syntax.assigned, Syntax.expression, Syntax.call, Syntax.arguments, Syntax.operand, Syntax.name,
      Syntax.endsArguments, Token.isColon]
  have hsecond : parseSource variableLine = [.variable "x"] := by
    rw [parseSource, lex_variableLine]
    simp [parse, Syntax.statements, Syntax.statement, Syntax.expression, Syntax.operand, Syntax.name]
  obtain ⟨hscript, hrun⟩ := run_joined hs ht
  refine ⟨hs, ht, by rw [hscript, hfirst, hsecond]; rfl, ?_⟩
  rw [hrun, Eval.source, Eval.source, hfirst, hsecond]
  rfl

end PipeScript
