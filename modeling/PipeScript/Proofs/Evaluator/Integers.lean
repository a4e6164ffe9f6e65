/-
Integers on their way through a script: written in decimal digits, read, bound to a name, and had from
that name again. The digits are read before the sign that stands in front of them, so it is the magnitude
that has to be an integer. That of the least integer is none: it is read as a float, of which the sign
makes the opposite float. All other integers come through as they are.
-/
import PipeScript.Proofs.Evaluator.Joined
import PipeScript.Proofs.Syntax.RoundTrip

namespace PipeScript

open Lexeme

/-! ## Reading -/

/-- A statement is read back from its text alone, and nothing about it has to be recovered. -/
theorem parseSource_statement {a : Node} (ha : a.Statement) :
    parseSource (String.ofList a.written) = [a] ∧ recoveries (String.ofList a.written) = [] := by
  have hscan : scan (String.ofList a.written).toList = a.lexemes := by
    have hends : EndsRun [] := by simp [EndsRun]
    simpa [scan_nil] using ha.scan_written hends
  have hparse : parse (lex (String.ofList a.written)).tokens = ⟨[a], []⟩ := by
    -- no token follows, so whatever the statement ends in, it is closed
    have hnone : a.endsInCall → EndArguments (Span.start.after a.written).line [] := fun _ => nofun
    obtain ⟨t, ts, last, htokens, hread⟩ :=
      ha.read .start (Span.start.after (String.ofList a.written).toList) hnone
    rw [List.append_nil] at hread
    rw [parse_lex, hscan, htokens, Syntax.statements, hread]
    simp only [Syntax.statements, List.append_nil]
  refine ⟨by rw [parseSource, hparse], ?_⟩
  rw [recoveries, hparse, List.append_nil]
  show diagnosticsAt .start (scan (String.ofList a.written).toList) = []
  rw [hscan, diagnosticsAt_plain (Node.plain a)]

/-- A name is given the decimal text of an integer, and on the next line it is read. -/
def integerLines (n : Int64) : String :=
  "&x:" ++ String.ofList (Integer.text n) ++ "\n" ++ "!x"

theorem parseSource_integerLines {n : Int64} (hn : n ≠ Int64.minValue) :
    parseSource (integerLines n) = [.assign "x" (.literal (.integer n)), .variable "x"] := by
  have hx : IsName "x" := by decide
  have hassign := parseSource_statement (.assign hx (.operand (.ofLiteral (l := .integer n) hn)))
  have hvariable := parseSource_statement (.expression (.operand (.ofVariable hx)))
  have hopens : Opens "!x" := ⟨⟨.variable, "", ⟨1, 1⟩⟩, by decide +kernel, by decide⟩
  have hline : "&x:" ++ String.ofList (Integer.text n) =
      String.ofList (Node.assign "x" (.literal (.integer n))).written :=
    String.toList_inj.1 (by simp [Node.written, Literal.written])
  rw [integerLines, hline, parseSource_joined hassign.2 hopens, hassign.1]
  exact congrArg (_ :: ·) hvariable.1

theorem lex_integerLines_minValue : lex (integerLines Int64.minValue) =
    ⟨[⟨.assign, "", ⟨1, 1⟩⟩, ⟨.identifier, "x", ⟨1, 2⟩⟩, ⟨.symbol, ":", ⟨1, 3⟩⟩, ⟨.symbol, "-", ⟨1, 4⟩⟩,
      ⟨.number, "9223372036854775808", ⟨1, 5⟩⟩, ⟨.variable, "", ⟨2, 1⟩⟩, ⟨.identifier, "x", ⟨2, 2⟩⟩,
      ⟨.eof, "", ⟨2, 3⟩⟩], []⟩ := by
  decide +kernel

theorem parseSource_integerLines_minValue : parseSource (integerLines Int64.minValue) =
    [.assign "x" (.literal (.float (-9223372036854775808))), .variable "x"] := by
  have hdigits : (Syntax.number ⟨.number, "9223372036854775808", ⟨1, 5⟩⟩).1.negate =
      .float (-9223372036854775808) := by decide +kernel
  rw [parseSource, lex_integerLines_minValue]
  simp [hdigits, parse, Syntax.statements, Syntax.statement, Syntax.assignment, Syntax.skipColon,
    Syntax.assigned, Syntax.expression, Syntax.operand, Syntax.name, Token.isColon]

/-! ## Running -/

variable {σ : Type}

/-- A name that is given a literal has its value. -/
theorem perform_assign_variable (host : Host σ) (fuel : Nat) (m : Machine σ) (name : String) (l : Literal) :
    m.perform (Eval.program host fuel [.assign name (.literal l), .variable name]) =
      (.ok (.ofLiteral l), { m with env := m.env.set name (.ofLiteral l) }) := by
  rw [Eval.program, Eval.perform_statements_cons, Eval.perform_assign, Eval.perform_literal]
  simp only [Eval.perform_statements_cons, Eval.perform_variable, Environment.get?_set, if_true, Option.getD_some]
  rfl

/-- Every integer but the least one is had again from the name that it is given to by its decimal text.
For the least one that is the float with its value. -/
theorem source_integerLines (host : Host σ) (fuel : Nat) (m : Machine σ) (n : Int64) :
    let v : Value := if n = Int64.minValue then .float (-9223372036854775808) else .int n
    m.perform (Eval.source host fuel (integerLines n)) = (.ok v, { m with env := m.env.set "x" v }) := by
  intro v
  by_cases hn : n = Int64.minValue
  · rw [show v = .float (-9223372036854775808) from if_pos hn, hn, Eval.source,
      parseSource_integerLines_minValue, perform_assign_variable]
    rfl
  · rw [show v = .int n from if_neg hn, Eval.source, parseSource_integerLines hn, perform_assign_variable]
    rfl

/-- The least integer does not come through as an integer. -/
theorem source_minValue_ne_int :
    (emptyMachine.perform (Eval.source noHost 1 (integerLines Int64.minValue))).1 ≠
      .ok (.int Int64.minValue) := by
  rw [Eval.source, parseSource_integerLines_minValue, perform_assign_variable]
  intro h
  cases h

end PipeScript
