/-
The names of variables in scripts. A name that is written directly after its mark consists of letters,
numerals and underlines, and such a name can be read again by the mark before it. Where something
stands between the mark and the next word, the word is taken as the name all the same, and it may
then hold dashes, which no name that directly follows a mark can.
-/
import PipeScript.Proofs.Syntax.Joined
import PipeScript.Proofs.Syntax.Shape
import PipeScript.Proofs.Token.Mark

namespace PipeScript

/-! ## The names in a script -/

mutual

/-- The names of the variables that are read or bound in a node. -/
def Node.variableNames : Node → List String
  | .literal _ => []
  | .variable name => [name]
  | .call _ args => Node.argumentNames args
  | .assign name value => name :: value.variableNames

/-- The names of the variables that are read or bound in the arguments of a call. -/
def Node.argumentNames : List Node → List String
  | [] => []
  | a :: args => a.variableNames ++ Node.argumentNames args

end

/-- The names of the variables that are read or bound in a script. -/
def Program.variableNames (p : Program) : List String :=
  p.flatMap Node.variableNames

namespace Node

variable {P : String → Prop} {a : Node} {name : String}

theorem Atom.of_mem_variableNames (ha : a.Atom P) (hname : name ∈ a.variableNames) : P name := by
  cases ha with
  | literal => cases hname
  | «variable» h => rwa [List.mem_singleton.1 hname]

theorem of_mem_argumentNames {args : List Node} (hargs : ∀ a ∈ args, a.Atom P)
    (hname : name ∈ argumentNames args) : P name := by
  induction args with
  | nil => cases hname
  | cons a args ih =>
    rw [List.forall_mem_cons] at hargs
    rcases List.mem_append.1 hname with hname | hname
    · exact hargs.1.of_mem_variableNames hname
    · exact ih hargs.2 hname

theorem Flat.of_mem_variableNames (ha : a.Flat P) (hname : name ∈ a.variableNames) : P name := by
  cases ha with
  | atom ha => exact ha.of_mem_variableNames hname
  | call _ hargs => exact of_mem_argumentNames hargs hname

theorem Line.of_mem_variableNames (ha : a.Line P) (hname : name ∈ a.variableNames) : P name := by
  cases ha with
  | flat ha => exact ha.of_mem_variableNames hname
  | assign h hvalue =>
    rcases List.mem_cons.1 hname with rfl | hname
    · exact h
    · exact hvalue.of_mem_variableNames hname

end Node

/-! ## The names in a source -/

open Lexeme

/-- Wherever the name is that of the word after the mark of a variable, the word stands directly after
the mark. -/
def NamedDirectly (source name : String) : Prop :=
  (lex source).tokens.IsChain fun mark t => mark.kind = .variable ∨ mark.kind = .assign →
    t.kind = .identifier → t.slice = name → t.span = mark.span.next '!'

instance (source name : String) : Decidable (NamedDirectly source name) :=
  inferInstanceAs (Decidable (List.IsChain _ _))

theorem names_of_mem_parseSource {source name : String}
    (hname : name ∈ Program.variableNames (parseSource source)) :
    Names (tokensAt .start (scan source.toList)) name := by
  obtain ⟨s, hs, hname⟩ := List.mem_flatMap.1 hname
  rw [parseSource, parse_lex] at hs
  exact (Syntax.statements_line _ _ s hs).of_mem_variableNames hname

/-- A name is read by the mark before it. -/
theorem parseSource_name {name : String} (hname : ∀ c ∈ name.toList, isNameChar c = true) :
    parseSource ("!" ++ name) = [.variable name] := by
  by_cases hne : name.toList = []
  · obtain rfl := String.toList_eq_nil_iff.1 hne
    have hlex : lex ("!" ++ "") = ⟨[⟨.variable, "", ⟨1, 1⟩⟩, ⟨.eof, "", ⟨1, 2⟩⟩], []⟩ := by decide +kernel
    rw [parseSource, hlex]
    simp [parse, Syntax.statements, Syntax.statement, Syntax.expression, Syntax.operand, Syntax.name]
  · have hscan : scan ("!" ++ name).toList =
        [⟨['!'], .token .variable []⟩, ⟨name.toList, .token .identifier name.toList⟩] := by
      have hend : EndsRun [] := by simp [EndsRun]
      rw [show ("!" ++ name).toList = '!' :: (name.toList ++ []) by simp, scan_variable hne hname hend, scan_nil]
    rw [parseSource, parse_lex, hscan, tokensAt_token, tokensAt_token, String.ofList_toList]
    simp [tokensAt, placed, Syntax.statements, Syntax.statement, Syntax.expression, Syntax.operand, Syntax.name]

/-- A name of a variable in a script has no other characters than words have. It consists of what names
consist of, and can be read by the mark directly before it, unless it is a word somewhere apart from
the mark before it. -/
theorem variableNames_parseSource {source name : String}
    (hname : name ∈ Program.variableNames (parseSource source)) :
    (∀ c ∈ name.toList, isWordChar c = true) ∧ (NamedDirectly source name →
      (∀ c ∈ name.toList, isNameChar c = true) ∧ parseSource ("!" ++ name) = [.variable name]) := by
  rcases names_of_mem_parseSource hname with rfl | ⟨before, mark, t, after, htokens, hmark, ht, rfl⟩
  · exact ⟨nofun, fun _ => ⟨nofun, parseSource_name nofun⟩⟩
  obtain ⟨hword, hchars⟩ := chars_of_word htokens hmark ht
  refine ⟨hword, fun hdirectly => ?_⟩
  have hall : (lex source).tokens =
      before ++ mark :: t :: (after ++ [⟨.eof, "", Span.start.after source.toList⟩]) := by
    rw [tokens_lex, htokens]
    simp
  rw [NamedDirectly, hall, List.isChain_append_cons_cons] at hdirectly
  have hname := hchars (hdirectly.2.1 hmark ht rfl)
  exact ⟨hname, parseSource_name hname⟩

/-- A variable that is bound to a word, and one that is bound to a string, with a dash in its name. -/
def dashedName : String :=
  "&x:y\n& a-b:\"\""

theorem lex_dashedName : lex dashedName =
    ⟨[⟨.assign, "", ⟨1, 1⟩⟩, ⟨.identifier, "x", ⟨1, 2⟩⟩, ⟨.symbol, ":", ⟨1, 3⟩⟩, ⟨.identifier, "y", ⟨1, 4⟩⟩,
      ⟨.assign, "", ⟨2, 1⟩⟩, ⟨.identifier, "a-b", ⟨2, 3⟩⟩, ⟨.symbol, ":", ⟨2, 6⟩⟩, ⟨.string, "", ⟨2, 7⟩⟩,
      ⟨.eof, "", ⟨2, 9⟩⟩], []⟩ := by
  decide +kernel

theorem parseSource_dashedName : parseSource dashedName =
    [.assign "x" (.literal (.string "y")), .assign "a-b" (.literal (.string ""))] := by
  rw [parseSource, lex_dashedName]
  simp [parse, Syntax.statements, Syntax.statement, Syntax.assignment, Syntax.skipColon, Syntax.assigned,
    Syntax.expression, Syntax.operand, Syntax.name, Token.isColon]

theorem variableNames_dashedName : NamedDirectly dashedName "x" ∧
    (∀ c ∈ "x".toList, isNameChar c = true) ∧ parseSource ("!" ++ "x") = [.variable "x"] ∧
    ∀ c ∈ "a-b".toList, isWordChar c = true := by
  have hx : "x" ∈ Program.variableNames (parseSource dashedName) := by
    rw [parseSource_dashedName]
    decide
  have hdash : "a-b" ∈ Program.variableNames (parseSource dashedName) := by
    rw [parseSource_dashedName]
    decide
  have hdirectly : NamedDirectly dashedName "x" := by
    rw [NamedDirectly, lex_dashedName]
    decide
  obtain ⟨hchars, hread⟩ := (variableNames_parseSource hx).2 hdirectly
  exact ⟨hdirectly, hchars, hread, (variableNames_parseSource hdash).1⟩

/-- The word with a dash is bound, though no name has a dash, and the mark directly before it does not
read it. -/
theorem dash_mem_name : "a-b" ∈ Program.variableNames (parseSource dashedName) ∧ '-' ∈ "a-b".toList ∧
    isNameChar '-' = false ∧ "a-b" ∉ Program.variableNames (parseSource ("!" ++ "a-b")) := by
  refine ⟨?_, by decide, by decide, fun hread => ?_⟩
  · rw [parseSource_dashedName]
    decide
  · have hlex : lex ("!" ++ "a-b") = ⟨[⟨.variable, "", ⟨1, 1⟩⟩, ⟨.identifier, "a", ⟨1, 2⟩⟩, ⟨.symbol, "-", ⟨1, 3⟩⟩,
        ⟨.identifier, "b", ⟨1, 4⟩⟩, ⟨.eof, "", ⟨1, 5⟩⟩], []⟩ := by decide +kernel
    have hscript : parseSource ("!" ++ "a-b") =
        [.variable "a", .literal (.integer (-1)), .literal (.string "b")] := by
      rw [parseSource, hlex]
      simp [parse, Syntax.statements, Syntax.statement, Syntax.expression, Syntax.operand, Syntax.name]
    rw [hscript] at hread
    revert hread
    decide

end PipeScript
