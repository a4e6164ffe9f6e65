/-
Where a variable ends the arguments of a call. Reading goes through the tokens from the left, so the
token read last is always the one right before the tokens ahead; and the mark of a variable ends the
arguments exactly when a line break lies in the source somewhere from the first character of that
token up to the mark. For a token on one line that is a line break between the two. For a string
over several lines it is not: the mark ends the arguments also where it stands on the line on which
the string is closed.
-/
import PipeScript.Proofs.Syntax.Parser
import PipeScript.Proofs.Token.Line
import PipeScript.Syntax.Compile

namespace PipeScript

namespace Syntax

/-! ## The points at which arguments are read -/

/-- Reading arguments with the token `last` read and the given tokens ahead comes to another such
point. -/
inductive ArgumentsReach (stop : Span) : Token → List Token → Token → List Token → Prop
  | here (last : Token) (ts : List Token) : ArgumentsReach stop last ts last ts
  | colon {last t last' : Token} {rest ts : List Token} : endsArguments last t = false → t.isColon = true →
      ArgumentsReach stop t rest last' ts → ArgumentsReach stop last (t :: rest) last' ts
  | operand {last t last' : Token} {rest ts : List Token} : endsArguments last t = false → t.isColon = false →
      ArgumentsReach stop (operand stop t rest).last (operand stop t rest).rest last' ts →
      ArgumentsReach stop last (t :: rest) last' ts

/-- Reading statements comes to a point among the arguments of a call: of one that is a statement, or
that is the value of an assignment. -/
inductive StatementsReach (stop : Span) : List Token → Token → List Token → Prop
  | call {t last : Token} {rest ts : List Token} : t.kind = .pipe → ArgumentsReach stop t rest last ts →
      StatementsReach stop (t :: rest) last ts
  | assigned {t p last : Token} {rest rest' ts : List Token} : t.kind = .assign →
      (skipColon (name stop '&' t rest).last (name stop '&' t rest).rest).2 = p :: rest' → p.kind = .pipe →
      ArgumentsReach stop p rest' last ts → StatementsReach stop (t :: rest) last ts
  | later {t last : Token} {rest ts : List Token} : StatementsReach stop (statement stop t rest).rest last ts →
      StatementsReach stop (t :: rest) last ts

/-! ## The token read last is the one before -/

variable {stop : Span} {last last' : Token} {ts rest : List Token}

theorem ArgumentsReach.suffix (h : ArgumentsReach stop last ts last' rest) : last' :: rest <:+ last :: ts := by
  induction h with
  | here => exact List.suffix_rfl
  | colon _ _ _ ih => exact ih.trans (List.suffix_cons _ _)
  | operand _ _ _ ih => exact (ih.trans (operand_suffix stop _ _)).trans (List.suffix_cons _ _)

theorem StatementsReach.suffix (h : StatementsReach stop ts last rest) : last :: rest <:+ ts := by
  induction h with
  | call _ hargs => exact hargs.suffix
  | assigned _ hvalue _ hargs =>
    exact hargs.suffix.trans (hvalue ▸ value_suffix stop _ _)
  | later _ ih => exact ih.trans (statement_suffix stop _ _)

end Syntax

/-! ## Sources -/

/-- Reading the source comes to a point among the arguments of a call, `last` being the token read
last and `ts` the tokens ahead. -/
def ReadsArguments (source : String) (last : Token) (ts : List Token) : Prop :=
  Syntax.StatementsReach (endSpan (lex source).tokens) ((lex source).tokens.takeWhile (·.kind != .eof)) last ts

/-- The tokens of a source before the mark of its end. -/
theorem takeWhile_tokens_lex (source : String) : (lex source).tokens.takeWhile (·.kind != .eof) =
    Lexeme.tokensAt .start (Lexeme.scan source.toList) :=
  takeWhile_append_eof rfl fun _ ht => Lexeme.kind_ne_eof_of_scan ht

/-- Where reading the arguments of a call comes to the mark of a variable, the mark ends them exactly
when a line break lies after the first character of the token before it. So it does what a line break
between the two tokens tells, unless the token before is a string with a line break in it and no
other follows. -/
theorem arguments_at_variable {source : String} {last t : Token} {ts : List Token}
    (hat : ReadsArguments source last (t :: ts)) (ht : t.kind = .variable) :
    ∃ front lexeme gap back, source.toList = front ++ lexeme ++ gap ++ '!' :: back ∧
      last.span = Span.start.after front ∧ t.span = Span.start.after (front ++ lexeme ++ gap) ∧
      (∃ l ∈ Lexeme.scan source.toList, l.text = lexeme ∧ l.token? last.span = some last) ∧
      ('\n' ∈ lexeme → last.kind = .string) ∧
      ∀ stop, Syntax.arguments stop last (t :: ts) =
        if '\n' ∈ lexeme ∨ '\n' ∈ gap then ⟨[], [], last, t :: ts⟩
        else
          let read := Syntax.name stop '!' t ts
          let others := Syntax.arguments stop read.last read.rest
          ⟨.variable read.value :: others.value, read.notes ++ others.notes, others.last, others.rest⟩ := by
  have hsuffix := hat.suffix
  rw [takeWhile_tokens_lex] at hsuffix
  obtain ⟨before, htokens⟩ := hsuffix
  obtain ⟨front, gap, back, l, hl, hsource, hlast, hspan, htoken, hline⟩ :=
    Lexeme.exists_text_of_adjacent htokens.symm ht
  refine ⟨front, l.text, gap, back, hsource, hlast, hspan, ⟨l, hl, rfl, htoken⟩,
    Lexeme.kind_eq_string_of_newline hl htoken, fun stop => ?_⟩
  have hends : Syntax.endsArguments last t = true ↔ '\n' ∈ l.text ∨ '\n' ∈ gap := by
    simp only [Syntax.endsArguments, ht, decide_eq_true_eq]
    exact hline
  have hcolon : t.isColon = false := by simp [Token.isColon, ht]
  rw [Syntax.arguments]
  by_cases hbreak : '\n' ∈ l.text ∨ '\n' ∈ gap
  · rw [if_pos hbreak, if_pos (hends.2 hbreak)]
  · rw [if_neg hbreak, if_neg fun he => hbreak (hends.1 he), if_neg (by simp [hcolon])]
    simp only [Syntax.operand, ht]

/-- A call with a string over two lines and a number as its arguments so far, and a variable. -/
def afterNumber : String :=
  "|f:\"a\nb\":1 !x"

theorem lex_afterNumber : lex afterNumber =
    ⟨[⟨.pipe, "f", ⟨1, 1⟩⟩, ⟨.symbol, ":", ⟨1, 3⟩⟩, ⟨.string, "a\nb", ⟨1, 4⟩⟩, ⟨.symbol, ":", ⟨2, 3⟩⟩,
      ⟨.number, "1", ⟨2, 4⟩⟩, ⟨.variable, "", ⟨2, 6⟩⟩, ⟨.identifier, "x", ⟨2, 7⟩⟩, ⟨.eof, "", ⟨2, 8⟩⟩], []⟩ := by
  decide +kernel

theorem arguments_afterNumber :
    ReadsArguments afterNumber ⟨.number, "1", ⟨2, 4⟩⟩ [⟨.variable, "", ⟨2, 6⟩⟩, ⟨.identifier, "x", ⟨2, 7⟩⟩] ∧
      ∃ front lexeme gap back, afterNumber.toList = front ++ lexeme ++ gap ++ '!' :: back ∧
        (⟨2, 4⟩ : Span) = Span.start.after front ∧ (⟨2, 6⟩ : Span) = Span.start.after (front ++ lexeme ++ gap) ∧
        ∀ stop, Syntax.arguments stop ⟨.number, "1", ⟨2, 4⟩⟩
            [⟨.variable, "", ⟨2, 6⟩⟩, ⟨.identifier, "x", ⟨2, 7⟩⟩] =
          if '\n' ∈ lexeme ∨ '\n' ∈ gap then
            ⟨[], [], ⟨.number, "1", ⟨2, 4⟩⟩, [⟨.variable, "", ⟨2, 6⟩⟩, ⟨.identifier, "x", ⟨2, 7⟩⟩]⟩
          else
            let others := Syntax.arguments stop ⟨.identifier, "x", ⟨2, 7⟩⟩ []
            ⟨.variable "x" :: others.value, others.notes, others.last, others.rest⟩ := by
  have hat : ReadsArguments afterNumber ⟨.number, "1", ⟨2, 4⟩⟩
      [⟨.variable, "", ⟨2, 6⟩⟩, ⟨.identifier, "x", ⟨2, 7⟩⟩] := by
    rw [ReadsArguments, lex_afterNumber]
    exact .call rfl (.colon rfl rfl (.operand rfl rfl (.colon rfl rfl (.operand rfl rfl (.here _ _)))))
  obtain ⟨front, lexeme, gap, back, hsource, hlast, ht, -, -, hread⟩ := arguments_at_variable hat rfl
  exact ⟨hat, front, lexeme, gap, back, hsource, hlast, ht, hread⟩

/-- A call with a string over two lines as its argument, and a variable on the line where the string
is closed. -/
def afterString : String :=
  "|f:\"a\nb\" !x"

theorem lex_afterString : lex afterString =
    ⟨[⟨.pipe, "f", ⟨1, 1⟩⟩, ⟨.symbol, ":", ⟨1, 3⟩⟩, ⟨.string, "a\nb", ⟨1, 4⟩⟩, ⟨.variable, "", ⟨2, 4⟩⟩,
      ⟨.identifier, "x", ⟨2, 5⟩⟩, ⟨.eof, "", ⟨2, 6⟩⟩], []⟩ := by
  decide +kernel

/-- There is only a blank between the closing quote and the mark of the variable, and still the mark
ends the arguments: the variable is a statement of its own. -/
theorem arguments_afterString :
    ReadsArguments afterString ⟨.string, "a\nb", ⟨1, 4⟩⟩ [⟨.variable, "", ⟨2, 4⟩⟩, ⟨.identifier, "x", ⟨2, 5⟩⟩] ∧
      afterString.toList = ['|', 'f', ':'] ++ ['"', 'a', '\n', 'b', '"'] ++ [' '] ++ ['!', 'x'] ∧
      (∀ stop, Syntax.arguments stop ⟨.string, "a\nb", ⟨1, 4⟩⟩
          [⟨.variable, "", ⟨2, 4⟩⟩, ⟨.identifier, "x", ⟨2, 5⟩⟩] =
        ⟨[], [], ⟨.string, "a\nb", ⟨1, 4⟩⟩, [⟨.variable, "", ⟨2, 4⟩⟩, ⟨.identifier, "x", ⟨2, 5⟩⟩]⟩) ∧
      parseSource afterString = [.call "f" [.literal (.string "a\nb")], .variable "x"] := by
  refine ⟨?_, by decide, fun stop => ?_, ?_⟩
  · rw [ReadsArguments, lex_afterString]
    exact .call rfl (.colon rfl rfl (.operand rfl rfl (.here _ _)))
  · rw [Syntax.arguments]
    rfl
  · rw [parseSource, lex_afterString]
    simp [parse, Syntax.statements, Syntax.statement, Syntax.expression, Syntax.call, Syntax.arguments,
      Syntax.operand, Syntax.name, Syntax.endsArguments, Token.isColon]

end PipeScript
