/-
Scripts that are put together from two, the second one below the first. Reading looks at the lines of
tokens only to compare them, so a script further down is read as it would be at the top. And the end
of a script of which nothing had to be recovered leaves nothing open that a call, an assignment or a
variable on a later line could go on with: where the end of the source closes the arguments of the
last call, each of these closes them, too.
-/
import PipeScript.Proofs.Syntax.Derivation
import PipeScript.Proofs.Token.Joined
import PipeScript.Syntax.Compile

namespace PipeScript

/-- The reading some lines further down. -/
def Reading.down {α : Type} (k : Nat) (r : Reading α) : Reading α :=
  ⟨r.value, r.notes.map (Diagnostic.down k), r.last.down k, r.rest.map (Token.down k)⟩

namespace Syntax

/-! ## Reading further down -/

variable (k : Nat) (stop : Span) (t last : Token) (ts rest : List Token)

theorem number_down : number (t.down k) = ((number t).1, (number t).2.map (Diagnostic.down k)) := by
  have hslice : (t.down k).slice = t.slice := rfl
  unfold number
  rw [hslice]
  cases Literal.ofNumber? t.slice.toList <;> rfl

theorem name_down (mark : Char) :
    name (stop.down k) mark (t.down k) (ts.map (Token.down k)) = (name stop mark t ts).down k := by
  cases ts with
  | nil => rfl
  | cons u ts =>
    have hkind : (u.down k).kind = u.kind := rfl
    simp only [List.map_cons, name, hkind]
    split <;> rfl

theorem operand_down : operand (stop.down k) (t.down k) (rest.map (Token.down k)) =
    (operand stop t rest).down k := by
  have hkind (t : Token) : (t.down k).kind = t.kind := rfl
  have hslice : (t.down k).slice = t.slice := rfl
  cases hk : t.kind <;>
    simp only [operand, hkind, hslice, hk, reduceCtorEq, false_and, true_and, if_false, number_down, name_down]
  case symbol =>
    by_cases hminus : t.slice = "-"
    · cases rest with
      | nil => simp [hminus, Reading.down]
      | cons u rest =>
        by_cases hu : u.kind = .number <;> simp [hminus, Reading.down, hkind, hu, number_down]
    · simp [hminus, Reading.down, Diagnostic.down, Token.down]
  all_goals rfl

theorem endsArguments_down : endsArguments (last.down k) (t.down k) = endsArguments last t := by
  have hkind : (t.down k).kind = t.kind := rfl
  have hline (t : Token) : (t.down k).span.line = t.span.line + k := rfl
  simp only [endsArguments, hkind, hline, Nat.add_lt_add_iff_right]

theorem isColon_down : (t.down k).isColon = t.isColon := rfl

theorem arguments_down : arguments (stop.down k) (last.down k) (ts.map (Token.down k)) =
    (arguments stop last ts).down k := by
  fun_induction arguments stop last ts with
  | case1 => rw [List.map_nil, arguments.eq_def]; rfl
  | case2 last t rest hends =>
    rw [List.map_cons, arguments, endsArguments_down, if_pos hends]
    rfl
  | case3 last t rest hends hcolon ih =>
    rw [List.map_cons, arguments, endsArguments_down, if_neg hends, isColon_down, if_pos hcolon, ih]
  | case4 last t rest hends hcolon first others ih =>
    have hfirst : operand (stop.down k) (t.down k) (rest.map (Token.down k)) = first.down k :=
      operand_down k stop t rest
    have hothers : arguments (stop.down k) (first.down k).last (first.down k).rest = others.down k := ih
    rw [List.map_cons, arguments, endsArguments_down, if_neg hends, isColon_down, if_neg hcolon, hfirst]
    simp only [hothers]
    simp [Reading.down]

theorem expression_down : expression (stop.down k) (t.down k) (rest.map (Token.down k)) =
    (expression stop t rest).down k := by
  have hkind : (t.down k).kind = t.kind := rfl
  simp only [expression, call, hkind, arguments_down, operand_down]
  split <;> rfl

theorem assigned_down : assigned (stop.down k) (last.down k) (ts.map (Token.down k)) =
    (assigned stop last ts).down k := by
  cases ts with
  | nil => rfl
  | cons t ts => exact expression_down k stop t ts

theorem skipColon_down : skipColon (last.down k) (ts.map (Token.down k)) =
    ((skipColon last ts).1.down k, (skipColon last ts).2.map (Token.down k)) := by
  cases ts with
  | nil => rfl
  | cons t ts => by_cases ht : t.isColon = true <;> simp [skipColon, isColon_down, ht]

theorem assignment_down : assignment (stop.down k) (t.down k) (rest.map (Token.down k)) =
    (assignment stop t rest).down k := by
  simp only [assignment, name_down]
  simp only [Reading.down, skipColon_down, assigned_down, List.map_append]

theorem statement_down : statement (stop.down k) (t.down k) (rest.map (Token.down k)) =
    (statement stop t rest).down k := by
  have hkind : (t.down k).kind = t.kind := rfl
  simp only [statement, hkind, assignment_down, expression_down]
  split <;> rfl

/-- Further down, the same statements are read and the same recoveries are made. -/
theorem statements_down : statements (stop.down k) (ts.map (Token.down k)) =
    ((statements stop ts).1, (statements stop ts).2.map (Diagnostic.down k)) := by
  fun_induction statements stop ts with
  | case1 => rw [List.map_nil, statements.eq_def]; rfl
  | case2 t rest first others ih =>
    have hfirst : statement (stop.down k) (t.down k) (rest.map (Token.down k)) = first.down k :=
      statement_down k stop t rest
    have hothers : statements (stop.down k) (first.down k).rest = (others.1, others.2.map (Diagnostic.down k)) := ih
    rw [List.map_cons, statements, hfirst]
    simp only [hothers, List.map_append]
    rfl

end Syntax

/-! ## Nothing is left open -/

namespace Grammar

variable {next next' last : Token}

theorem Operand.Derives.before {o : Operand} (ho : o.Derives next) (hnumber : next'.kind ≠ .number) :
    o.Derives next' := by
  cases o with
  | minus t => exact ⟨ho.1, hnumber⟩
  | _ => exact ho

theorem Argument.last_mem (a : Argument) : a.last ∈ a.tokens := by
  rcases a with t | o
  · exact List.mem_singleton_self t
  · cases o <;> simp [last, tokens, first, others, Operand.last, Operand.first, Operand.others]

theorem Argument.Derives.before {a : Argument} (ha : a.Derives next) (hnumber : next'.kind ≠ .number) :
    a.Derives next' := by
  cases a with
  | colon t => exact ha
  | operand o => exact Operand.Derives.before ha hnumber

/-- What goes with the first of some tokens, or else with `next`, goes with `next'` instead of that. -/
theorem headD_imp {P : Token → Prop} {ts : List Token} (hts : P (ts.headD next)) (h : P next → P next') :
    P (ts.headD next') := by
  cases ts with
  | nil => exact h hts
  | cons t ts => exact hts

theorem ArgumentsDerive.before {args : List Argument} (h : ArgumentsDerive next last args)
    (hnumber : next'.kind ≠ .number) (hcloses : ∀ t ∈ last :: argumentTokens args, Closes t next') :
    ArgumentsDerive next' last args := by
  induction args generalizing last with
  | nil => exact hcloses last List.mem_cons_self
  | cons a args ih =>
    obtain ⟨hopen, ha, h⟩ := h
    have htokens : argumentTokens (a :: args) = a.tokens ++ argumentTokens args := List.flatMap_cons
    rw [htokens, List.forall_mem_cons, List.forall_mem_append] at hcloses
    exact ⟨hopen, headD_imp (P := (a.Derives ·)) ha fun ha => ha.before hnumber,
      ih h (List.forall_mem_cons.2 ⟨hcloses.2.1 _ a.last_mem, hcloses.2.2⟩)⟩

theorem Expression.Derives.before {e : Expression} (he : e.Derives next) (hnumber : next'.kind ≠ .number)
    (hcloses : ∀ t ∈ e.first :: e.others, Closes t next') : e.Derives next' := by
  cases e with
  | operand o => exact Operand.Derives.before he hnumber
  | call t args => exact ⟨he.1, he.2.before hnumber hcloses⟩

theorem Statement.Derives.before {s : Statement} (hs : s.Derives next) (hnumber : next'.kind ≠ .number)
    (hcloses : ∀ t ∈ s.tokens, Closes t next') : s.Derives next' := by
  cases s with
  | expression e => exact Expression.Derives.before hs hnumber hcloses
  | assign mark name colon value =>
    obtain ⟨hmark, hname, hcolon, hvalue⟩ := hs
    refine ⟨hmark, hname, hcolon, hvalue.before hnumber fun t ht => hcloses t ?_⟩
    exact List.mem_cons_of_mem _ (List.mem_cons_of_mem _ (List.mem_append_right _ ht))

/-- Statements before `next` are statements before any other token that is no number and closes the
arguments of calls. -/
theorem StatementsDerive.before {ss : List Statement} (h : StatementsDerive next ss)
    (hnumber : next'.kind ≠ .number) (hcloses : ∀ t ∈ statementTokens ss, Closes t next') :
    StatementsDerive next' ss := by
  induction ss with
  | nil => trivial
  | cons s ss ih =>
    have htokens : statementTokens (s :: ss) = s.tokens ++ statementTokens ss := List.flatMap_cons
    rw [htokens, List.forall_mem_append] at hcloses
    exact ⟨headD_imp (P := (s.Derives ·)) h.1 fun hs => hs.before hnumber hcloses.1, ih h.2 hcloses.2⟩

end Grammar

/-! ## Both sources -/

open Lexeme

/-- The script of a source, read from the tokens before the mark of its end. -/
theorem parse_lex (source : String) :
    let read := Syntax.statements (Span.start.after source.toList) (tokensAt .start (scan source.toList))
    parse (lex source).tokens = ⟨read.1, read.2⟩ :=
  parse_append_eof rfl fun _ ht => kind_ne_eof_of_scan ht

/-- The source opens with a call, an assignment or a variable. -/
def Opens (source : String) : Prop :=
  ∃ t ∈ (lex source).tokens.head?, t.kind ∈ [TokenKind.pipe, .assign, .variable]

theorem Opens.tokens {source : String} (h : Opens source) :
    ∃ u us, tokensAt .start (scan source.toList) = u :: us ∧ u.kind ∈ [TokenKind.pipe, .assign, .variable] := by
  obtain ⟨u, hu, hkind⟩ := h
  have hhead : (tokensAt .start (scan source.toList) ++
    [(⟨.eof, "", Span.start.after source.toList⟩ : Token)]).head? = some u := hu
  cases htokens : tokensAt .start (scan source.toList) with
  | nil =>
    rw [htokens] at hhead
    obtain rfl := Option.some.inj hhead
    simp at hkind
  | cons v us =>
    rw [htokens] at hhead
    obtain rfl : v = u := Option.some.inj hhead
    exact ⟨v, us, rfl, hkind⟩

theorem Opens.parseSource_ne_nil {source : String} (h : Opens source) : parseSource source ≠ [] := by
  obtain ⟨u, us, htokens, -⟩ := h.tokens
  rw [parseSource, parse_lex, htokens, Syntax.statements]
  exact List.cons_ne_nil _ _

/-- What a call, an assignment or a variable on a later line comes after, it closes the arguments of. -/
theorem closes_of_line {last t : Token} (ht : t.kind ∈ [TokenKind.pipe, .assign, .variable])
    (hline : last.span.line < t.span.line) : Grammar.Closes last t := by
  simp only [List.mem_cons, List.not_mem_nil, or_false] at ht
  rcases ht with h | h | h
  · exact .inl h
  · exact .inr (.inl h)
  · exact .inr (.inr (.inr ⟨h, hline⟩))

/-- A source of which nothing has to be recovered is read as statements that any token on a later line
may follow with which a call, an assignment or a variable begins. -/
theorem exists_statements_of_recoveries {s : String} (hs : recoveries s = []) :
    (∀ l ∈ scan s.toList, ¬l.IsOpen) ∧ ∃ ss,
      Grammar.statementTokens ss = tokensAt .start (scan s.toList) ∧ parseSource s = ss.map Grammar.Statement.node ∧
      ∀ t : Token, t.kind ∈ [TokenKind.pipe, .assign, .variable] →
        (Span.start.after s.toList).line < t.span.line → Grammar.StatementsDerive t ss := by
  obtain ⟨hlexed, hparsed⟩ := List.append_eq_nil_iff.1 hs
  rw [parse_lex] at hparsed
  refine ⟨not_isOpen_of_diagnosticsAt hlexed, ?_⟩
  have hmark : (⟨.eof, "", Span.start.after s.toList⟩ : Token).kind = .eof := rfl
  obtain ⟨ss, htokens, hss⟩ := Grammar.exists_statements hmark hparsed
  refine ⟨ss, htokens, ?_, fun t ht hline => ?_⟩
  · rw [parseSource, parse_lex, ← htokens, hss.read_all]
  · refine hss.before (by rintro h; simp [h] at ht) fun last hlast => closes_of_line ht ?_
    rw [htokens] at hlast
    have hle := (line_of_mem_tokensAt hlast).2
    rw [flatMap_text_scan] at hle
    omega

/-- A source of which nothing has to be recovered, and below it one that opens with a call, an
assignment or a variable, make the script of the one followed by that of the other. -/
theorem parseSource_joined {s t : String} (hs : recoveries s = []) (ht : Opens t) :
    parseSource (s ++ "\n" ++ t) = parseSource s ++ parseSource t := by
  obtain ⟨hclosed, ss, htokens, hscript, hss⟩ := exists_statements_of_recoveries hs
  have htext : (s ++ "\n" ++ t).toList = s.toList ++ '\n' :: t.toList := by simp
  have hplace (cs : List Char) : Span.start.after (s.toList ++ '\n' :: cs) =
      (Span.start.after cs).down (s.toList.count '\n' + 1) := by
    rw [List.append_cons, Span.after_append, Span.start_after_line, Span.down_after]
  -- the tokens of the first source, and below them those of the second one
  have hwhole : tokensAt .start (scan (s ++ "\n" ++ t).toList) = Grammar.statementTokens ss ++
      (tokensAt .start (scan t.toList)).map (Token.down (s.toList.count '\n' + 1)) := by
    rw [htext, tokensAt_joined hclosed, htokens, Span.start_after_line, tokensAt_down]
  obtain ⟨u, us, hus, hkind⟩ := ht.tokens
  have hderive : Grammar.StatementsDerive
      (((u :: us).map (Token.down (s.toList.count '\n' + 1))).headD u) ss := by
    refine hss (u.down _) hkind ?_
    have hle := (line_of_mem_tokensAt (hus ▸ List.mem_cons_self : u ∈ tokensAt .start (scan t.toList))).1
    simp only [Span.start, Token.down, Span.down, Span.line_after] at hle ⊢
    omega
  have hread := hderive.read ((Span.start.after t.toList).down (s.toList.count '\n' + 1))
  rw [parseSource, parse_lex, hwhole, hscript, parseSource, parse_lex, htext, hplace, hus]
  simp only [hread, Syntax.statements_down]

end PipeScript
