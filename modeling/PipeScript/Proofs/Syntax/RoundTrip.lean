/-
What is written is read back. Arguments and statements are read from their own tokens, one after the
other; what keeps them apart are the lines. Each token of a statement stands on a line of that
statement, so a variable that opens the next line stands below them all and ends the arguments, while
one that is an argument stands on the line of the colon before it.
-/
import PipeScript.Proofs.Syntax.Parser
import PipeScript.Proofs.Syntax.Writer
import PipeScript.Syntax.Compile

namespace PipeScript

open Lexeme

/-! ## Operands -/

/-- A token with which an argument begins: it neither ends the arguments nor separates them. -/
structure Token.OpensArgument (t : Token) : Prop where
  not_ends : ∀ last : Token, t.span.line ≤ last.span.line → Syntax.endsArguments last t = false
  not_colon : t.isColon = false
  not_pipe : t.kind ≠ .pipe
  not_assign : t.kind ≠ .assign

/-- The node is read from its own tokens, the first of which stands at the place `s`, and the last on
no line after the text of the node. -/
def Node.ReadAt (a : Node) (s : Span) : Prop :=
  ∃ t ts, tokensAt s a.lexemes = t :: ts ∧ t.span = s ∧ t.OpensArgument ∧ ∀ stop rest, ∃ last,
    Syntax.operand stop t (ts ++ rest) = ⟨a, [], last, rest⟩ ∧ last.span.line ≤ (s.after a.written).line

theorem opensArgument_of_kind {kind : TokenKind} (hkind : kind ∈ [.string, .number, .keyword])
    (slice : String) (s : Span) : Token.OpensArgument ⟨kind, slice, s⟩ := by
  simp only [List.mem_cons, List.not_mem_nil, or_false] at hkind
  rcases hkind with rfl | rfl | rfl <;> exact ⟨fun _ _ => rfl, rfl, by simp, by simp⟩

theorem Literal.readAt_of_token {l : Literal} {text slice : List Char} {kind : TokenKind}
    (hkind : kind ∈ [.string, .number, .keyword]) (hlexemes : l.lexemes = [⟨text, .token kind slice⟩])
    (hread : ∀ s stop rest, Syntax.operand stop ⟨kind, String.ofList slice, s⟩ rest =
      ⟨.literal l, [], ⟨kind, String.ofList slice, s⟩, rest⟩) (s : Span) : (Node.literal l).ReadAt s := by
  refine ⟨⟨kind, String.ofList slice, s⟩, [], ?_, rfl, opensArgument_of_kind hkind _ s, fun stop rest => ?_⟩
  · rw [Node.lexemes, hlexemes]
    rfl
  · exact ⟨_, hread s stop rest, s.line_le_after _⟩

theorem Literal.readAt {l : Literal} (hl : l.Writable) (s : Span) : (Node.literal l).ReadAt s := by
  match l, hl with
  | .null, _ => exact readAt_of_token (by decide) rfl (fun _ _ _ => rfl) s
  | .boolean true, _ => exact readAt_of_token (by decide) rfl (fun _ _ _ => rfl) s
  | .boolean false, _ => exact readAt_of_token (by decide) rfl (fun _ _ _ => rfl) s
  | .string value, _ =>
    refine readAt_of_token (by decide) rfl (fun s stop rest => ?_) s
    rw [String.ofList_toList]
    rfl
  | .integer n, hn =>
    by_cases hneg : n.toInt < 0
    · obtain ⟨m, hm, hopposite⟩ := ofNumber?_of_neg hneg hn
      let sign : Token := ⟨.symbol, "-", s⟩
      let number : Token := ⟨.number, String.ofList (Text.digitsOf n.toInt.natAbs), s.next '-'⟩
      have hopens : sign.OpensArgument := ⟨fun _ _ => rfl, by simp [Token.isColon, sign], nofun, nofun⟩
      refine ⟨sign, [number], ?_, rfl, hopens, fun stop rest => ⟨number, ?_, ?_⟩⟩
      · rw [Node.lexemes, lexemes, if_pos hneg]
        rfl
      · simp [Syntax.operand, Syntax.number, sign, number, hm, hopposite]
      · rw [Node.written, written, Integer.text, if_pos hneg]
        exact (s.next '-').line_le_after _
    · have hnumber := ofNumber?_of_nonneg (Int.not_lt.1 hneg)
      have hlexemes : (Literal.integer n).lexemes = [run .number (Text.digitsOf n.toInt.natAbs)] := by
        rw [lexemes, if_neg hneg]
        rfl
      refine readAt_of_token (by decide) hlexemes (fun s stop rest => ?_) s
      simp [Syntax.operand, Syntax.number, hnumber]

theorem Node.Operand.readAt {a : Node} (ha : a.Operand) (s : Span) : a.ReadAt s := by
  cases ha with
  | ofLiteral hl => exact Literal.readAt hl s
  | @ofVariable name hname =>
    let mark : Token := ⟨.variable, "", s⟩
    let word : Token := ⟨.identifier, String.ofList name.toList, s.next '!'⟩
    have hopens : mark.OpensArgument := by
      refine ⟨fun last hline => ?_, by simp [Token.isColon, mark], nofun, nofun⟩
      simpa [Syntax.endsArguments, mark] using hline
    refine ⟨mark, [word], rfl, rfl, hopens, fun stop rest => ⟨word, ?_, ?_⟩⟩
    · simp [Syntax.operand, Syntax.name, mark, word]
    · exact (s.next '!').line_le_after _

/-! ## Arguments -/

/-- The tokens end the arguments of a call of which the last token stands on the given line or above. -/
def EndArguments (line : Nat) (ts : List Token) : Prop :=
  ∀ t ∈ ts.head?, ∀ last : Token, last.span.line ≤ line → Syntax.endsArguments last t = true

theorem arguments_eq_nil {line : Nat} {last : Token} {rest : List Token} (hrest : EndArguments line rest)
    (hlast : last.span.line ≤ line) (stop : Span) :
    Syntax.arguments stop last rest = ⟨[], [], last, rest⟩ := by
  cases rest with
  | nil => rw [Syntax.arguments]
  | cons t rest => rw [Syntax.arguments, if_pos (hrest t rfl last hlast)]

/-- A colon and an argument are read as one more argument. -/
theorem arguments_cons {stop : Span} {last colon t first : Token} {ts rest : List Token} {a : Node}
    (hcolon : colon = ⟨.symbol, ":", colon.span⟩) (ht : t.OpensArgument)
    (hline : t.span.line ≤ colon.span.line)
    (hread : Syntax.operand stop t (ts ++ rest) = ⟨a, [], first, rest⟩) :
    Syntax.arguments stop last (colon :: t :: ts ++ rest) =
      let others := Syntax.arguments stop first rest
      ⟨a :: others.value, others.notes, others.last, others.rest⟩ := by
  have hends : Syntax.endsArguments last colon = false := by rw [hcolon]; rfl
  have hsep : colon.isColon = true := by rw [hcolon]; rfl
  rw [List.cons_append, List.cons_append, Syntax.arguments, if_neg (by rw [hends]; decide), if_pos hsep,
    Syntax.arguments, if_neg (by rw [ht.not_ends colon hline]; decide), if_neg (by rw [ht.not_colon]; decide),
    hread]
  rfl

theorem arguments_written {args : List Node} (hargs : ∀ a ∈ args, a.Operand) {s : Span} {last : Token}
    (hlast : last.span.line ≤ s.line) (stop : Span) {rest : List Token}
    (hrest : EndArguments (s.after (Node.argumentsWritten args)).line rest) :
    ∃ last', Syntax.arguments stop last (tokensAt s (Node.argumentsLexemes args) ++ rest) =
      ⟨args, [], last', rest⟩ := by
  induction args generalizing s last with
  | nil => exact ⟨last, arguments_eq_nil hrest hlast stop⟩
  | cons a args ih =>
    rw [List.forall_mem_cons] at hargs
    obtain ⟨t, ts, htokens, hspan, hopens, hread⟩ := hargs.1.readAt (s.next ':')
    obtain ⟨first, hfirst, hline⟩ := hread stop
      (tokensAt ((s.next ':').after a.written) (Node.argumentsLexemes args) ++ rest)
    have hafter : s.after (Node.argumentsWritten (a :: args)) =
        ((s.next ':').after a.written).after (Node.argumentsWritten args) := by
      rw [Node.argumentsWritten, Span.after_cons, Span.after_append]
    -- the next colon comes after `first`, which stands on the line where this argument ends or above
    obtain ⟨last', hothers⟩ := ih hargs.2 hline (hafter ▸ hrest)
    have hall : tokensAt s (Node.argumentsLexemes (a :: args)) = ⟨.symbol, ":", s⟩ :: t :: ts ++
        tokensAt ((s.next ':').after a.written) (Node.argumentsLexemes args) := by
      rw [Node.argumentsLexemes, run, tokensAt_token, tokensAt_append, hargs.1.flatMap_text]
      rw [show s.after [':'] = s.next ':' from rfl, htokens]
      rfl
    refine ⟨last', ?_⟩
    rw [hall, List.append_assoc, arguments_cons rfl hopens (by rw [hspan]; exact Nat.le_refl _) hfirst, hothers]

/-! ## Statements -/

theorem Node.Expression.read {a : Node} (ha : a.Expression) (s stop : Span) {rest : List Token}
    (hrest : a.endsInCall → EndArguments (s.after a.written).line rest) :
    ∃ t ts last, tokensAt s a.lexemes = t :: ts ∧ t.kind ≠ .assign ∧
      Syntax.expression stop t (ts ++ rest) = ⟨a, [], last, rest⟩ := by
  cases ha with
  | operand ha =>
    obtain ⟨t, ts, htokens, -, hopens, hread⟩ := ha.readAt s
    obtain ⟨last, hlast, -⟩ := hread stop rest
    refine ⟨t, ts, last, htokens, hopens.not_assign, ?_⟩
    rw [Syntax.expression, if_neg hopens.not_pipe, hlast]
  | @call name args hname hargs =>
    let pipe : Token := ⟨.pipe, String.ofList name.toList, s⟩
    let s' := s.after ('|' :: name.toList)
    have hafter : s.after (Node.call name args).written = s'.after (Node.argumentsWritten args) := by
      rw [written, ← List.cons_append, Span.after_append]
    have hline : pipe.span.line ≤ s'.line := s.line_le_after _
    obtain ⟨last, hlast⟩ := arguments_written hargs hline stop (hafter ▸ hrest rfl)
    refine ⟨pipe, tokensAt s' (Node.argumentsLexemes args), last, rfl, by simp [pipe], ?_⟩
    have hslice : pipe.slice = name := String.ofList_toList
    rw [Syntax.expression, if_pos rfl, Syntax.call, hlast, hslice]

theorem Node.Statement.read {a : Node} (ha : a.Statement) (s stop : Span) {rest : List Token}
    (hrest : a.endsInCall → EndArguments (s.after a.written).line rest) :
    ∃ t ts last, tokensAt s a.lexemes = t :: ts ∧
      Syntax.statement stop t (ts ++ rest) = ⟨a, [], last, rest⟩ := by
  cases ha with
  | expression ha =>
    obtain ⟨t, ts, last, htokens, hkind, hread⟩ := ha.read s stop hrest
    refine ⟨t, ts, last, htokens, ?_⟩
    rw [Syntax.statement, if_neg hkind, hread]
  | @assign name value hname hvalue =>
    let mark : Token := ⟨.assign, "", s⟩
    let word : Token := ⟨.identifier, String.ofList name.toList, s.next '&'⟩
    let colon : Token := ⟨.symbol, ":", (s.next '&').after name.toList⟩
    let s' := colon.span.next ':'
    have hafter : s.after (Node.assign name value).written = s'.after value.written := by
      rw [written, Span.after_cons, Span.after_append, Span.after_cons]
    obtain ⟨t, ts, last, htokens, -, hread⟩ := hvalue.read s' stop fun hcall => hafter ▸ hrest hcall
    have hall : tokensAt s (Node.assign name value).lexemes = mark :: word :: colon :: t :: ts := by
      rw [← htokens]
      rfl
    have hslice : word.slice = name := String.ofList_toList
    have hword : Syntax.name stop '&' mark (word :: colon :: (t :: ts ++ rest)) =
        ⟨name, [], word, colon :: (t :: ts ++ rest)⟩ := by
      rw [Syntax.name, if_pos rfl, hslice]
    have hcolon : Syntax.skipColon word (colon :: (t :: ts ++ rest)) = (colon, t :: ts ++ rest) := by
      rw [Syntax.skipColon, if_pos (by simp [Token.isColon, colon])]
    refine ⟨mark, word :: colon :: t :: ts, last, hall, ?_⟩
    rw [Syntax.statement, if_pos rfl, Syntax.assignment]
    simp only [List.cons_append] at hword hcolon ⊢
    simp only [hword, hcolon, Syntax.assigned, hread]
    rfl

/-- A statement that is no bare literal ends the arguments of the calls above it. -/
theorem Node.Statement.endArguments {a : Node} (ha : a.Statement) (hl : ¬a.isLiteral) {s : Span}
    {line : Nat} (hline : line < s.line) (rest : List Token) :
    EndArguments line (tokensAt s a.lexemes ++ rest) := by
  rcases ha with ((hl' | _) | _) | _
  · exact absurd rfl hl
  · rintro t ⟨⟩ last hlast
    simp only [Syntax.endsArguments, decide_eq_true_eq]
    omega
  · rintro t ⟨⟩ last hlast
    rfl
  · rintro t ⟨⟩ last hlast
    rfl

/-! ## Scripts -/

theorem tokensAt_cons_statement {a : Node} (ha : a.Statement) (p : Program) (s : Span) :
    tokensAt s (Program.lexemes (a :: p)) =
      tokensAt s a.lexemes ++ tokensAt ((s.after a.written).next '\n') (Program.lexemes p) := by
  rw [Program.lexemes, List.flatMap_cons, List.append_assoc, List.singleton_append, tokensAt_append,
    tokensAt_blank, ha.flatMap_text]
  rfl

/-- What follows a statement that ends in a call ends the arguments of that call. -/
theorem endArguments_of_apart {a : Node} {p : Program} (hp : Program.Writable (a :: p)) (s : Span)
    (hcall : a.endsInCall) : EndArguments (s.after a.written).line
      (tokensAt ((s.after a.written).next '\n') (Program.lexemes p)) := by
  cases p with
  | nil => exact fun t ht => nomatch ht
  | cons b p =>
    have hb : b.Statement := hp.statements b (List.mem_cons_of_mem _ List.mem_cons_self)
    have hl : ¬b.isLiteral := (List.isChain_cons_cons.1 hp.apart).1 hcall
    rw [tokensAt_cons_statement hb]
    -- the line feed puts `b` below the last line of `a`
    exact hb.endArguments hl (Nat.lt_succ_self _) _

theorem statements_written {p : Program} (hp : p.Writable) (s stop : Span) :
    Syntax.statements stop (tokensAt s (Program.lexemes p)) = (p, []) := by
  -- on the statements, each read from its own tokens; the place moves on with the text
  induction p generalizing s with
  | nil => rw [Syntax.statements.eq_def]; rfl
  | cons a p ih =>
    have ha : a.Statement := hp.statements a List.mem_cons_self
    have hp' : Program.Writable p := ⟨fun b hb => hp.statements b (List.mem_cons_of_mem _ hb), hp.apart.tail⟩
    obtain ⟨t, ts, last, htokens, hread⟩ := ha.read s stop (endArguments_of_apart hp s)
    rw [tokensAt_cons_statement ha, htokens, List.cons_append, Syntax.statements, hread]
    simp only
    rw [ih hp']
    rfl

theorem lex_source {p : Program} (hp : p.Writable) : lex p.source =
    ⟨tokensAt .start (Program.lexemes p) ++ [⟨.eof, "", Span.start.after (Program.written p)⟩], []⟩ := by
  show Lexed.mk (tokensAt .start (scan p.source.toList) ++ [⟨.eof, "", Span.start.after p.source.toList⟩])
    (diagnosticsAt .start (scan p.source.toList)) = _
  rw [Program.source, String.toList_ofList, Program.scan_written hp.statements,
    diagnosticsAt_plain (Program.plain p)]

theorem parse_written {p : Program} (hp : p.Writable) (stop : Span) :
    parse (tokensAt .start (Program.lexemes p) ++ [⟨.eof, "", stop⟩]) = ⟨p, []⟩ := by
  rw [parse_append_eof rfl fun t ht => kind_ne_eof_of_plain (Program.plain p) ht, statements_written hp]

/-- What is written for a script is read back as that script, and nothing about it has to be recovered. -/
theorem compile_source {p : Program} (hp : p.Writable) :
    compile true p.source = .ok p ∧ recoveries p.source = [] := by
  have hnone : recoveries p.source = [] := by
    rw [recoveries, lex_source hp, parse_written hp]
    rfl
  refine ⟨?_, hnone⟩
  unfold compile
  rw [hnone, parseSource, lex_source hp, parse_written hp]

/-- A string over two lines, with a quote and a backslash, and a call with it before a variable. -/
def twoLines : Program :=
  [.assign "x" (.literal (.string "a\"b\\\nc")),
    .call "add-all" [.literal (.integer (-5)), .variable "x", .literal (.string "\n")], .variable "x"]

example : twoLines.source = "&x:\"a\\\"b\\\\\nc\"\n|add-all:-5:!x:\"\n\"\n!x\n" := by decide +kernel

theorem compile_twoLines :
    twoLines.Writable ∧ compile true twoLines.source = .ok twoLines ∧ recoveries twoLines.source = [] := by
  have hx : IsName "x" := by decide
  have hcall : ∀ a ∈ [Node.literal (.integer (-5)), .variable "x", .literal (.string "\n")], a.Operand := by
    rintro a (_ | ⟨_, _ | ⟨_, _ | ⟨_, ⟨⟩⟩⟩⟩)
    · exact .ofLiteral (by decide)
    · exact .ofVariable hx
    · exact .ofLiteral trivial
  have hp : twoLines.Writable := by
    refine ⟨?_, by decide⟩
    rintro s (_ | ⟨_, _ | ⟨_, _ | ⟨_, ⟨⟩⟩⟩⟩)
    · exact .assign hx (.operand (.ofLiteral trivial))
    · exact .expression (.call (List.all_eq_true.1 (by decide)) hcall)
    · exact .expression (.operand (.ofVariable hx))
  exact ⟨hp, compile_source hp⟩

end PipeScript
