/-
Reading and the grammar agree. What a derivation says of tokens, reading them finds: it gives the
node of the tree, recovers nothing, and stops where the tree ends, whatever comes after. Conversely,
where reading recovers nothing there is a derivation of what it read. Both go along the reading of
operands, arguments, expressions and statements; the token that follows is the first one that is
left over, and at the end of the script the mark of the end.
-/
import PipeScript.Proofs.Syntax.Grammar
import PipeScript.Proofs.Syntax.Parser

namespace PipeScript.Grammar

variable {mark last : Token} {rest : List Token}

/-! ## Derivations are read -/

theorem number_of_isNumber {t : Token} {value : Literal} (ht : IsNumber t value) :
    Syntax.number t = (value, []) := by
  rw [Syntax.number, ht.2]

theorem Operand.Derives.read {o : Operand} (ho : o.Derives (rest.headD mark)) (stop : Span) :
    Syntax.operand stop o.first (o.others ++ rest) = ⟨o.node, [], o.last, rest⟩ := by
  cases o with
  | string t => simp_all [Operand.Derives, Syntax.operand, first, others, node, last]
  | keyword t => simp_all [Operand.Derives, Syntax.operand, first, others, node, last]
  | word t => simp_all [Operand.Derives, Syntax.operand, first, others, node, last]
  | number t value =>
    simp [Syntax.operand, first, others, node, last, ho.1, number_of_isNumber ho]
  | lookup mark t => simp_all [Operand.Derives, Syntax.operand, Syntax.name, first, others, node, last]
  | negative sign t value =>
    obtain ⟨hsign, ht⟩ := ho
    simp [Syntax.operand, first, others, node, last, hsign.1, hsign.2, ht.1, number_of_isNumber ht]
  | minus sign =>
    obtain ⟨hsign, hnext⟩ := ho
    cases rest with
    | nil => simp [Syntax.operand, first, others, node, last, hsign.1, hsign.2]
    | cons t rest =>
      have ht : t.kind ≠ .number := hnext
      simp [Syntax.operand, first, others, node, last, hsign.1, hsign.2, ht]

theorem endsArguments_iff {t : Token} : Syntax.endsArguments last t = true ↔ Closes last t := by
  unfold Syntax.endsArguments Closes
  cases t.kind <;> simp

theorem ArgumentsDerive.read {args : List Argument} (h : ArgumentsDerive (rest.headD mark) last args)
    (stop : Span) : ∃ last', Syntax.arguments stop last (argumentTokens args ++ rest) =
      ⟨args.filterMap Argument.node?, [], last', rest⟩ := by
  induction args generalizing last with
  | nil =>
    refine ⟨last, ?_⟩
    cases rest with
    | nil =>
      rw [Syntax.arguments.eq_def]
      rfl
    | cons t rest =>
      have hends : Syntax.endsArguments last t = true := endsArguments_iff.2 h
      rw [argumentTokens, List.flatMap_nil, List.nil_append, Syntax.arguments, if_pos hends]
      rfl
  | cons a args ih =>
    obtain ⟨hopen, ha, h⟩ := h
    obtain ⟨last', hargs⟩ := ih h
    have hends : Syntax.endsArguments last a.first = false :=
      Bool.eq_false_iff.2 fun he => hopen (endsArguments_iff.1 he)
    have htokens : argumentTokens (a :: args) ++ rest =
        a.first :: (a.others ++ (argumentTokens args ++ rest)) := by
      simp [argumentTokens, Argument.tokens]
    refine ⟨last', ?_⟩
    rw [htokens, Syntax.arguments, if_neg (by simp [hends])]
    cases a with
    | colon t =>
      have hcolon : t.isColon = true := ha
      rw [if_pos (by exact hcolon)]
      exact hargs
    | operand o =>
      rw [← headD_append] at ha
      have hcolon : o.first.isColon = false := Operand.Derives.first_not_colon ha
      have hread := Operand.Derives.read ha stop
      simp only [Argument.first, Argument.others, Argument.last] at hargs ⊢
      simp only [hcolon, hread, hargs]
      rfl

theorem Expression.Derives.read {e : Expression} (he : e.Derives (rest.headD mark)) (stop : Span) :
    ∃ last, Syntax.expression stop e.first (e.others ++ rest) = ⟨e.node, [], last, rest⟩ := by
  cases e with
  | operand o =>
    have hpipe : (operand o).first.kind ≠ .pipe := Operand.Derives.first_not_pipe he
    refine ⟨o.last, ?_⟩
    rw [Syntax.expression, if_neg hpipe]
    exact Operand.Derives.read he stop
  | call t args =>
    obtain ⟨last, hargs⟩ := ArgumentsDerive.read he.2 stop
    have hpipe : (call t args).first.kind = .pipe := he.1
    refine ⟨last, ?_⟩
    rw [Syntax.expression, if_pos hpipe, Syntax.call]
    simp only [first, others, hargs]
    rfl

theorem Statement.Derives.read {s : Statement} (hs : s.Derives (rest.headD mark)) (stop : Span) :
    ∃ last, Syntax.statement stop s.first (s.others ++ rest) = ⟨s.node, [], last, rest⟩ := by
  cases s with
  | expression e =>
    have hassign : (expression e).first.kind ≠ .assign := Expression.Derives.first_not_assign hs
    rw [Syntax.statement, if_neg hassign]
    exact Expression.Derives.read hs stop
  | assign mark name colon value =>
    obtain ⟨hmark, hname, hcolon, hvalue⟩ := hs
    obtain ⟨last, hread⟩ := hvalue.read stop
    have hfirst : (assign mark name colon value).first.kind = .assign := hmark
    have hothers : (assign mark name colon value).others ++ rest =
        name :: (colon.toList ++ value.first :: (value.others ++ rest)) := by
      simp [others]
    have htarget : Syntax.name stop '&' mark (name :: (colon.toList ++ value.first :: (value.others ++ rest))) =
        ⟨name.slice, [], name, colon.toList ++ value.first :: (value.others ++ rest)⟩ := by
      rw [Syntax.name, if_pos hname]
    have hskip : ∃ t, Syntax.skipColon name (colon.toList ++ value.first :: (value.others ++ rest)) =
        (t, value.first :: (value.others ++ rest)) := by
      cases colon with
      | none => exact ⟨name, if_neg (by simp [hvalue.first_not_colon])⟩
      | some t => exact ⟨t, if_pos (hcolon t rfl)⟩
    obtain ⟨t, hskip⟩ := hskip
    refine ⟨last, ?_⟩
    rw [Syntax.statement, if_pos hfirst, hothers, Syntax.assignment]
    simp only [first, htarget, hskip, Syntax.assigned, hread]
    rfl

/-- What a derivation says of statements is read, and reading goes on with what comes after. -/
theorem StatementsDerive.read {ss : List Statement} (h : StatementsDerive (rest.headD mark) ss) (stop : Span) :
    Syntax.statements stop (statementTokens ss ++ rest) =
      (ss.map Statement.node ++ (Syntax.statements stop rest).1, (Syntax.statements stop rest).2) := by
  induction ss with
  | nil => rfl
  | cons s ss ih =>
    obtain ⟨hs, h⟩ := h
    rw [← headD_append] at hs
    obtain ⟨last, hread⟩ := hs.read stop
    have htokens : statementTokens (s :: ss) ++ rest = s.first :: (s.others ++ (statementTokens ss ++ rest)) := by
      simp [statementTokens, Statement.tokens]
    rw [htokens, Syntax.statements]
    simp only [hread, ih h]
    rfl

/-- Where nothing comes after, that is all. -/
theorem StatementsDerive.read_all {ss : List Statement} (h : StatementsDerive mark ss) (stop : Span) :
    Syntax.statements stop (statementTokens ss) = (ss.map Statement.node, []) := by
  have h : StatementsDerive (([] : List Token).headD mark) ss := h
  have hread := h.read stop
  rw [List.append_nil] at hread
  rw [hread, Syntax.statements.eq_def]
  simp

/-! ## What is read without a recovery is derived -/

variable {t : Token} {ts : List Token} {stop : Span}

theorem exists_of_number_notes (hn : (Syntax.number t).2 = []) :
    ∃ value, Literal.ofNumber? t.slice.toList = some value := by
  unfold Syntax.number at hn
  split at hn
  · next value hvalue => exact ⟨value, hvalue⟩
  · cases hn

theorem exists_operand (hmark : mark.kind = .eof) (hnotes : (Syntax.operand stop t rest).notes = []) :
    ∃ (o : Operand) (rest' : List Token), o.first = t ∧ o.others ++ rest' = rest ∧
      o.Derives (rest'.headD mark) := by
  cases hk : t.kind <;> simp only [Syntax.operand, hk] at hnotes
  case string => exact ⟨.string t, rest, rfl, rfl, hk⟩
  case identifier => exact ⟨.word t, rest, rfl, rfl, hk⟩
  case keyword => exact ⟨.keyword t, rest, rfl, rfl, hk⟩
  case number =>
    obtain ⟨value, hvalue⟩ := exists_of_number_notes hnotes
    exact ⟨.number t value, rest, rfl, rfl, hk, hvalue⟩
  case «variable» =>
    cases rest with
    | nil => simp [Syntax.name] at hnotes
    | cons n rest =>
      by_cases hn : n.kind = .identifier
      · exact ⟨.lookup t n, rest, rfl, rfl, hk, hn⟩
      · simp [Syntax.name, hn] at hnotes
  case symbol =>
    by_cases hs : t.slice = "-"
    · simp only [hs, and_self, if_true] at hnotes
      cases rest with
      | nil => exact ⟨.minus t, [], rfl, rfl, ⟨hk, hs⟩, by simp [hmark]⟩
      | cons n rest =>
        by_cases hn : n.kind = .number
        · simp only [hn, if_true] at hnotes
          obtain ⟨value, hvalue⟩ := exists_of_number_notes hnotes
          exact ⟨.negative t n value, rest, rfl, rfl, ⟨hk, hs⟩, hn, hvalue⟩
        · exact ⟨.minus t, n :: rest, rfl, rfl, ⟨hk, hs⟩, hn⟩
    · simp [hs] at hnotes
  all_goals simp at hnotes

theorem exists_arguments (hmark : mark.kind = .eof) (hnotes : (Syntax.arguments stop last ts).notes = []) :
    ∃ (args : List Argument) (rest : List Token), argumentTokens args ++ rest = ts ∧
      ArgumentsDerive (rest.headD mark) last args := by
  fun_induction Syntax.arguments stop last ts with
  | case1 last => exact ⟨[], [], rfl, .inr (.inr (.inl hmark))⟩
  | case2 last t rest hends => exact ⟨[], t :: rest, rfl, endsArguments_iff.1 hends⟩
  | case3 last t rest hends hcolon ih =>
    obtain ⟨args, rest, rfl, hargs⟩ := ih hnotes
    exact ⟨.colon t :: args, rest, rfl, fun hc => hends (endsArguments_iff.2 hc), hcolon, hargs⟩
  | case4 last t rest hends hcolon first others ih =>
    obtain ⟨hfirst, hothers⟩ := List.append_eq_nil_iff.1 hnotes
    obtain ⟨o, rest', rfl, rfl, ho⟩ := exists_operand hmark hfirst
    have hread : first = ⟨o.node, [], o.last, rest'⟩ := ho.read stop
    rw [hread] at ih
    obtain ⟨args, rest, rfl, hargs⟩ := ih (by simpa only [others, hread] using hothers)
    rw [headD_append] at ho
    refine ⟨.operand o :: args, rest, ?_, fun hc => hends (endsArguments_iff.2 hc), ho, hargs⟩
    simp [argumentTokens, Argument.tokens, Argument.first, Argument.others]

theorem exists_expression (hmark : mark.kind = .eof) (hnotes : (Syntax.expression stop t rest).notes = []) :
    ∃ (e : Expression) (rest' : List Token), e.first = t ∧ e.others ++ rest' = rest ∧
      e.Derives (rest'.headD mark) := by
  by_cases hk : t.kind = .pipe
  · rw [Syntax.expression, if_pos hk] at hnotes
    obtain ⟨args, rest', rfl, hargs⟩ := exists_arguments hmark hnotes
    exact ⟨.call t args, rest', rfl, rfl, hk, hargs⟩
  · rw [Syntax.expression, if_neg hk] at hnotes
    obtain ⟨o, rest', hfirst, hrest, ho⟩ := exists_operand hmark hnotes
    exact ⟨.operand o, rest', hfirst, hrest, ho⟩

theorem exists_name {c : Char} (hnotes : (Syntax.name stop c t ts).notes = []) :
    ∃ name rest, ts = name :: rest ∧ name.kind = .identifier ∧
      Syntax.name stop c t ts = ⟨name.slice, [], name, rest⟩ := by
  unfold Syntax.name at hnotes ⊢
  split at hnotes
  · cases hnotes
  · next name rest =>
    split at hnotes
    · next hk => exact ⟨name, rest, rfl, hk, if_pos hk⟩
    · cases hnotes

theorem exists_skipColon (t : Token) (ts : List Token) : ∃ (colon : Option Token) (rest : List Token),
    ts = colon.toList ++ rest ∧ (Syntax.skipColon t ts).2 = rest ∧ ∀ u ∈ colon, u.isColon = true := by
  cases ts with
  | nil => exact ⟨none, [], rfl, rfl, nofun⟩
  | cons u rest =>
    by_cases hu : u.isColon = true
    · refine ⟨some u, rest, rfl, by simp [Syntax.skipColon, hu], ?_⟩
      rintro _ ⟨⟩
      exact hu
    · exact ⟨none, u :: rest, rfl, by simp [Syntax.skipColon, hu], nofun⟩

theorem exists_assigned (hmark : mark.kind = .eof) (hnotes : (Syntax.assigned stop t ts).notes = []) :
    ∃ (e : Expression) (rest : List Token), e.first :: (e.others ++ rest) = ts ∧ e.Derives (rest.headD mark) := by
  cases ts with
  | nil => cases hnotes
  | cons u ts =>
    obtain ⟨e, rest, rfl, rfl, he⟩ := exists_expression hmark hnotes
    exact ⟨e, rest, rfl, he⟩

theorem exists_statement (hmark : mark.kind = .eof) (hnotes : (Syntax.statement stop t rest).notes = []) :
    ∃ (s : Statement) (rest' : List Token), s.first = t ∧ s.others ++ rest' = rest ∧
      s.Derives (rest'.headD mark) := by
  by_cases hk : t.kind = .assign
  · rw [Syntax.statement, if_pos hk, Syntax.assignment] at hnotes
    simp only [List.append_eq_nil_iff] at hnotes
    obtain ⟨htarget, hvalue⟩ := hnotes
    obtain ⟨name, after, rfl, hname, hread⟩ := exists_name htarget
    rw [hread] at hvalue
    obtain ⟨colon, after', rfl, hskip, hcolon⟩ := exists_skipColon name after
    rw [hskip] at hvalue
    obtain ⟨value, rest', rfl, hderives⟩ := exists_assigned hmark hvalue
    refine ⟨.assign t name colon value, rest', rfl, ?_, hk, hname, hcolon, hderives⟩
    simp [Statement.others]
  · rw [Syntax.statement, if_neg hk] at hnotes
    obtain ⟨e, rest', hfirst, hrest, he⟩ := exists_expression hmark hnotes
    exact ⟨.expression e, rest', hfirst, hrest, he⟩

theorem exists_statements (hmark : mark.kind = .eof) (hnotes : (Syntax.statements stop ts).2 = []) :
    ∃ ss, statementTokens ss = ts ∧ StatementsDerive mark ss := by
  fun_induction Syntax.statements stop ts with
  | case1 => exact ⟨[], rfl, trivial⟩
  | case2 t rest first others ih =>
    obtain ⟨hfirst, hothers⟩ := List.append_eq_nil_iff.1 hnotes
    obtain ⟨s, rest', rfl, rfl, hs⟩ := exists_statement hmark hfirst
    obtain ⟨last, hread⟩ := hs.read stop
    have hrest : first.rest = rest' := congrArg Reading.rest hread
    rw [hrest] at ih
    obtain ⟨ss, rfl, hss⟩ := ih (by simpa only [others, hrest] using hothers)
    refine ⟨s :: ss, ?_, hs, hss⟩
    simp [statementTokens, Statement.tokens]

/-! ## Scripts -/

/-- The tokens end with the mark of the end, and have none before. -/
def EndsOnce (ts : List Token) : Prop :=
  ∃ body mark, ts = body ++ [mark] ∧ mark.kind = .eof ∧ ∀ t ∈ body, t.kind ≠ .eof

/-- Reading recovers nothing exactly when the tokens have a derivation. There is one at most, and
what is read is its script. -/
theorem parse_iff_derives {ts : List Token} (hts : EndsOnce ts) :
    ((parse ts).diagnostics = [] ↔ ∃ s : Script, s.Derives ts) ∧
      ∀ s : Script, s.Derives ts → (parse ts).program = s.program ∧ ∀ s' : Script, s'.Derives ts → s' = s := by
  obtain ⟨body, mark, rfl, hmark, hbody⟩ := hts
  have hread (s : Script) (hs : s.Derives (body ++ [mark])) :
      Syntax.statements mark.span body = (s.program, []) := by
    obtain ⟨ss, mark'⟩ := s
    obtain ⟨rfl, hmarks⟩ := List.append_inj' hs.tokens rfl
    obtain rfl : mark' = mark := List.singleton_inj.1 hmarks
    exact hs.statements.read_all mark'.span
  rw [parse_append_eof hmark hbody]
  refine ⟨⟨fun hnotes => ?_, ?_⟩, fun s hs => ⟨?_, fun s' hs' => hs'.unique hs⟩⟩
  · obtain ⟨ss, rfl, hss⟩ := exists_statements hmark hnotes
    exact ⟨⟨ss, mark⟩, rfl, hss, hmark⟩
  · rintro ⟨s, hs⟩
    rw [hread s hs]
  · rw [hread s hs]

/-- The derivation of a script of two lines: `&s:|add:!y:-5` and `!s`. -/
def addition : Script where
  statements := [
    .assign ⟨.assign, "", ⟨1, 1⟩⟩ ⟨.identifier, "s", ⟨1, 2⟩⟩ (some ⟨.symbol, ":", ⟨1, 3⟩⟩)
      (.call ⟨.pipe, "add", ⟨1, 4⟩⟩ [.colon ⟨.symbol, ":", ⟨1, 8⟩⟩,
        .operand (.lookup ⟨.variable, "", ⟨1, 9⟩⟩ ⟨.identifier, "y", ⟨1, 10⟩⟩),
        .colon ⟨.symbol, ":", ⟨1, 11⟩⟩,
        .operand (.negative ⟨.symbol, "-", ⟨1, 12⟩⟩ ⟨.number, "5", ⟨1, 13⟩⟩ (.integer 5))]),
    .expression (.operand (.lookup ⟨.variable, "", ⟨2, 1⟩⟩ ⟨.identifier, "s", ⟨2, 2⟩⟩))]
  mark := ⟨.eof, "", ⟨2, 3⟩⟩

theorem parse_addition : EndsOnce addition.tokens ∧ addition.Derives addition.tokens ∧
    (parse addition.tokens).diagnostics = [] ∧ (parse addition.tokens).program = addition.program := by
  have hts : EndsOnce addition.tokens :=
    ⟨statementTokens addition.statements, addition.mark, rfl, rfl, by decide⟩
  have hd : addition.Derives addition.tokens := ⟨rfl, by decide, rfl⟩
  have h := parse_iff_derives hts
  exact ⟨hts, hd, h.1.2 ⟨addition, hd⟩, (h.2 addition hd).1⟩

end PipeScript.Grammar
