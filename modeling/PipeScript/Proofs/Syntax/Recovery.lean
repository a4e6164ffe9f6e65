/-
The places of recoveries. Where tokens stand one after the other, the recoveries made in reading them are noted
in that order: each one at or after the place from which on there was still something to be read, and not after
the place from which on there is. Nothing is noted at a place that is passed, but two recoveries may be noted at
one place, as that of a missing name and that of the token found instead of it.

So a source that is read strictly is refused for the earliest recovery among its characters, or else for an
earliest one among its tokens.
-/
import PipeScript.Evaluator
import PipeScript.Proofs.Syntax.Parser
import PipeScript.Proofs.Token.Place

namespace PipeScript

namespace Syntax

/-! ## Tokens in order -/

/-- The place at which reading goes on: that of the next token, or of the end. -/
def place (stop : Span) : List Token → Span
  | [] => stop
  | t :: _ => t.span

/-- No token stands after a later one, nor after the end. -/
structure InOrder (stop : Span) (ts : List Token) : Prop where
  pairwise : ts.Pairwise (·.span ≤ ·.span)
  le_stop : ∀ t ∈ ts, t.span ≤ stop

variable {stop a b c : Span} {t last : Token} {ts rest : List Token}

theorem InOrder.of_suffix (h : InOrder stop ts) (hrest : rest <:+ ts) : InOrder stop rest :=
  ⟨h.pairwise.sublist hrest.sublist, fun t ht => h.le_stop t (hrest.subset ht)⟩

/-- What is left over begins no earlier than what there was. -/
theorem InOrder.place_le (h : InOrder stop ts) (hrest : rest <:+ ts) : place stop ts ≤ place stop rest := by
  obtain ⟨front, rfl⟩ := hrest
  cases front with
  | nil => exact le_refl _
  | cons t front =>
    cases rest with
    | nil => exact h.le_stop t List.mem_cons_self
    | cons u rest => exact (List.pairwise_cons.1 h.pairwise).1 u (List.mem_append_right front List.mem_cons_self)

theorem InOrder.tail (h : InOrder stop (t :: ts)) : InOrder stop ts :=
  h.of_suffix (List.suffix_cons t ts)

theorem InOrder.le_place (h : InOrder stop (t :: ts)) : t.span ≤ place stop ts :=
  h.place_le (List.suffix_cons t ts)

/-! ## Notes in order -/

/-- The notes stand in order from one place up to another. -/
structure Ascends (a b : Span) (notes : List Diagnostic) : Prop where
  le : a ≤ b
  pairwise : notes.Pairwise (·.span ≤ ·.span)
  within : ∀ d ∈ notes, a ≤ d.span ∧ d.span ≤ b

namespace Ascends

theorem nil (h : a ≤ b) : Ascends a b [] :=
  ⟨h, .nil, nofun⟩

theorem single {d : Diagnostic} (ha : a ≤ d.span) (hb : d.span ≤ b) : Ascends a b [d] :=
  ⟨ha.trans hb, List.pairwise_singleton _ d, List.forall_mem_singleton.2 ⟨ha, hb⟩⟩

theorem append {xs ys : List Diagnostic} (hxs : Ascends a b xs) (hys : Ascends b c ys) : Ascends a c (xs ++ ys) where
  le := hxs.le.trans hys.le
  pairwise := List.pairwise_append.2 ⟨hxs.pairwise, hys.pairwise,
    fun d hd e he => (hxs.within d hd).2.trans (hys.within e he).1⟩
  within := List.forall_mem_append.2 ⟨fun d hd => (hxs.within d hd).imp_right fun h => h.trans hys.le,
    fun d hd => (hys.within d hd).imp_left fun h => hxs.le.trans h⟩

/-- Notes from a later place on are notes from an earlier one on. -/
theorem after {notes : List Diagnostic} (hab : a ≤ b) (h : Ascends b c notes) : Ascends a c notes :=
  append (nil hab) h

end Ascends

/-! ## One rule at a time -/

theorem number_ascends (ha : a ≤ t.span) (hb : t.span ≤ b) : Ascends a b (number t).2 := by
  unfold number
  split
  · exact .nil (ha.trans hb)
  · exact .single ha hb

theorem name_ascends (h : InOrder stop ts) (mark : Char) (marker : Token) :
    Ascends (place stop ts) (place stop (name stop mark marker ts).rest) (name stop mark marker ts).notes := by
  cases ts with
  | nil => exact .single (le_refl _) (le_refl _)
  | cons t ts =>
    by_cases hk : t.kind = .identifier <;> simp only [name, hk, if_true, if_false]
    · exact .nil h.le_place
    · exact .single (le_refl _) (le_refl _)

theorem operand_ascends (h : InOrder stop (t :: rest)) :
    Ascends t.span (place stop (operand stop t rest).rest) (operand stop t rest).notes := by
  have hnil : Ascends t.span (place stop rest) [] := .nil h.le_place
  cases hk : t.kind <;> simp only [operand, hk, reduceCtorEq, false_and, true_and, if_false]
  case string | identifier | keyword => exact hnil
  case number => exact number_ascends (le_refl _) h.le_place
  case «variable» => exact (name_ascends h.tail '!' t).after h.le_place
  case symbol =>
    split
    · split
      · next n rest' =>
        split
        · exact number_ascends h.le_place h.tail.le_place
        · exact hnil
      · exact hnil
    · exact .single (le_refl _) h.le_place
  all_goals exact .single (le_refl _) h.le_place

theorem arguments_ascends (h : InOrder stop ts) (last : Token) :
    Ascends (place stop ts) (place stop (arguments stop last ts).rest) (arguments stop last ts).notes := by
  fun_induction arguments stop last ts with
  | case1 => exact .nil (le_refl _)
  | case2 => exact .nil (le_refl _)
  | case3 last t rest _ _ ih => exact (ih h.tail).after h.le_place
  | case4 last t rest _ _ first others ih =>
    exact (operand_ascends h).append (ih (h.of_suffix ((List.suffix_cons _ _).trans (operand_suffix stop t rest))))

theorem expression_ascends (h : InOrder stop (t :: rest)) :
    Ascends t.span (place stop (expression stop t rest).rest) (expression stop t rest).notes := by
  unfold expression
  split
  · exact (arguments_ascends h.tail t).after h.le_place
  · exact operand_ascends h

theorem assigned_ascends (h : InOrder stop ts) (last : Token) :
    Ascends (place stop ts) (place stop (assigned stop last ts).rest) (assigned stop last ts).notes := by
  cases ts with
  | nil => exact .single (le_refl _) (le_refl _)
  | cons t rest => exact expression_ascends h

theorem assignment_ascends (h : InOrder stop (t :: rest)) :
    Ascends t.span (place stop (assignment stop t rest).rest) (assignment stop t rest).notes := by
  have htarget := (name_ascends h.tail '&' t).after h.le_place
  have hrest : InOrder stop (name stop '&' t rest).rest :=
    h.of_suffix ((List.suffix_cons _ _).trans (name_suffix stop '&' t rest))
  have hcolon := skipColon_suffix (name stop '&' t rest).last (name stop '&' t rest).rest
  exact htarget.append ((assigned_ascends (hrest.of_suffix hcolon) _).after (hrest.place_le hcolon))

theorem statement_ascends (h : InOrder stop (t :: rest)) :
    Ascends t.span (place stop (statement stop t rest).rest) (statement stop t rest).notes := by
  unfold statement
  split
  · exact assignment_ascends h
  · exact expression_ascends h

theorem statements_ascends (h : InOrder stop ts) : Ascends (place stop ts) stop (statements stop ts).2 := by
  fun_induction statements stop ts with
  | case1 => exact .nil (le_refl _)
  | case2 t rest first others ih =>
    exact (statement_ascends h).append (ih (h.of_suffix (statement_suffix stop t rest)))

end Syntax

/-! ## Sources -/

theorem Syntax.inOrder_of_append {body : List Token} {mark : Token}
    (h : (body ++ [mark]).Pairwise (·.span < ·.span)) : InOrder mark.span body := by
  obtain ⟨hbody, -, hmark⟩ := List.pairwise_append.1 h
  exact ⟨hbody.imp le_of_lt, fun t ht => (hmark t ht mark (List.mem_singleton_self mark)).le⟩

/-- The recoveries among the tokens of a source are noted in order. -/
theorem pairwise_diagnostics_parse (source : String) :
    (parse (lex source).tokens).diagnostics.Pairwise (·.span ≤ ·.span) := by
  have hpairwise := pairwise_tokens_lex source
  rw [tokens_lex] at hpairwise ⊢
  rw [parse_append_eof rfl fun _ ht => Lexeme.kind_ne_eof_of_scan ht]
  exact (Syntax.statements_ascends (Syntax.inOrder_of_append hpairwise)).pairwise

-- the bracket is where the name is missing, and is no expression either
example : (parse (lex "&)").tokens).diagnostics =
    [⟨.missingName '&', ⟨1, 2⟩⟩, ⟨.unexpectedToken .symbol ")", ⟨1, 2⟩⟩] := by
  decide +kernel

/-- One of the diagnostics, and none of them stands before it. -/
def Diagnostic.IsEarliest (d : Diagnostic) (ds : List Diagnostic) : Prop :=
  d ∈ ds ∧ ∀ e ∈ ds, d.span ≤ e.span

theorem Diagnostic.IsEarliest.of_head? {d : Diagnostic} {ds : List Diagnostic}
    (hds : ds.Pairwise (·.span ≤ ·.span)) (hd : ds.head? = some d) : d.IsEarliest ds := by
  obtain ⟨rest, rfl⟩ := List.head?_eq_some_iff.1 hd
  exact ⟨List.mem_cons_self, List.forall_mem_cons.2 ⟨le_refl _, (List.pairwise_cons.1 hds).1⟩⟩

theorem compile_true_eq_error_iff {source : String} {d : Diagnostic} :
    compile true source = .error d ↔ (recoveries source).head? = some d := by
  unfold compile
  cases recoveries source <;> simp

theorem eq_parseSource_of_compile {strict : Bool} {source : String} {p : Program}
    (h : compile strict source = .ok p) : p = parseSource source := by
  unfold compile at h
  split at h <;> cases h
  rfl

/-- The diagnostics among the characters of a source stand at ascending places, those among its tokens at places
that never descend. A source is refused when it is read strictly if there are any, and then for the earliest one
among its characters, or else for an earliest one among its tokens. One that is not refused is the same script in
whatever way it is read, and that is the script that is run; and without strictness no source is refused. -/
theorem compile_earliest (source : String) :
    let lexed := lex source
    let parsed := parse lexed.tokens
    lexed.diagnostics.Pairwise (·.span < ·.span) ∧ parsed.diagnostics.Pairwise (·.span ≤ ·.span) ∧
    ((∃ d, compile true source = .error d) ↔ lexed.diagnostics ≠ [] ∨ parsed.diagnostics ≠ []) ∧
    (∀ d, compile true source = .error d →
      if lexed.diagnostics ≠ [] then d.IsEarliest lexed.diagnostics else d.IsEarliest parsed.diagnostics) ∧
    (∀ p, compile true source = .ok p → compile false source = .ok p ∧ parseSource source = p ∧
      ∀ (σ : Type) (host : Host σ) (fuel : Nat), Eval.source host fuel source = Eval.program host fuel p) ∧
    compile false source = .ok (parseSource source) := by
  intro lexed parsed
  have hlexed := pairwise_diagnostics_lex source
  have hparsed := pairwise_diagnostics_parse source
  have herror (d : Diagnostic) :
      compile true source = .error d ↔ (lexed.diagnostics ++ parsed.diagnostics).head? = some d :=
    compile_true_eq_error_iff
  refine ⟨hlexed, hparsed, ?_, fun d hd => ?_, fun p hp => ?_, rfl⟩
  · simp only [herror, ← Option.isSome_iff_exists, List.isSome_head?, ne_eq, List.append_eq_nil_iff, not_and_or]
  · rw [herror, List.head?_append] at hd
    split
    · next hne =>
      obtain ⟨e, he⟩ := Option.ne_none_iff_exists'.1 (mt List.head?_eq_none_iff.1 hne)
      rw [he] at hd
      exact .of_head? (hlexed.imp le_of_lt) (he.trans hd)
    · next hnil =>
      rw [not_not.1 hnil] at hd
      exact .of_head? hparsed hd
  · obtain rfl := eq_parseSource_of_compile hp
    exact ⟨rfl, rfl, fun _ _ _ => rfl⟩

end PipeScript
