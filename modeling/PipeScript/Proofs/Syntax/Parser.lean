/-
How reading goes through the tokens. It goes up to the first end mark, from the left, and the token
read last is always the one right before those that are left over.
-/
import PipeScript.Syntax.Parser

namespace PipeScript

/-! ## Up to the end mark -/

theorem takeWhile_append_eof {body more : List Token} {mark : Token} (hmark : mark.kind = .eof)
    (hbody : ∀ t ∈ body, t.kind ≠ .eof) : (body ++ mark :: more).takeWhile (·.kind != .eof) = body := by
  rw [List.takeWhile_append_of_pos fun t ht => bne_iff_ne.2 (hbody t ht)]
  simp [hmark]

theorem endSpan_append_eof {body more : List Token} {mark : Token} (hmark : mark.kind = .eof)
    (hbody : ∀ t ∈ body, t.kind ≠ .eof) : endSpan (body ++ mark :: more) = mark.span := by
  have hfind : body.find? (fun t : Token => t.kind == .eof) = none :=
    List.find?_eq_none.2 fun t ht => by simpa using hbody t ht
  rw [endSpan, List.find?_append, hfind]
  simp [hmark]

/-- Tokens with an end mark after them are read as statements, that mark being the end. -/
theorem parse_append_eof {body more : List Token} {mark : Token} (hmark : mark.kind = .eof)
    (hbody : ∀ t ∈ body, t.kind ≠ .eof) : parse (body ++ mark :: more) =
      ⟨(Syntax.statements mark.span body).1, (Syntax.statements mark.span body).2⟩ := by
  rw [parse, takeWhile_append_eof hmark hbody, endSpan_append_eof hmark hbody]

/-! ## What is left over -/

namespace Syntax

theorem name_suffix (stop : Span) (c : Char) (t : Token) (ts : List Token) :
    (name stop c t ts).last :: (name stop c t ts).rest <:+ t :: ts := by
  unfold name
  split
  · exact List.suffix_rfl
  · split
    · exact List.suffix_cons _ _
    · exact List.suffix_rfl

theorem operand_suffix (stop : Span) (t : Token) (rest : List Token) :
    (operand stop t rest).last :: (operand stop t rest).rest <:+ t :: rest := by
  cases hk : t.kind <;> simp only [operand, hk, reduceCtorEq, false_and, true_and, if_false]
  case «variable» => exact name_suffix stop '!' t rest
  case symbol =>
    split
    · split
      · split
        · exact List.suffix_cons _ _
        · exact List.suffix_rfl
      · exact List.suffix_rfl
    · exact List.suffix_rfl
  all_goals exact List.suffix_rfl

theorem arguments_suffix (stop : Span) (last : Token) (ts : List Token) :
    (arguments stop last ts).last :: (arguments stop last ts).rest <:+ last :: ts := by
  fun_induction arguments stop last ts with
  | case1 => exact List.suffix_rfl
  | case2 => exact List.suffix_rfl
  | case3 last t rest _ _ ih => exact ih.trans (List.suffix_cons _ _)
  | case4 last t rest _ _ first others ih =>
    exact (ih.trans (operand_suffix stop t rest)).trans (List.suffix_cons _ _)

theorem expression_suffix (stop : Span) (t : Token) (rest : List Token) :
    (expression stop t rest).rest <:+ t :: rest := by
  unfold expression
  split
  · exact (List.suffix_cons _ _).trans (arguments_suffix stop t rest)
  · exact (List.suffix_cons _ _).trans (operand_suffix stop t rest)

theorem skipColon_suffix (t : Token) (ts : List Token) : (skipColon t ts).2 <:+ ts := by
  unfold skipColon
  split
  · exact List.suffix_rfl
  · split
    · exact List.suffix_cons _ _
    · exact List.suffix_rfl

theorem assigned_suffix (stop : Span) (t : Token) (ts : List Token) : (assigned stop t ts).rest <:+ ts := by
  cases ts with
  | nil => exact List.suffix_rfl
  | cons u ts => exact expression_suffix stop u ts

/-- What the value of an assignment is read from. -/
theorem value_suffix (stop : Span) (t : Token) (rest : List Token) :
    (skipColon (name stop '&' t rest).last (name stop '&' t rest).rest).2 <:+ t :: rest :=
  (skipColon_suffix _ _).trans ((List.suffix_cons _ _).trans (name_suffix stop '&' t rest))

theorem statement_suffix (stop : Span) (t : Token) (rest : List Token) :
    (statement stop t rest).rest <:+ t :: rest := by
  unfold statement
  split
  · exact (assigned_suffix stop _ _).trans (value_suffix stop t rest)
  · exact expression_suffix stop t rest

end Syntax

end PipeScript
