/-
The shape of scripts. A statement is an expression or binds a name to one, an expression is an
atom or a call, and the arguments of a call are atoms. So nothing that is read is nested any deeper.
The names in a script come from its tokens: each is that of the word right after a mark, or empty.
-/
import PipeScript.Proofs.Syntax.Parser

namespace PipeScript

/-! ## Scripts without nesting -/

namespace Node

/-- A literal, or a variable with one of the names. -/
inductive Atom (P : String → Prop) : Node → Prop
  | literal (l : Literal) : Atom P (.literal l)
  | variable {name : String} : P name → Atom P (.variable name)

/-- An atom, or a call of which all arguments are atoms. -/
inductive Flat (P : String → Prop) : Node → Prop
  | atom {a : Node} : a.Atom P → Flat P a
  | call (name : String) {args : List Node} : (∀ a ∈ args, a.Atom P) → Flat P (.call name args)

/-- A flat expression, or one of the names bound to a flat expression. -/
inductive Line (P : String → Prop) : Node → Prop
  | flat {a : Node} : a.Flat P → Line P a
  | assign {name : String} {value : Node} : P name → value.Flat P → Line P (.assign name value)

variable {P Q : String → Prop} {a : Node}

theorem Atom.imp (h : ∀ name, P name → Q name) (ha : a.Atom P) : a.Atom Q := by
  cases ha with
  | literal l => exact .literal l
  | «variable» hname => exact .variable (h _ hname)

theorem Flat.imp (h : ∀ name, P name → Q name) (ha : a.Flat P) : a.Flat Q := by
  cases ha with
  | atom ha => exact .atom (ha.imp h)
  | call name hargs => exact .call name fun b hb => (hargs b hb).imp h

theorem Line.imp (h : ∀ name, P name → Q name) (ha : a.Line P) : a.Line Q := by
  cases ha with
  | flat ha => exact .flat (ha.imp h)
  | assign hname hvalue => exact .assign (h _ hname) (hvalue.imp h)

end Node

/-! ## What is read -/

/-- Among the tokens, the name is that of the word right after the mark of a variable, or it is empty. -/
def Names (ts : List Token) (name : String) : Prop :=
  name = "" ∨ ∃ before mark t after, ts = before ++ mark :: t :: after ∧
    (mark.kind = .variable ∨ mark.kind = .assign) ∧ t.kind = .identifier ∧ t.slice = name

theorem Names.of_suffix {ts us : List Token} (hsuffix : us <:+ ts) {name : String} (h : Names us name) :
    Names ts name := by
  rcases h with h | ⟨before, mark, t, after, rfl, h⟩
  · exact .inl h
  · obtain ⟨front, rfl⟩ := hsuffix
    exact .inr ⟨front ++ before, mark, t, after, by simp, h⟩

namespace Syntax

variable (stop : Span)

theorem name_names (c : Char) {mark : Token} (hmark : mark.kind = .variable ∨ mark.kind = .assign)
    (ts : List Token) : Names (mark :: ts) (name stop c mark ts).value := by
  unfold name
  split
  · exact .inl rfl
  · next t rest =>
    split
    · next hword => exact .inr ⟨[], mark, t, rest, rfl, hmark, hword, rfl⟩
    · exact .inl rfl

theorem operand_atom (t : Token) (rest : List Token) :
    (operand stop t rest).value.Atom (Names (t :: rest)) := by
  cases hk : t.kind <;> simp only [operand, hk, reduceCtorEq, false_and, true_and, if_false]
  case «variable» => exact .variable (name_names stop '!' (.inl hk) rest)
  case symbol =>
    split
    · split
      · split <;> exact .literal _
      · exact .literal _
    · exact .literal _
  all_goals exact .literal _

theorem arguments_atom (last : Token) (ts : List Token) :
    ∀ a ∈ (arguments stop last ts).value, a.Atom (Names ts) := by
  fun_induction arguments stop last ts with
  | case1 => simp
  | case2 => simp
  | case3 last t rest _ _ ih => exact fun a ha => (ih a ha).imp fun _ => .of_suffix (List.suffix_cons _ _)
  | case4 last t rest _ _ first others ih =>
    intro a ha
    rcases List.mem_cons.1 ha with rfl | ha
    · exact operand_atom stop t rest
    · exact (ih a ha).imp fun _ => .of_suffix ((List.suffix_cons _ _).trans (operand_suffix stop t rest))

theorem expression_flat (t : Token) (rest : List Token) :
    (expression stop t rest).value.Flat (Names (t :: rest)) := by
  unfold expression
  split
  · exact .call _ fun a ha => (arguments_atom stop t rest a ha).imp fun _ => .of_suffix (List.suffix_cons _ _)
  · exact .atom (operand_atom stop t rest)

theorem assigned_flat (last : Token) (ts : List Token) :
    (assigned stop last ts).value.Flat (Names ts) := by
  cases ts with
  | nil => exact .atom (.literal _)
  | cons t rest => exact expression_flat stop t rest

theorem statement_line (t : Token) (rest : List Token) :
    (statement stop t rest).value.Line (Names (t :: rest)) := by
  unfold statement
  split
  · next hmark =>
    exact .assign (name_names stop '&' (.inr hmark) rest)
      ((assigned_flat stop _ _).imp fun _ => .of_suffix (value_suffix stop t rest))
  · exact .flat (expression_flat stop t rest)

theorem statements_line (ts : List Token) :
    ∀ s ∈ (statements stop ts).1, s.Line (Names ts) := by
  fun_induction statements stop ts with
  | case1 => simp
  | case2 t rest first others ih =>
    intro s hs
    rcases List.mem_cons.1 hs with rfl | hs
    · exact statement_line stop t rest
    · exact (ih s hs).imp fun _ => .of_suffix (statement_suffix stop t rest)

end Syntax

/-- Whatever the tokens, the statements that are read are not nested, and their names come from the
tokens. -/
theorem parse_line (ts : List Token) :
    ∀ s ∈ (parse ts).program, s.Line (Names (ts.takeWhile (·.kind != .eof))) :=
  Syntax.statements_line _ _

end PipeScript
