/-
The grammar of scripts, and that reading follows it. A derivation tree has the tokens of a script at
its leaves, and a statement of the grammar about a tree says which tokens those are. What may stand
in a place depends on the tokens around it: a minus sign stands alone unless a number follows, and
the arguments of a call go on up to the first token that closes them, which for the mark of a
variable depends on the line of the token before it.

Reading finds nothing to recover exactly when there is a derivation, and gives the script of the
derivation. There is never a second one: no expression begins with a colon, so that a colon after
the name that is bound can only be the optional one, and the conditions on the neighbours say of
each token whether the arguments go on with it.
-/
import PipeScript.Syntax.Parser

namespace PipeScript.Grammar

/-! ## Derivation trees -/

/-- An expression that is no call. -/
inductive Operand where
  | string (t : Token)
  | keyword (t : Token)
  /-- A word that is no keyword. It stands for its own text. -/
  | word (t : Token)
  | number (t : Token) (value : Literal)
  /-- The value of a variable. -/
  | lookup (mark name : Token)
  | negative (sign t : Token) (value : Literal)
  | minus (t : Token)

/-- What stands among the arguments of a call. -/
inductive Argument where
  | colon (t : Token)
  | operand (o : Operand)

inductive Expression where
  | operand (o : Operand)
  | call (t : Token) (args : List Argument)

inductive Statement where
  | assign (mark name : Token) (colon : Option Token) (value : Expression)
  | expression (e : Expression)

/-- A whole script, with the mark of its end. -/
structure Script where
  statements : List Statement
  mark : Token

/-! ## The tokens of a tree -/

namespace Operand

def first : Operand → Token
  | .string t | .keyword t | .word t | .number t _ | .minus t => t
  | .lookup mark _ => mark
  | .negative sign _ _ => sign

/-- The tokens after the first one. -/
def others : Operand → List Token
  | .lookup _ t | .negative _ t _ => [t]
  | _ => []

def last : Operand → Token
  | .string t | .keyword t | .word t | .number t _ | .minus t => t
  | .lookup _ t | .negative _ t _ => t

end Operand

namespace Argument

def first : Argument → Token
  | .colon t => t
  | .operand o => o.first

def others : Argument → List Token
  | .colon _ => []
  | .operand o => o.others

def last : Argument → Token
  | .colon t => t
  | .operand o => o.last

def tokens (a : Argument) : List Token :=
  a.first :: a.others

end Argument

/-- The tokens of arguments. -/
def argumentTokens (args : List Argument) : List Token :=
  args.flatMap Argument.tokens

namespace Expression

def first : Expression → Token
  | .operand o => o.first
  | .call t _ => t

def others : Expression → List Token
  | .operand o => o.others
  | .call _ args => argumentTokens args

end Expression

namespace Statement

def first : Statement → Token
  | .assign mark _ _ _ => mark
  | .expression e => e.first

def others : Statement → List Token
  | .assign _ name colon value => name :: (colon.toList ++ value.first :: value.others)
  | .expression e => e.others

def tokens (s : Statement) : List Token :=
  s.first :: s.others

end Statement

/-- The tokens of statements. -/
def statementTokens (ss : List Statement) : List Token :=
  ss.flatMap Statement.tokens

def Script.tokens (s : Script) : List Token :=
  statementTokens s.statements ++ [s.mark]

/-! ## The script of a tree -/

/-- A lone minus sign is minus one. -/
def Operand.node : Operand → Node
  | .string t | .word t => .literal (.string t.slice)
  | .keyword t => .literal (Syntax.keyword t.slice)
  | .number _ value => .literal value
  | .lookup _ t => .variable t.slice
  | .negative _ _ value => .literal value.negate
  | .minus _ => .literal (.integer (-1))

def Argument.node? : Argument → Option Node
  | .colon _ => none
  | .operand o => some o.node

def Expression.node : Expression → Node
  | .operand o => o.node
  | .call t args => .call t.slice (args.filterMap Argument.node?)

def Statement.node : Statement → Node
  | .assign _ name _ value => .assign name.slice value.node
  | .expression e => e.node

def Script.program (s : Script) : Program :=
  s.statements.map Statement.node

/-! ## Derivations -/

def IsMinus (t : Token) : Prop :=
  t.kind = .symbol ∧ t.slice = "-"

/-- The token is a number of the given value. -/
def IsNumber (t : Token) (value : Literal) : Prop :=
  t.kind = .number ∧ Literal.ofNumber? t.slice.toList = some value

/-- The token `next` ends the arguments of a call of which `last` is the last token so far. -/
def Closes (last next : Token) : Prop :=
  next.kind = .pipe ∨ next.kind = .assign ∨ next.kind = .eof ∨
    next.kind = .variable ∧ last.span.line < next.span.line

/-- The operand is one of the grammar before the token `next`. -/
def Operand.Derives (next : Token) : Operand → Prop
  | .string t => t.kind = .string
  | .keyword t => t.kind = .keyword
  | .word t => t.kind = .identifier
  | .number t value => IsNumber t value
  | .lookup mark t => mark.kind = .variable ∧ t.kind = .identifier
  | .negative sign t value => IsMinus sign ∧ IsNumber t value
  | .minus t => IsMinus t ∧ next.kind ≠ .number

def Argument.Derives (next : Token) : Argument → Prop
  | .colon t => t.isColon
  | .operand o => o.Derives next

/-- Arguments after the token `last` and before `next`, which closes them and is the first that does. -/
def ArgumentsDerive (next : Token) : Token → List Argument → Prop
  | last, [] => Closes last next
  | last, a :: args => ¬Closes last a.first ∧ a.Derives ((argumentTokens args).headD next) ∧
      ArgumentsDerive next a.last args

def Expression.Derives (next : Token) : Expression → Prop
  | .operand o => o.Derives next
  | .call t args => t.kind = .pipe ∧ ArgumentsDerive next t args

def Statement.Derives (next : Token) : Statement → Prop
  | .assign mark name colon value => mark.kind = .assign ∧ name.kind = .identifier ∧
      (∀ t ∈ colon, t.isColon) ∧ value.Derives next
  | .expression e => e.Derives next

def StatementsDerive (next : Token) : List Statement → Prop
  | [] => True
  | s :: ss => s.Derives ((statementTokens ss).headD next) ∧ StatementsDerive next ss

/-- The script is a derivation of the tokens. -/
structure Script.Derives (s : Script) (ts : List Token) : Prop where
  tokens : s.tokens = ts
  statements : StatementsDerive s.mark s.statements
  mark : s.mark.kind = .eof

instance (t : Token) : Decidable (IsMinus t) :=
  inferInstanceAs (Decidable (_ ∧ _))

instance (t : Token) (value : Literal) : Decidable (IsNumber t value) :=
  inferInstanceAs (Decidable (_ ∧ _))

instance (last next : Token) : Decidable (Closes last next) :=
  inferInstanceAs (Decidable (_ ∨ _))

instance (next : Token) : (o : Operand) → Decidable (o.Derives next)
  | .string _ | .keyword _ | .word _ => inferInstanceAs (Decidable (_ = _))
  | .number t value => inferInstanceAs (Decidable (IsNumber t value))
  | .lookup _ _ | .negative _ _ _ | .minus _ => inferInstanceAs (Decidable (_ ∧ _))

instance (next : Token) : (a : Argument) → Decidable (a.Derives next)
  | .colon _ => inferInstanceAs (Decidable (_ = true))
  | .operand o => inferInstanceAs (Decidable (o.Derives next))

instance ArgumentsDerive.decide (next : Token) :
    (last : Token) → (args : List Argument) → Decidable (ArgumentsDerive next last args)
  | last, [] => inferInstanceAs (Decidable (Closes last next))
  | _, a :: args =>
    have := ArgumentsDerive.decide next a.last args
    inferInstanceAs (Decidable (_ ∧ _ ∧ _))

instance (next : Token) : (e : Expression) → Decidable (e.Derives next)
  | .operand o => inferInstanceAs (Decidable (o.Derives next))
  | .call _ _ => inferInstanceAs (Decidable (_ ∧ _))

instance (next : Token) : (s : Statement) → Decidable (s.Derives next)
  | .assign _ _ _ _ => inferInstanceAs (Decidable (_ ∧ _ ∧ _ ∧ _))
  | .expression e => inferInstanceAs (Decidable (e.Derives next))

instance StatementsDerive.decide (next : Token) : (ss : List Statement) → Decidable (StatementsDerive next ss)
  | [] => inferInstanceAs (Decidable True)
  | _ :: ss =>
    have := StatementsDerive.decide next ss
    inferInstanceAs (Decidable (_ ∧ _))

/-! ## There is one derivation at most -/

variable {next last : Token} {rest rest' : List Token}

theorem headD_append (ts us : List Token) (t : Token) : (ts ++ us).headD t = ts.headD (us.headD t) := by
  cases ts <;> rfl

/-- An operand is known by its first token and what follows: whether a minus sign stands alone is
decided by the token after it. -/
theorem Operand.Derives.unique {o o' : Operand} (ho : o.Derives (rest.headD next))
    (ho' : o'.Derives (rest'.headD next)) (hfirst : o.first = o'.first)
    (htokens : o.others ++ rest = o'.others ++ rest') : o = o' ∧ rest = rest' := by
  cases o <;> cases o'
  case negative.minus sign t value sign' =>
    obtain rfl : t :: rest = rest' := htokens
    exact absurd ho.2.1 ho'.2
  case minus.negative sign' sign t value =>
    obtain rfl : rest = t :: rest' := htokens
    exact absurd ho'.2.1 ho.2
  all_goals simp_all [Operand.Derives, first, others, IsMinus, IsNumber]

theorem Operand.Derives.first_not_colon {o : Operand} (ho : o.Derives next) : o.first.isColon = false := by
  cases o <;> simp_all [Operand.Derives, first, Token.isColon, IsMinus, IsNumber]

theorem Argument.Derives.unique {a a' : Argument} (ha : a.Derives (rest.headD next))
    (ha' : a'.Derives (rest'.headD next)) (htokens : a.tokens ++ rest = a'.tokens ++ rest') :
    a = a' ∧ rest = rest' := by
  obtain ⟨hfirst, hothers⟩ := List.cons_eq_cons.1 htokens
  cases a <;> cases a'
  case colon.colon => exact ⟨congrArg Argument.colon hfirst, hothers⟩
  case colon.operand t o =>
    obtain rfl : t = o.first := hfirst
    exact absurd ha (by simp [Argument.Derives, Operand.Derives.first_not_colon ha'])
  case operand.colon o t =>
    obtain rfl : o.first = t := hfirst
    exact absurd ha' (by simp [Argument.Derives, Operand.Derives.first_not_colon ha])
  case operand.operand o o' =>
    obtain ⟨rfl, hrest⟩ := Operand.Derives.unique ha ha' hfirst hothers
    exact ⟨rfl, hrest⟩

/-- Arguments are known by what follows the token before them. -/
theorem ArgumentsDerive.unique {args args' : List Argument}
    (h : ArgumentsDerive (rest.headD next) last args) (h' : ArgumentsDerive (rest'.headD next) last args')
    (htokens : argumentTokens args ++ rest = argumentTokens args' ++ rest') : args = args' ∧ rest = rest' := by
  induction args generalizing last args' with
  | nil =>
    cases args' with
    | nil => exact ⟨rfl, htokens⟩
    | cons a' args' =>
      -- the first argument of the one would close the arguments of the other
      obtain rfl : rest = argumentTokens (a' :: args') ++ rest' := htokens
      exact absurd h h'.1
  | cons a args ih =>
    cases args' with
    | nil =>
      obtain rfl : argumentTokens (a :: args) ++ rest = rest' := htokens
      exact absurd h' h.1
    | cons a' args' =>
      obtain ⟨-, ha, h⟩ := h
      obtain ⟨-, ha', h'⟩ := h'
      rw [← headD_append] at ha ha'
      simp only [argumentTokens, List.flatMap_cons, List.append_assoc] at htokens
      obtain ⟨rfl, hothers⟩ := ha.unique ha' htokens
      obtain ⟨rfl, hrest⟩ := ih h h' hothers
      exact ⟨rfl, hrest⟩

theorem Operand.Derives.first_not_pipe {o : Operand} (ho : o.Derives next) : o.first.kind ≠ .pipe := by
  cases o <;> simp_all [Operand.Derives, first, IsMinus, IsNumber]

theorem Operand.Derives.first_not_assign {o : Operand} (ho : o.Derives next) : o.first.kind ≠ .assign := by
  cases o <;> simp_all [Operand.Derives, first, IsMinus, IsNumber]

theorem Expression.Derives.first_not_colon {e : Expression} (he : e.Derives next) : e.first.isColon = false := by
  cases e with
  | operand o => exact Operand.Derives.first_not_colon he
  | call t args => simp [first, Token.isColon, he.1]

theorem Expression.Derives.first_not_assign {e : Expression} (he : e.Derives next) : e.first.kind ≠ .assign := by
  cases e with
  | operand o => exact Operand.Derives.first_not_assign he
  | call t args => simp [first, he.1]

theorem Expression.Derives.unique {e e' : Expression} (he : e.Derives (rest.headD next))
    (he' : e'.Derives (rest'.headD next)) (hfirst : e.first = e'.first)
    (htokens : e.others ++ rest = e'.others ++ rest') : e = e' ∧ rest = rest' := by
  cases e <;> cases e'
  case operand.operand o o' =>
    obtain ⟨rfl, hrest⟩ := Operand.Derives.unique he he' hfirst htokens
    exact ⟨rfl, hrest⟩
  case operand.call o t args =>
    obtain rfl : o.first = t := hfirst
    exact absurd he'.1 (Operand.Derives.first_not_pipe he)
  case call.operand t args o =>
    obtain rfl : t = o.first := hfirst
    exact absurd he.1 (Operand.Derives.first_not_pipe he')
  case call.call t args t' args' =>
    obtain rfl : t = t' := hfirst
    obtain ⟨rfl, hrest⟩ := ArgumentsDerive.unique he.2 he'.2 htokens
    exact ⟨rfl, hrest⟩

theorem Statement.Derives.unique {s s' : Statement} (hs : s.Derives (rest.headD next))
    (hs' : s'.Derives (rest'.headD next)) (htokens : s.tokens ++ rest = s'.tokens ++ rest') :
    s = s' ∧ rest = rest' := by
  obtain ⟨hfirst, hothers⟩ := List.cons_eq_cons.1 htokens
  cases s <;> cases s'
  case expression.expression e e' =>
    obtain ⟨rfl, hrest⟩ := Expression.Derives.unique hs hs' hfirst hothers
    exact ⟨rfl, hrest⟩
  case expression.assign e mark name colon value =>
    obtain rfl : e.first = mark := hfirst
    exact absurd hs'.1 (Expression.Derives.first_not_assign hs)
  case assign.expression mark name colon value e =>
    obtain rfl : mark = e.first := hfirst
    exact absurd hs.1 (Expression.Derives.first_not_assign hs')
  case assign.assign mark name colon value mark' name' colon' value' =>
    obtain ⟨-, -, hcolon, hv⟩ := hs
    obtain ⟨-, -, hcolon', hv'⟩ := hs'
    obtain rfl : mark = mark' := hfirst
    obtain ⟨rfl, hafter⟩ : name = name' ∧ colon.toList ++ value.first :: value.others ++ rest =
        colon'.toList ++ value'.first :: value'.others ++ rest' := List.cons_eq_cons.1 hothers
    rw [List.append_assoc, List.append_assoc] at hafter
    -- a colon in one place only would be the first token of the value in the other
    cases colon with
    | none =>
      cases colon' with
      | none =>
        obtain ⟨hhead, hvalue⟩ := List.cons_eq_cons.1 hafter
        obtain ⟨rfl, hrest⟩ := hv.unique hv' hhead hvalue
        exact ⟨rfl, hrest⟩
      | some t =>
        obtain ⟨rfl, -⟩ := List.cons_eq_cons.1 hafter
        exact absurd (hcolon' _ rfl) (by simp [hv.first_not_colon])
    | some t =>
      cases colon' with
      | none =>
        obtain ⟨rfl, -⟩ := List.cons_eq_cons.1 hafter
        exact absurd (hcolon _ rfl) (by simp [hv'.first_not_colon])
      | some t' =>
        obtain ⟨rfl, hsame⟩ := List.cons_eq_cons.1 hafter
        obtain ⟨hhead, hvalue⟩ := List.cons_eq_cons.1 hsame
        obtain ⟨rfl, hrest⟩ := hv.unique hv' hhead hvalue
        exact ⟨rfl, hrest⟩

theorem StatementsDerive.unique {ss ss' : List Statement} (h : StatementsDerive next ss)
    (h' : StatementsDerive next ss') (htokens : statementTokens ss = statementTokens ss') : ss = ss' := by
  induction ss generalizing ss' with
  | nil =>
    cases ss' with
    | nil => rfl
    | cons s' ss' => cases htokens
  | cons s ss ih =>
    cases ss' with
    | nil => cases htokens
    | cons s' ss' =>
      obtain ⟨rfl, hothers⟩ := h.1.unique h'.1 htokens
      rw [ih h.2 h'.2 hothers]

/-- Tokens have one derivation at most. -/
theorem Script.Derives.unique {s s' : Script} {ts : List Token} (h : s.Derives ts) (h' : s'.Derives ts) :
    s = s' := by
  obtain ⟨ss, mark⟩ := s
  obtain ⟨ss', mark'⟩ := s'
  obtain ⟨htokens, hmark⟩ := List.append_inj' (h.tokens.trans h'.tokens.symm) rfl
  obtain rfl : mark = mark' := List.singleton_inj.1 hmark
  obtain rfl : ss = ss' := h.statements.unique h'.statements htokens
  rfl

end PipeScript.Grammar
