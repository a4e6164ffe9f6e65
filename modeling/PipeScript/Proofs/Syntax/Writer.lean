/-
Writing scripts. The text of a script has a line for each statement, and every part of it can be
told from what follows: a name, word or number ends where the next argument or the next line begins.
Scripts that can be written hold names that are names, no floats, and not the least integer, of which
the digits alone are no integer; and no bare literal follows a call, which would take it for one more
argument.
-/
import Mathlib.Data.List.Chain
import PipeScript.Decimal.Layout
import PipeScript.Proofs.Number.Integer
import PipeScript.Proofs.Token.Lexer
import PipeScript.Syntax

namespace PipeScript

/-! ## Texts -/

/-- The text of a literal. -/
def Literal.written : Literal → List Char
  | .null => "null".toList
  | .boolean b => if b then "true".toList else "false".toList
  | .integer n => Integer.text n
  | .float x => Decimal.text .value x
  | .string s => '"' :: (s.toList.flatMap Lexeme.escape ++ ['"'])

mutual

/-- The text of a node. -/
def Node.written : Node → List Char
  | .literal l => l.written
  | .variable name => '!' :: name.toList
  | .call name args => '|' :: (name.toList ++ Node.argumentsWritten args)
  | .assign name value => '&' :: (name.toList ++ ':' :: value.written)

/-- The text of the arguments of a call. -/
def Node.argumentsWritten : List Node → List Char
  | [] => []
  | a :: args => ':' :: (a.written ++ Node.argumentsWritten args)

end

/-- The text of a script: a line for each statement. -/
def Program.written (p : Program) : List Char :=
  p.flatMap fun s => s.written ++ ['\n']

/-- The source of a script. -/
def Program.source (p : Program) : String :=
  String.ofList (Program.written p)

/-! ## Scripts that can be written -/

/-- Literals that are read as they are written. -/
def Literal.Writable : Literal → Prop
  | .integer n => n ≠ Int64.minValue
  | .float _ => False
  | _ => True

instance (l : Literal) : Decidable l.Writable :=
  match l with
  | .integer _ => inferInstanceAs (Decidable (_ ≠ _))
  | .float _ => inferInstanceAs (Decidable False)
  | .null | .boolean _ | .string _ => inferInstanceAs (Decidable True)

/-- Names of variables. -/
def IsName (name : String) : Prop :=
  name.toList ≠ [] ∧ ∀ c ∈ name.toList, isNameChar c = true

instance (name : String) : Decidable (IsName name) :=
  decidable_of_iff (name.toList ≠ [] ∧ name.toList.all isNameChar = true) (by rw [List.all_eq_true]; rfl)

/-- Arguments of calls. -/
inductive Node.Operand : Node → Prop
  | ofLiteral {l : Literal} : l.Writable → Operand (.literal l)
  | ofVariable {name : String} : IsName name → Operand (.variable name)

/-- Values of assignments. -/
inductive Node.Expression : Node → Prop
  | operand {a : Node} : a.Operand → Expression a
  | call {name : String} {args : List Node} : (∀ c ∈ name.toList, isWordChar c = true) →
      (∀ a ∈ args, a.Operand) → Expression (.call name args)

/-- Lines of scripts. -/
inductive Node.Statement : Node → Prop
  | expression {a : Node} : a.Expression → Statement a
  | assign {name : String} {value : Node} : IsName name → value.Expression →
      Statement (.assign name value)

/-- Whether the last thing that is read for a node are the arguments of a call. -/
def Node.endsInCall : Node → Bool
  | .call _ _ => true
  | .assign _ value => value.endsInCall
  | _ => false

/-- Whether a node is a bare literal. -/
def Node.isLiteral : Node → Bool
  | .literal _ => true
  | _ => false

/-- Scripts that can be written. -/
structure Program.Writable (p : Program) : Prop where
  statements : ∀ s ∈ p, s.Statement
  apart : p.IsChain fun s t => s.endsInCall → ¬t.isLiteral

/-! ## Lexemes -/

/-- The lexeme of a run of characters that is a token as it is. -/
def Lexeme.run (kind : TokenKind) (cs : List Char) : Lexeme :=
  ⟨cs, .token kind cs⟩

/-- The lexemes of a literal. -/
def Literal.lexemes : Literal → List Lexeme
  | .null => [.run .keyword "null".toList]
  | .boolean b => [.run .keyword (if b then "true".toList else "false".toList)]
  | .integer n =>
    (if n.toInt < 0 then [.run .symbol ['-']] else []) ++ [.run .number (Text.digitsOf n.toInt.natAbs)]
  | .float _ => []
  | .string s => [⟨(Literal.string s).written, .token .string s.toList⟩]

mutual

/-- The lexemes of a node. -/
def Node.lexemes : Node → List Lexeme
  | .literal l => l.lexemes
  | .variable name => [⟨['!'], .token .variable []⟩, .run .identifier name.toList]
  | .call name args => ⟨'|' :: name.toList, .token .pipe name.toList⟩ :: Node.argumentsLexemes args
  | .assign name value =>
    ⟨['&'], .token .assign []⟩ :: .run .identifier name.toList :: .run .symbol [':'] :: value.lexemes

/-- The lexemes of the arguments of a call. -/
def Node.argumentsLexemes : List Node → List Lexeme
  | [] => []
  | a :: args => .run .symbol [':'] :: (a.lexemes ++ Node.argumentsLexemes args)

end

/-- The lexemes of a script. -/
def Program.lexemes (p : Program) : List Lexeme :=
  p.flatMap fun s => s.lexemes ++ [⟨['\n'], .blank⟩]

/-! ## The lexemes of what is written -/

open Lexeme

theorem Literal.scan_written {l : Literal} (hl : l.Writable) {cs : List Char} (hcs : EndsRun cs) :
    scan (l.written ++ cs) = l.lexemes ++ scan cs := by
  match l, hl with
  | .null, _ => exact scan_keyword (by decide) hcs
  | .boolean true, _ => exact scan_keyword (by decide) hcs
  | .boolean false, _ => exact scan_keyword (by decide) hcs
  | .integer n, _ =>
    have hdigits := scan_digits (Text.digitsOf_ne_nil n.toInt.natAbs)
      (fun c hc => Text.isDigit_of_mem_digitsOf hc) hcs
    rw [written, lexemes, Integer.text]
    by_cases hn : n.toInt < 0
    · rw [if_pos hn, if_pos hn]
      simp [scan_minus, hdigits, run]
    · rw [if_neg hn, if_neg hn]
      simp [hdigits, run]
  | .string s, _ =>
    rw [written, List.cons_append, List.append_assoc, List.singleton_append, scan_string]
    rfl

theorem Node.Operand.scan_written {a : Node} (ha : a.Operand) {cs : List Char} (hcs : EndsRun cs) :
    scan (a.written ++ cs) = a.lexemes ++ scan cs := by
  cases ha with
  | ofLiteral hl => exact Literal.scan_written hl hcs
  | ofVariable hn => exact scan_variable hn.1 hn.2 hcs

theorem Node.endsRun_argumentsWritten (args : List Node) {cs : List Char} (hcs : EndsRun cs) :
    EndsRun (Node.argumentsWritten args ++ cs) := by
  cases args with
  | nil => exact hcs
  | cons a args => exact endsRun_colon _

theorem Node.scan_argumentsWritten {args : List Node} (hargs : ∀ a ∈ args, a.Operand) {cs : List Char}
    (hcs : EndsRun cs) :
    scan (Node.argumentsWritten args ++ cs) = Node.argumentsLexemes args ++ scan cs := by
  induction args with
  | nil => rfl
  | cons a args ih =>
    rw [List.forall_mem_cons] at hargs
    rw [argumentsWritten, argumentsLexemes, List.cons_append, scan_colon, List.append_assoc,
      hargs.1.scan_written (endsRun_argumentsWritten args hcs), ih hargs.2]
    simp [run]

theorem Node.Expression.scan_written {a : Node} (ha : a.Expression) {cs : List Char} (hcs : EndsRun cs) :
    scan (a.written ++ cs) = a.lexemes ++ scan cs := by
  cases ha with
  | operand ha => exact ha.scan_written hcs
  | @call name args hname hargs =>
    rw [written, lexemes, List.cons_append, List.append_assoc,
      scan_pipe hname (endsRun_argumentsWritten args hcs), scan_argumentsWritten hargs hcs]
    rfl

theorem Node.Statement.scan_written {a : Node} (ha : a.Statement) {cs : List Char} (hcs : EndsRun cs) :
    scan (a.written ++ cs) = a.lexemes ++ scan cs := by
  cases ha with
  | expression ha => exact ha.scan_written hcs
  | assign hname hvalue =>
    rw [written, lexemes, List.cons_append, List.append_assoc, List.cons_append,
      scan_assign hname.1 hname.2 (endsRun_colon _), scan_colon, hvalue.scan_written hcs]
    rfl

theorem Literal.written_eq_cons {l : Literal} (hl : l.Writable) :
    ∃ c cs, l.written = c :: cs ∧ Text.isBlank c = false := by
  match l, hl with
  | .null, _ => exact ⟨_, _, rfl, by decide⟩
  | .boolean true, _ => exact ⟨_, _, rfl, by decide⟩
  | .boolean false, _ => exact ⟨_, _, rfl, by decide⟩
  | .string s, _ => exact ⟨_, _, rfl, by decide⟩
  | .integer n, _ =>
    rw [written, Integer.text]
    by_cases hn : n.toInt < 0
    · rw [if_pos hn]
      exact ⟨_, _, rfl, by decide⟩
    · rw [if_neg hn]
      obtain ⟨c, cs, hdigits⟩ := List.exists_cons_of_ne_nil (Text.digitsOf_ne_nil n.toInt.natAbs)
      have hc : c.isDigit := Text.isDigit_of_mem_digitsOf (hdigits ▸ List.mem_cons_self)
      exact ⟨c, cs, hdigits, isBlank_of_isDigit hc⟩

/-- A statement begins with a mark, a letter, a digit, a sign or a quote, and not with a blank. -/
theorem Node.Statement.written_eq_cons {a : Node} (ha : a.Statement) :
    ∃ c cs, a.written = c :: cs ∧ Text.isBlank c = false := by
  rcases ha with ((hl | _) | _) | _
  · exact Literal.written_eq_cons hl
  all_goals exact ⟨_, _, rfl, by decide⟩

theorem Program.scan_written {p : Program} (hp : ∀ s ∈ p, s.Statement) :
    scan (Program.written p) = Program.lexemes p := by
  induction p with
  | nil => exact scan_nil
  | cons s p ih =>
    rw [List.forall_mem_cons] at hp
    -- the blank ends with the line feed, since no statement begins with a blank
    have hline : scan ('\n' :: Program.written p) = ⟨['\n'], .blank⟩ :: scan (Program.written p) := by
      refine scan_newline fun c hc => ?_
      rcases p with _ | ⟨t, p⟩
      · cases hc
      · obtain ⟨c', cs, ht, hblank⟩ := (hp.2 t List.mem_cons_self).written_eq_cons
        rw [written, List.flatMap_cons, ht] at hc
        cases hc
        exact hblank
    rw [ih hp.2] at hline
    show scan (s.written ++ ['\n'] ++ Program.written p) = s.lexemes ++ [⟨['\n'], .blank⟩] ++ Program.lexemes p
    rw [List.append_assoc, List.append_assoc, List.singleton_append, List.singleton_append,
      hp.1.scan_written (endsRun_newline _), hline]

/-! ## Texts and roles of the lexemes -/

theorem flatMap_text_of_scan {written : List Char} {ls : List Lexeme}
    (h : scan (written ++ ['\n']) = ls ++ scan ['\n']) : ls.flatMap (·.text) = written := by
  have htext := congrArg (List.flatMap (·.text)) h
  rw [List.flatMap_append, flatMap_text_scan, flatMap_text_scan] at htext
  exact (List.append_cancel_right htext).symm

theorem Node.Statement.flatMap_text {a : Node} (ha : a.Statement) :
    a.lexemes.flatMap (·.text) = a.written :=
  flatMap_text_of_scan (ha.scan_written (endsRun_newline []))

theorem Node.Operand.flatMap_text {a : Node} (ha : a.Operand) : a.lexemes.flatMap (·.text) = a.written :=
  Node.Statement.flatMap_text (.expression (.operand ha))

theorem plain_token (text slice : List Char) {kind : TokenKind} (hkind : kind ≠ .eof) :
    Plain ⟨text, .token kind slice⟩ :=
  .inr ⟨kind, slice, hkind, rfl⟩

theorem Literal.plain (l : Literal) : ∀ x ∈ l.lexemes, x.Plain := by
  cases l with
  | float => exact fun x hx => nomatch hx
  | integer n =>
    rw [lexemes]
    split <;> simp [run, plain_token]
  | _ =>
    rintro x (_ | ⟨_, ⟨⟩⟩)
    exact plain_token _ _ (by decide)

mutual

theorem Node.plain : (a : Node) → ∀ x ∈ a.lexemes, x.Plain
  | .literal l => l.plain
  | .variable name => by simp [lexemes, run, plain_token]
  | .call name args => by
    have hargs := argumentsLexemes_plain args
    simpa [lexemes, plain_token] using hargs
  | .assign name value => by
    have hvalue := value.plain
    simpa [lexemes, run, plain_token] using hvalue

theorem Node.argumentsLexemes_plain : (args : List Node) → ∀ x ∈ Node.argumentsLexemes args, x.Plain
  | [] => fun x hx => nomatch hx
  | a :: args => by
    have ha := a.plain
    have hargs := argumentsLexemes_plain args
    simp only [argumentsLexemes, List.mem_cons, List.mem_append]
    rintro x (rfl | hx | hx)
    · exact plain_token _ _ (by decide)
    · exact ha x hx
    · exact hargs x hx

end

theorem Program.plain (p : Program) : ∀ x ∈ Program.lexemes p, x.Plain := by
  intro x hx
  obtain ⟨s, -, hx⟩ := List.mem_flatMap.1 hx
  rcases List.mem_append.1 hx with hx | hx
  · exact s.plain x hx
  · rw [List.mem_singleton.1 hx]
    exact .inl rfl

end PipeScript
