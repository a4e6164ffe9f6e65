/-
The numbers in a source. The text of a number token begins with a digit and goes on with digits and points, or
with digits alone where it is the index of an access, so that its points tell how it is read. All number tokens
are read, each of them once. So the malformed ones are reported one by one, in their order, and no others.

A minus sign is read on its own. What it negates is the literal of the digits after it, which is never less
than zero, so that an integer has its opposite there.
-/
import PipeScript.Proofs.Token.Mark
import PipeScript.Proofs.Number.Numeral
import PipeScript.Proofs.Syntax.Grammar
import PipeScript.Proofs.Syntax.Joined

namespace PipeScript

/-! ## Number tokens -/

namespace Lexeme

open Text (IsNumeral)

/-- If the lexeme is a number, its text is that of a number. -/
def SpellsNumeral (l : Lexeme) : Prop :=
  ∀ slice, l.role = .token .number slice → IsNumeral slice

theorem spellsNumeral_of_role {l : Lexeme} (h : ∀ slice, l.role ≠ .token .number slice) : l.SpellsNumeral :=
  fun slice hrole => absurd hrole (h slice)

theorem spellsNumeral_ofRun {kind : TokenKind} {run : List Char}
    (hrun : kind = .number → ∀ c ∈ run, c.isDigit = true) : ∀ l ∈ ofRun kind run, l.SpellsNumeral := by
  intro l hl slice hrole
  obtain ⟨hne, rfl⟩ := mem_ofRun hl
  cases hrole
  obtain ⟨c, run, rfl⟩ := List.exists_cons_of_ne_nil hne
  exact ⟨fun d hd => .inl (hrun rfl d hd), c, rfl, hrun rfl c List.mem_cons_self⟩

theorem spellsNumeral_first (c : Char) (cs : List Char) : ∀ l ∈ (first c cs).lexemes, l.SpellsNumeral := by
  have hname (cs : List Char) : ∀ l ∈ (name cs).lexemes, l.SpellsNumeral := spellsNumeral_ofRun (by simp)
  have hdigits (cs : List Char) : ∀ l ∈ (digits cs).lexemes, l.SpellsNumeral :=
    spellsNumeral_ofRun fun _ _ hd => List.mem_takeWhile_imp hd
  revert cs
  apply first_cases (motive := fun f => ∀ cs, ∀ l ∈ (f cs).lexemes, l.SpellsNumeral)
  case blank | stray | pipe | symbol =>
    intro _ cs
    simp only [running, single, List.mem_singleton, forall_eq]
    exact spellsNumeral_of_role (by simp)
  case mark =>
    rintro kind (⟨-, rfl⟩ | ⟨-, rfl⟩) cs <;>
      exact List.forall_mem_cons.2 ⟨spellsNumeral_of_role (by simp), hname cs⟩
  case access =>
    have hpoint : SpellsNumeral ⟨['.'], .point⟩ := spellsNumeral_of_role (by simp)
    rintro kind index (⟨-, rfl, rfl⟩ | ⟨-, rfl, rfl⟩)
    · exact forall_mem_access (spellsNumeral_of_role (by simp)) hpoint hname hname
    · exact forall_mem_access (spellsNumeral_of_role (by simp)) hpoint hname hdigits
  case string =>
    intro _ cs
    simp only [string, List.mem_singleton, forall_eq]
    split <;> exact spellsNumeral_of_role (by simp)
  case number =>
    intro hdigit cs
    simp only [running, List.mem_singleton, forall_eq]
    rintro slice ⟨⟩
    have hchar : ∀ d ∈ cs.takeWhile isNumberChar, d.isDigit = true ∨ d = '.' := fun d hd => by
      simpa [isNumberChar] using List.mem_takeWhile_imp hd
    exact ⟨List.forall_mem_cons.2 ⟨.inl hdigit, hchar⟩, c, rfl, hdigit⟩
  case word =>
    intro _ cs
    simp only [running, List.mem_singleton, forall_eq]
    rcases wordKind_eq (c :: cs.takeWhile isWordChar) with hkind | hkind <;>
      exact spellsNumeral_of_role (by simp [hkind])

/-- The text of a number token in a source is that of a number. -/
theorem isNumeral_of_mem_tokensAt {cs : List Char} {s : Span} {t : Token} (ht : t ∈ tokensAt s (scan cs))
    (hk : t.kind = .number) : IsNumeral t.slice.toList := by
  obtain ⟨⟨l, s'⟩, hl, hl_token⟩ := List.mem_filterMap.1 ht
  have hrole := role_of_token? hl_token (by simp [hk])
  exact forall_mem_scan spellsNumeral_first cs l (mem_of_mem_placed hl) _ (hk ▸ hrole)

end Lexeme

/-! ## Reports of malformed numbers -/

/-- The recovery is that of a number that is none. -/
def Recovery.isMalformedNumber : Recovery → Bool
  | .malformedNumber _ => true
  | _ => false

/-- The diagnostics that are about numbers that are none. -/
def malformedNumbers (notes : List Diagnostic) : List Diagnostic :=
  notes.filter (·.recovery.isMalformedNumber)

namespace Syntax

/-- What is to be said about the number tokens among some tokens, in their order. -/
def numberNotes (ts : List Token) : List Diagnostic :=
  ts.flatMap fun t => if t.kind = .number then (number t).2 else []

/-- The number tokens of which nothing is left are those that were read, and what is to be said about them was
noted. -/
def NotesNumbers {α : Type} (ts : List Token) (r : Reading α) : Prop :=
  malformedNumbers r.notes ++ numberNotes r.rest = numberNotes ts

variable (stop : Span) {t : Token} {ts rest : List Token}

theorem numberNotes_cons_of_ne (hk : t.kind ≠ .number) (ts : List Token) :
    numberNotes (t :: ts) = numberNotes ts := by
  simp [numberNotes, hk]

theorem numberNotes_cons_of_eq (hk : t.kind = .number) (ts : List Token) :
    numberNotes (t :: ts) = (number t).2 ++ numberNotes ts := by
  simp [numberNotes, hk]

theorem malformedNumbers_number (t : Token) : malformedNumbers (number t).2 = (number t).2 := by
  unfold number
  split <;> rfl

theorem malformedNumbers_append (ds es : List Diagnostic) :
    malformedNumbers (ds ++ es) = malformedNumbers ds ++ malformedNumbers es :=
  List.filter_append ds es

theorem name_notesNumbers (c : Char) (mark : Token) (ts : List Token) : NotesNumbers ts (name stop c mark ts) := by
  cases ts with
  | nil => rfl
  | cons t ts =>
    by_cases hk : t.kind = .identifier
    · have hne : t.kind ≠ .number := by simp [hk]
      simp [NotesNumbers, name, hk, numberNotes_cons_of_ne hne, malformedNumbers]
    · simp [NotesNumbers, name, hk, malformedNumbers, Recovery.isMalformedNumber]

/-- What is read first goes before what is read from the tokens that it leaves over. -/
theorem NotesNumbers.append {α β : Type} {r : Reading α} {r' : Reading β} (h : NotesNumbers ts r)
    (h' : NotesNumbers r.rest r') :
    malformedNumbers (r.notes ++ r'.notes) ++ numberNotes r'.rest = numberNotes ts := by
  rw [malformedNumbers_append, List.append_assoc, h', h]

theorem operand_notesNumbers (t : Token) (rest : List Token) : NotesNumbers (t :: rest) (operand stop t rest) := by
  have hother {notes : List Diagnostic} {a : Node} (hk : t.kind ≠ .number) (hnotes : malformedNumbers notes = []) :
      NotesNumbers (t :: rest) ⟨a, notes, t, rest⟩ := by
    rw [NotesNumbers, hnotes, numberNotes_cons_of_ne hk, List.nil_append]
  have hnumber (hk : t.kind = .number) (a : Node) (last : Token) :
      NotesNumbers (t :: rest) ⟨a, (number t).2, last, rest⟩ := by
    rw [NotesNumbers, malformedNumbers_number, numberNotes_cons_of_eq hk]
  cases hk : t.kind <;> simp only [operand, hk, reduceCtorEq, false_and, true_and, if_false]
  case number => exact hnumber hk _ t
  case «variable» =>
    have hname := name_notesNumbers stop '!' t rest
    rw [NotesNumbers] at hname ⊢
    rw [numberNotes_cons_of_ne (by simp [hk])]
    exact hname
  case symbol =>
    have hne : t.kind ≠ .number := by simp [hk]
    split
    · split
      · next n rest' =>
        split
        · next hn =>
          rw [NotesNumbers, malformedNumbers_number, numberNotes_cons_of_ne hne, numberNotes_cons_of_eq hn]
        · exact hother hne rfl
      · exact hother hne rfl
    · exact hother hne rfl
  all_goals exact hother (by simp [hk]) rfl

theorem kind_ne_number_of_isColon (h : t.isColon = true) : t.kind ≠ .number := by
  have hk : t.kind = .symbol := (of_decide_eq_true h).1
  simp [hk]

theorem arguments_notesNumbers (last : Token) (ts : List Token) : NotesNumbers ts (arguments stop last ts) := by
  fun_induction arguments stop last ts with
  | case1 => rfl
  | case2 => rfl
  | case3 last t rest _ hcolon ih =>
    rw [NotesNumbers, numberNotes_cons_of_ne (kind_ne_number_of_isColon hcolon)]
    exact ih
  | case4 last t rest _ _ first others ih => exact (operand_notesNumbers stop t rest).append ih

theorem expression_notesNumbers (t : Token) (rest : List Token) :
    NotesNumbers (t :: rest) (expression stop t rest) := by
  unfold expression
  split
  · next hk =>
    rw [NotesNumbers, numberNotes_cons_of_ne (by simp [hk])]
    exact arguments_notesNumbers stop t rest
  · exact operand_notesNumbers stop t rest

theorem assigned_notesNumbers (last : Token) (ts : List Token) : NotesNumbers ts (assigned stop last ts) := by
  cases ts with
  | nil => rfl
  | cons t rest => exact expression_notesNumbers stop t rest

theorem numberNotes_skipColon (last : Token) (ts : List Token) :
    numberNotes (skipColon last ts).2 = numberNotes ts := by
  unfold skipColon
  split
  · rfl
  · split
    · next hcolon => exact (numberNotes_cons_of_ne (kind_ne_number_of_isColon hcolon) _).symm
    · rfl

theorem statement_notesNumbers (t : Token) (rest : List Token) :
    NotesNumbers (t :: rest) (statement stop t rest) := by
  unfold statement
  split
  · next hk =>
    have hvalue (last : Token) (ts : List Token) :
        NotesNumbers ts (assigned stop (skipColon last ts).1 (skipColon last ts).2) := by
      rw [NotesNumbers, ← numberNotes_skipColon last ts]
      exact assigned_notesNumbers stop _ _
    rw [NotesNumbers, numberNotes_cons_of_ne (by simp [hk])]
    exact (name_notesNumbers stop '&' t rest).append (hvalue _ _)
  · exact expression_notesNumbers stop t rest

theorem malformedNumbers_statements (ts : List Token) : malformedNumbers (statements stop ts).2 = numberNotes ts := by
  fun_induction statements stop ts with
  | case1 => rfl
  | case2 t rest first others ih =>
    rw [malformedNumbers_append, ih]
    exact statement_notesNumbers stop t rest

theorem number_of_none (h : Literal.ofNumber? t.slice.toList = none) :
    number t = (.null, [⟨.malformedNumber t.slice, t.span⟩]) := by
  rw [number, h]

theorem number_of_some {l : Literal} (h : Literal.ofNumber? t.slice.toList = some l) : number t = (l, []) := by
  rw [number, h]

/-- Where number tokens have texts of numbers, those with two points or more are reported. -/
theorem numberNotes_eq_map (hts : ∀ t ∈ ts, t.kind = .number → Text.IsNumeral t.slice.toList) :
    numberNotes ts = (ts.filter fun t => t.kind = .number ∧ 2 ≤ t.slice.toList.count '.').map fun t =>
      ⟨.malformedNumber t.slice, t.span⟩ := by
  induction ts with
  | nil => rfl
  | cons t ts ih =>
    rw [List.forall_mem_cons] at hts
    by_cases hk : t.kind = .number
    · have hnone := Literal.ofNumber?_eq_none_iff (hts.1 hk)
      rw [numberNotes_cons_of_eq hk, ih hts.2]
      cases hl : Literal.ofNumber? t.slice.toList with
      | none => simp [number_of_none hl, hk, hnone.1 hl]
      | some l =>
        have hfew : ¬2 ≤ t.slice.toList.count '.' := fun htwo => by simp [hnone.2 htwo] at hl
        simp [number_of_some hl, hk, hfew]
    · rw [numberNotes_cons_of_ne hk, ih hts.2, List.filter_cons_of_neg (by simp [hk])]

/-! ## Numbers as operands -/

theorem operand_number (hk : t.kind = .number) (rest : List Token) :
    operand stop t rest = ⟨.literal (number t).1, (number t).2, t, rest⟩ := by
  simp [operand, hk]

theorem operand_minus_number {sign : Token} (hsign : Grammar.IsMinus sign) (hk : t.kind = .number) (rest : List Token) :
    operand stop sign (t :: rest) = ⟨.literal (number t).1.negate, (number t).2, t, rest⟩ := by
  simp [operand, hsign.1, hsign.2, hk]

end Syntax

/-- How a number token is read, as its text tells. -/
structure Token.IsClassified (t : Token) : Prop where
  malformed : Literal.ofNumber? t.slice.toList = none ↔ 2 ≤ t.slice.toList.count '.'
  integer : ∀ n, Literal.ofNumber? t.slice.toList = some (.integer n) ↔
    '.' ∉ t.slice.toList ∧ n.toInt = Text.decimalValue t.slice.toList
  exists_integer : (∃ n, Literal.ofNumber? t.slice.toList = some (.integer n)) ↔
    '.' ∉ t.slice.toList ∧ Text.decimalValue t.slice.toList ≤ 9223372036854775807
  /-- It is a float in all other cases. -/
  exists_float : (∃ x, Literal.ofNumber? t.slice.toList = some (.float x)) ↔
    ¬2 ≤ t.slice.toList.count '.' ∧
      ¬('.' ∉ t.slice.toList ∧ Text.decimalValue t.slice.toList ≤ 9223372036854775807)
  /-- A malformed number is null and reported, with a minus sign as well as without one. -/
  null : 2 ≤ t.slice.toList.count '.' → ∀ stop rest,
    Syntax.operand stop t rest = ⟨.null, [⟨.malformedNumber t.slice, t.span⟩], t, rest⟩ ∧
      ∀ sign, Grammar.IsMinus sign →
        Syntax.operand stop sign (t :: rest) = ⟨.null, [⟨.malformedNumber t.slice, t.span⟩], t, rest⟩
  /-- An integer has its opposite, which is what a minus sign makes of it. -/
  negated : ∀ n, Literal.ofNumber? t.slice.toList = some (.integer n) → ∃ m, Integer.neg? n = some m ∧
    m.toInt = -n.toInt ∧ ∀ stop sign rest, Grammar.IsMinus sign →
      Syntax.operand stop sign (t :: rest) = ⟨.literal (.integer m), [], t, rest⟩

theorem Token.isClassified {t : Token} (hk : t.kind = .number) (ht : Text.IsNumeral t.slice.toList) :
    t.IsClassified where
  malformed := Literal.ofNumber?_eq_none_iff ht
  integer _ := Literal.ofNumber?_eq_integer_iff ht
  exists_integer := Literal.exists_ofNumber?_eq_integer_iff ht
  exists_float := by
    rw [Literal.exists_ofNumber?_eq_float_iff ht, Literal.exists_ofNumber?_eq_integer_iff ht, ne_eq,
      Literal.ofNumber?_eq_none_iff ht]
  null htwo stop rest := by
    have hnumber := Syntax.number_of_none ((Literal.ofNumber?_eq_none_iff ht).2 htwo)
    refine ⟨?_, fun sign hsign => ?_⟩
    · rw [Syntax.operand_number stop hk, hnumber]
      rfl
    · rw [Syntax.operand_minus_number stop hsign hk, hnumber]
      rfl
  negated n hn := by
    have hnumeral := Literal.ofNumeral_ofNumber? ht
    rw [hn] at hnumeral
    obtain ⟨m, hm, hvalue⟩ := hnumeral.exists_neg
    refine ⟨m, hm, hvalue, fun stop sign rest hsign => ?_⟩
    rw [Syntax.operand_minus_number stop hsign hk, Syntax.number_of_some hn, Literal.negate, hm]

/-- A number token of a source is read as its points and digits tell: with two points or more it is malformed,
without one it is the integer of its digits if that fits, and else it is a float. The opposite of an integer
always fits. Of all tokens the malformed numbers, and only these, are reported as such, each of them once. -/
theorem numbers_classified (source : String) :
    (∀ t ∈ (lex source).tokens, t.kind = .number → t.IsClassified) ∧
      malformedNumbers (parse (lex source).tokens).diagnostics =
        ((lex source).tokens.filter fun t => t.kind = .number ∧ 2 ≤ t.slice.toList.count '.').map fun t =>
          ⟨.malformedNumber t.slice, t.span⟩ := by
  have hnumeral : ∀ t ∈ (lex source).tokens, t.kind = .number → Text.IsNumeral t.slice.toList := by
    rw [tokens_lex, List.forall_mem_append, List.forall_mem_singleton]
    exact ⟨fun t ht hk => Lexeme.isNumeral_of_mem_tokensAt ht hk, nofun⟩
  refine ⟨fun t ht hk => Token.isClassified hk (hnumeral t ht hk), ?_⟩
  have hend : Syntax.numberNotes (lex source).tokens =
      Syntax.numberNotes (Lexeme.tokensAt .start (Lexeme.scan source.toList)) := by
    simp [tokens_lex, Syntax.numberNotes]
  rw [← Syntax.numberNotes_eq_map hnumeral, hend, parse_lex]
  exact Syntax.malformedNumbers_statements _ _

/-- An integer with zeros before it, one that does not fit, and what is no number. -/
theorem numbers_classified_mixed :
    let source := "-007 9223372036854775808 1.2.3"
    (lex source).tokens = [⟨.symbol, "-", ⟨1, 1⟩⟩, ⟨.number, "007", ⟨1, 2⟩⟩, ⟨.number, "9223372036854775808", ⟨1, 6⟩⟩,
      ⟨.number, "1.2.3", ⟨1, 26⟩⟩, ⟨.eof, "", ⟨1, 31⟩⟩] ∧
    Literal.ofNumber? "007".toList = some (.integer 7) ∧
    (∃ x, Literal.ofNumber? "9223372036854775808".toList = some (.float x)) ∧
    Literal.ofNumber? "1.2.3".toList = none ∧
    malformedNumbers (parse (lex source).tokens).diagnostics = [⟨.malformedNumber "1.2.3", ⟨1, 26⟩⟩] := by
  intro source
  have htokens : (lex source).tokens = [⟨.symbol, "-", ⟨1, 1⟩⟩, ⟨.number, "007", ⟨1, 2⟩⟩,
      ⟨.number, "9223372036854775808", ⟨1, 6⟩⟩, ⟨.number, "1.2.3", ⟨1, 26⟩⟩, ⟨.eof, "", ⟨1, 31⟩⟩] := by decide +kernel
  obtain ⟨hnumbers, hnotes⟩ := numbers_classified source
  rw [htokens] at hnumbers
  refine ⟨htokens, (hnumbers ⟨.number, "007", ⟨1, 2⟩⟩ (by simp) rfl).integer 7 |>.2 (by decide +kernel),
    (hnumbers ⟨.number, "9223372036854775808", ⟨1, 6⟩⟩ (by simp) rfl).exists_float.2 (by decide +kernel),
    (hnumbers ⟨.number, "1.2.3", ⟨1, 26⟩⟩ (by simp) rfl).malformed.2 (by decide +kernel), hnotes.trans ?_⟩
  rw [htokens]
  rfl

end PipeScript
