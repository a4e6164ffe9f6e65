/-
How lexemes are written. What a lexeme is tells what its text can be: a mark is one character, a run consists
of the characters that its rule goes on with, and inside of the quotes of a string there is no other quote but
after a backslash. The rest of what is said about the text of lexemes follows from that.
-/
import Mathlib.Data.List.TakeWhile
import PipeScript.Proofs.Token.Lexer

namespace PipeScript

namespace Lexeme

/-! ## How lexemes are written -/

/-- The text inside of quotes that stands for a value. A backslash takes the next character with it, and no
quote stands for itself. -/
inductive Inside : List Char → List Char → Prop
  | nil : Inside [] []
  | plain {c : Char} {text value : List Char} :
    c ≠ '"' → c ≠ '\\' → Inside text value → Inside (c :: text) (c :: value)
  | escaped (c : Char) {text value : List Char} :
    Inside text value → Inside ('\\' :: c :: text) (unescaped c :: value)

/-- A string with its closing quote. -/
def Closed (text value : List Char) : Prop :=
  ∃ inner, text = '"' :: (inner ++ ['"']) ∧ Inside inner value

/-- A string without a closing quote. A backslash at its end stands for itself. -/
def Unclosed (text value : List Char) : Prop :=
  ∃ inner front, Inside inner front ∧
    (text = '"' :: inner ∧ value = front ∨ text = '"' :: (inner ++ ['\\']) ∧ value = front ++ ['\\'])

/-- How a token is written. -/
def Spells (text slice : List Char) : TokenKind → Prop
  | .pipe => text = '|' :: slice ∧ ∀ c ∈ slice, isWordChar c = true
  | .variable => text = ['!'] ∧ slice = []
  | .assign => text = ['&'] ∧ slice = []
  | .objectAccess => text = ['@'] ∧ slice = []
  | .arrayAccess => text = ['#'] ∧ slice = []
  | .symbol => text = slice ∧ ∃ c ∈ symbols, slice = [c]
  | .string => Closed text slice
  | .number => text = slice ∧ slice ≠ [] ∧ ∀ c ∈ slice, isNumberChar c = true
  | .identifier => text = slice ∧ slice ≠ [] ∧ ∀ c ∈ slice, isWordChar c = true
  | .keyword => text = slice ∧ slice ∈ keywords
  | .eof => False

/-- The text of the lexeme is as its role has it. -/
def Written (l : Lexeme) : Prop :=
  match l.role with
  | .blank => l.text ≠ [] ∧ ∀ c ∈ l.text, Text.isBlank c = true
  | .point => l.text = ['.']
  | .stray c => l.text = [c] ∧ ¬Begins c
  | .token kind slice => Spells l.text slice kind
  | .openString value => Unclosed l.text value

/-- Inside of quotes there is no quote but after a backslash, so the first other quote is the closing one. -/
theorem Inside.not_quote {inner value : List Char} (h : Inside inner value) (more other : List Char) :
    ¬Inside (inner ++ '"' :: more) other := by
  intro hquote
  generalize hw : inner ++ '"' :: more = word at hquote
  induction h generalizing word other with
  | nil =>
    subst hw
    cases hquote with
    | plain hc => exact hc rfl
  | @plain c text value hc hslash _ ih =>
    cases hquote with
    | nil => cases hw
    | plain _ _ h => exact ih _ _ (List.cons_eq_cons.1 hw).2 h
    | escaped => exact hslash (List.cons_eq_cons.1 hw).1
  | escaped c _ ih =>
    cases hquote with
    | nil => cases hw
    | plain _ hslash => exact hslash (List.cons_eq_cons.1 hw).1.symm
    | escaped _ h => exact ih _ _ (List.cons_eq_cons.1 (List.cons_eq_cons.1 hw).2).2 h

/-- A string that is read as cut off has no closing quote at its end. -/
theorem Unclosed.not_closed {text value : List Char} (h : Unclosed text value) (other : List Char) :
    ¬Closed text other := by
  rintro ⟨inner, rfl, hinner⟩
  obtain ⟨inner', front, hinside, ⟨htext, -⟩ | ⟨htext, -⟩⟩ := h
  · rw [← (List.cons_eq_cons.1 htext).2] at hinside
    exact hinner.not_quote [] _ hinside
  · exact absurd (List.append_inj_right' (List.cons_eq_cons.1 htext).2 rfl) (by decide)

/-- The text read inside of quotes, up to a closing quote or to the end of the source. -/
inductive StringBody.Written : StringBody → Prop
  | closed {inner value : List Char} (rest : List Char) :
    Inside inner value → Written ⟨value, inner ++ ['"'], rest, true⟩
  | cut {inner value : List Char} : Inside inner value → Written ⟨value, inner, [], false⟩
  | backslash {inner value : List Char} :
    Inside inner value → Written ⟨value ++ ['\\'], inner ++ ['\\'], [], false⟩

/-- One more character, or two with a backslash, go before what is read. -/
theorem StringBody.Written.push {b : StringBody} (hb : b.Written) {c : Char} {text : List Char}
    (h : ∀ {inner value}, Inside inner value → Inside (text ++ inner) (c :: value)) : (b.push c text).Written := by
  cases hb with
  | closed rest hinner =>
    rw [StringBody.push, ← List.append_assoc]
    exact .closed rest (h hinner)
  | cut hinner => exact .cut (h hinner)
  | backslash hinner =>
    rw [StringBody.push, ← List.append_assoc, ← List.cons_append]
    exact .backslash (h hinner)

theorem stringBody_written (cs : List Char) : (stringBody cs).Written := by
  induction cs using stringBody_induction with
  | nil => exact .cut .nil
  | quote rest => exact .closed rest .nil
  | backslash => exact .backslash .nil
  | escaped c rest ih => exact ih.push (.escaped c)
  | plain c rest hc ih =>
    rw [stringBody_cons hc]
    exact ih.push (.plain (not_or.1 hc).2 (not_or.1 hc).1)

theorem written_string (cs : List Char) : ∀ l ∈ (string cs).lexemes, l.Written := by
  have hbody := stringBody_written cs
  simp only [string, List.mem_singleton, forall_eq]
  generalize stringBody cs = body at hbody
  cases hbody with
  | closed rest hinner => exact ⟨_, rfl, hinner⟩
  | cut hinner => exact ⟨_, _, hinner, .inl ⟨rfl, rfl⟩⟩
  | backslash hinner => exact ⟨_, _, hinner, .inr ⟨rfl, rfl⟩⟩

/-! ## What the rules find -/

theorem isNameChar_of_isLetter {c : Char} (hc : Text.isLetter c = true) : isNameChar c = true := by
  rw [isNameChar, Text.isLetterOrNumeral_of_isLetter hc, Bool.true_or]

theorem mem_ofRun {kind : TokenKind} {run : List Char} {l : Lexeme} (hl : l ∈ ofRun kind run) :
    run ≠ [] ∧ l = ⟨run, .token kind run⟩ := by
  unfold ofRun at hl
  split at hl
  · cases hl
  · next hne => exact ⟨hne, List.mem_singleton.1 hl⟩

theorem written_name (cs : List Char) : ∀ l ∈ (name cs).lexemes, l.Written := by
  intro l hl
  obtain ⟨hne, rfl⟩ := mem_ofRun hl
  exact ⟨rfl, hne, fun c hc => isWordChar_of_isNameChar (List.mem_takeWhile_imp hc)⟩

theorem written_digits (cs : List Char) : ∀ l ∈ (digits cs).lexemes, l.Written := by
  intro l hl
  obtain ⟨hne, rfl⟩ := mem_ofRun hl
  exact ⟨rfl, hne, fun c hc => by simp [isNumberChar, List.mem_takeWhile_imp hc]⟩

theorem wordKind_eq (word : List Char) : wordKind word = .keyword ∨ wordKind word = .identifier := by
  unfold wordKind
  split
  · exact .inl rfl
  · exact .inr rfl

theorem spells_word {word : List Char} (hne : word ≠ []) (hword : ∀ c ∈ word, isWordChar c = true) :
    Spells word word (wordKind word) := by
  unfold wordKind
  split
  · next hkeyword => exact ⟨rfl, List.contains_iff_mem.1 hkeyword⟩
  · exact ⟨rfl, hne, hword⟩

theorem written_first (c : Char) (cs : List Char) : ∀ l ∈ (first c cs).lexemes, l.Written := by
  revert cs
  apply first_cases (motive := fun f => ∀ cs, ∀ l ∈ (f cs).lexemes, l.Written)
  case blank =>
    intro hblank cs
    simp only [running, List.mem_singleton, forall_eq]
    exact ⟨List.cons_ne_nil _ _, List.forall_mem_cons.2 ⟨hblank, fun d hd => List.mem_takeWhile_imp hd⟩⟩
  case pipe =>
    rintro rfl cs
    simp only [running, List.mem_singleton, forall_eq]
    exact ⟨rfl, fun d hd => List.mem_takeWhile_imp hd⟩
  case mark =>
    intro kind hkind cs
    refine List.forall_mem_cons.2 ⟨?_, written_name cs⟩
    rcases hkind with ⟨rfl, rfl⟩ | ⟨rfl, rfl⟩ <;> exact ⟨rfl, rfl⟩
  case access =>
    rintro kind index (⟨rfl, rfl, rfl⟩ | ⟨rfl, rfl, rfl⟩)
    · exact forall_mem_access ⟨rfl, rfl⟩ rfl written_name written_name
    · exact forall_mem_access ⟨rfl, rfl⟩ rfl written_name written_digits
  case string => exact fun _ => written_string
  case symbol =>
    intro hsymbol cs
    simp only [single, List.mem_singleton, forall_eq]
    exact ⟨rfl, c, List.contains_iff_mem.1 hsymbol, rfl⟩
  case number =>
    intro hdigit cs
    simp only [running, List.mem_singleton, forall_eq]
    refine ⟨rfl, List.cons_ne_nil _ _, List.forall_mem_cons.2 ⟨by simp [isNumberChar, hdigit], fun d hd => ?_⟩⟩
    exact List.mem_takeWhile_imp hd
  case word =>
    intro hletter cs
    simp only [running, List.mem_singleton, forall_eq]
    refine spells_word (List.cons_ne_nil _ _) (List.forall_mem_cons.2 ⟨?_, fun d hd => List.mem_takeWhile_imp hd⟩)
    exact isWordChar_of_isNameChar (isNameChar_of_isLetter hletter)
  case stray =>
    intro hbegins cs
    simp only [single, List.mem_singleton, forall_eq]
    exact ⟨rfl, hbegins⟩

theorem written_of_mem_scan {l : Lexeme} {cs : List Char} (hl : l ∈ scan cs) : l.Written :=
  forall_mem_scan written_first cs l hl

/-! ## What follows for the text -/

section

variable {l : Lexeme} {kind : TokenKind} {slice : List Char}

theorem Written.spells (hl : l.Written) (hrole : l.role = .token kind slice) : Spells l.text slice kind := by
  rwa [Written, hrole] at hl

theorem Written.ne_nil (hl : l.Written) : l.text ≠ [] := by
  intro hnil
  rcases l with ⟨text, role⟩
  obtain rfl : text = [] := hnil
  cases role with
  | blank => exact hl.1 rfl
  | point => cases hl
  | stray c => cases hl.1
  | openString value => obtain ⟨inner, front, -, ⟨⟨⟩, -⟩ | ⟨⟨⟩, -⟩⟩ := hl
  | token kind slice =>
    cases kind with
    | symbol =>
      obtain ⟨hslice, c, -, hc⟩ := hl
      cases hslice.trans hc
    | string => obtain ⟨inner, ⟨⟩, -⟩ := hl
    | number | identifier => exact hl.2.1 hl.1.symm
    | keyword =>
      have hslice : [] = slice := hl.1
      have hkeyword : slice ∈ keywords := hl.2
      rw [← hslice] at hkeyword
      exact absurd hkeyword (by decide)
    | eof => exact hl
    | _ => cases hl.1

/-- A token other than a string is written on one line. -/
theorem Spells.newline_not_mem {text : List Char} (h : Spells text slice kind) (hkind : kind ≠ .string) :
    '\n' ∉ text := by
  have hrun {p : Char → Bool} (hp : p '\n' = false) (hslice : ∀ c ∈ slice, p c = true) : '\n' ∉ slice :=
    fun hmem => absurd (hslice _ hmem) (Bool.eq_false_iff.1 hp)
  cases kind with
  | pipe =>
    rw [h.1, List.mem_cons, not_or]
    exact ⟨by decide, hrun (by decide) h.2⟩
  | symbol =>
    obtain ⟨rfl, c, hc, rfl⟩ := h
    intro hmem
    obtain rfl := List.mem_singleton.1 hmem
    exact absurd hc (by decide)
  | string => exact absurd rfl hkind
  | number => exact h.1 ▸ hrun (by decide) h.2.2
  | identifier => exact h.1 ▸ hrun (by decide) h.2.2
  | keyword =>
    have hkeywords : ∀ word ∈ keywords, '\n' ∉ word := by decide
    exact h.1 ▸ hkeywords slice h.2
  | eof => exact h.elim
  | _ =>
    rw [h.1]
    decide

end

end Lexeme

end PipeScript
