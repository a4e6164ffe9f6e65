/-
Sources that are put together from two, with a line feed between them. No token but a string goes on
over a line feed, so unless the first source ends within a string the tokens of the whole are those
of the one followed by those of the other. The latter are further down, by the lines of the first
source, and otherwise the same.
-/
import PipeScript.Proofs.Token.Line

namespace PipeScript

/-! ## Moving down -/

namespace Span

variable (k : Nat) (s : Span)

/-- The place some lines further down. -/
def down : Span :=
  ⟨s.line + k, s.column⟩

theorem down_next (c : Char) : (s.down k).next c = (s.next c).down k := by
  simp only [next, down]
  split
  · simp only [Nat.add_right_comm]
  · rfl

theorem down_after (cs : List Char) : (s.down k).after cs = (s.after cs).down k := by
  induction cs generalizing s with
  | nil => rfl
  | cons c cs ih => rw [after_cons, after_cons, down_next, ih]

/-- The place after whole lines is the first of a line. -/
theorem start_after_line (cs : List Char) :
    start.after (cs ++ ['\n']) = start.down (cs.count '\n' + 1) := by
  rw [after_append, after_cons, after_nil, next, if_pos rfl, line_after]
  rfl

end Span

/-- The token some lines further down. -/
def Token.down (k : Nat) (t : Token) : Token :=
  { t with span := t.span.down k }

/-- The diagnostic some lines further down. -/
def Diagnostic.down (k : Nat) (d : Diagnostic) : Diagnostic :=
  { d with span := d.span.down k }

namespace Lexeme

theorem token?_down (l : Lexeme) (k : Nat) (s : Span) :
    l.token? (s.down k) = (l.token? s).map (Token.down k) := by
  rcases l with ⟨text, role⟩
  cases role <;> rfl

theorem tokensAt_down (k : Nat) (s : Span) (ls : List Lexeme) :
    tokensAt (s.down k) ls = (tokensAt s ls).map (Token.down k) := by
  induction ls generalizing s with
  | nil => rfl
  | cons l ls ih =>
    rw [tokensAt_cons, tokensAt_cons, token?_down, Span.down_after, ih, List.map_append, Option.toList_map]

/-! ## What the line feed ends -/

variable {p : Char → Bool}

theorem takeWhile_newline (hp : p '\n' = false) (cs ds : List Char) :
    (cs ++ '\n' :: ds).takeWhile p = cs.takeWhile p := by
  induction cs with
  | nil => simp [hp]
  | cons c cs ih => simp only [List.cons_append, List.takeWhile_cons, ih]

theorem dropWhile_newline (hp : p '\n' = false) (cs ds : List Char) :
    (cs ++ '\n' :: ds).dropWhile p = cs.dropWhile p ++ '\n' :: ds := by
  induction cs with
  | nil => simp [hp]
  | cons c cs ih =>
    simp only [List.cons_append, List.dropWhile_cons, ih]
    split <;> rfl

/-- What a rule found, with more source after it. -/
def Found.before (f : Found) (ds : List Char) : Found :=
  { f with rest := f.rest ++ ds }

theorem name_newline (cs ds : List Char) : name (cs ++ '\n' :: ds) = (name cs).before ('\n' :: ds) := by
  rw [name, takeWhile_newline (by decide), dropWhile_newline (by decide)]
  rfl

theorem digits_newline (cs ds : List Char) : digits (cs ++ '\n' :: ds) = (digits cs).before ('\n' :: ds) := by
  rw [digits, takeWhile_newline (by decide), dropWhile_newline (by decide)]
  rfl

theorem access_newline (mark : Char) (kind : TokenKind) {index : List Char → Found}
    (hindex : ∀ cs ds, index (cs ++ '\n' :: ds) = (index cs).before ('\n' :: ds)) (cs ds : List Char) :
    access mark kind index (cs ++ '\n' :: ds) = (access mark kind index cs).before ('\n' :: ds) := by
  unfold access
  rw [name_newline]
  cases h : (name cs).rest with
  | nil => simp [Found.before, h]
  | cons c rest =>
    by_cases hc : c = '.'
    · simp [Found.before, h, hc, hindex]
    · simp [Found.before, h, hc]

theorem stringBody_append {cs : List Char} (hclosed : (stringBody cs).closed = true) (ds : List Char) :
    stringBody (cs ++ ds) = { stringBody cs with rest := (stringBody cs).rest ++ ds } := by
  induction cs using stringBody_induction with
  | nil => cases hclosed
  | quote rest => rfl
  | backslash => cases hclosed
  | escaped c rest ih => simp [stringBody, ih hclosed, StringBody.push]
  | plain c rest hc ih =>
    rw [stringBody_cons hc] at hclosed
    simp [stringBody_cons hc, ih hclosed, StringBody.push]

/-- The lexeme is a string that the end of the source cuts off. -/
def IsOpen (l : Lexeme) : Prop :=
  ∃ value, l.role = .openString value

theorem not_isOpen_of_diagnosticsAt {s : Span} {ls : List Lexeme} (h : diagnosticsAt s ls = []) :
    ∀ l ∈ ls, ¬l.IsOpen := by
  induction ls generalizing s with
  | nil => exact nofun
  | cons l ls ih =>
    have hcons : diagnosticsAt s (l :: ls) = (l.diagnostic? s).toList ++ diagnosticsAt (s.after l.text) ls := by
      cases hl : l.diagnostic? s <;> simp [diagnosticsAt, placed, hl]
    obtain ⟨hl, hls⟩ := List.append_eq_nil_iff.1 (hcons ▸ h)
    refine List.forall_mem_cons.2 ⟨?_, ih hls⟩
    rintro ⟨value, hrole⟩
    simp [diagnostic?, hrole] at hl

theorem string_append {cs : List Char} (hclosed : ∀ l ∈ (string cs).lexemes, ¬l.IsOpen) (ds : List Char) :
    string (cs ++ ds) = (string cs).before ds := by
  have hclosed : (stringBody cs).closed = true := by
    by_contra h
    refine hclosed _ List.mem_cons_self ⟨(stringBody cs).value, ?_⟩
    simp [h]
  simp only [string, Found.before, stringBody_append hclosed]

theorem running_newline (c : Char) (hp : p '\n' = false) (role : List Char → Role) (cs ds : List Char) :
    running c p role (cs ++ '\n' :: ds) = (running c p role cs).before ('\n' :: ds) := by
  rw [running, takeWhile_newline hp, dropWhile_newline hp]
  rfl

/-- What begins with a character that is not blank ends at the line feed at the latest. -/
theorem first_newline {c : Char} (hc : Text.isBlank c = false) {cs : List Char}
    (hclosed : ∀ l ∈ (first c cs).lexemes, ¬l.IsOpen) (ds : List Char) :
    first c (cs ++ '\n' :: ds) = (first c cs).before ('\n' :: ds) := by
  revert cs
  apply first_cases (motive := fun f => ∀ {cs : List Char}, (∀ l ∈ (f cs).lexemes, ¬l.IsOpen) →
    f (cs ++ '\n' :: ds) = (f cs).before ('\n' :: ds))
  case blank => exact fun hblank => absurd hblank (by simp [hc])
  case pipe | number | word => exact fun _ _ _ => running_newline c (by decide) _ _ ds
  case mark =>
    intro kind _ cs _
    rw [marked, name_newline]
    rfl
  case access =>
    rintro kind index (⟨-, -, rfl⟩ | ⟨-, -, rfl⟩) cs _
    · exact access_newline c kind name_newline cs ds
    · exact access_newline c kind digits_newline cs ds
  case string => exact fun _ _ hstring => string_append hstring _
  case symbol | stray => exact fun _ _ _ => rfl

/-! ## Blanks -/

theorem first_blank {c : Char} (hc : Text.isBlank c = true) (cs : List Char) :
    first c cs = ⟨[⟨c :: cs.takeWhile Text.isBlank, .blank⟩], cs.dropWhile Text.isBlank⟩ :=
  if_pos hc

theorem tokensAt_skip (s : Span) (cs : List Char) : tokensAt s (scan cs) =
    tokensAt (s.after (cs.takeWhile Text.isBlank)) (scan (cs.dropWhile Text.isBlank)) := by
  cases cs with
  | nil => rfl
  | cons c cs =>
    by_cases hc : Text.isBlank c = true
    · rw [scan_cons, first_blank hc, List.takeWhile_cons_of_pos hc, List.dropWhile_cons_of_pos hc]
      rfl
    · rw [List.takeWhile_cons_of_neg hc, List.dropWhile_cons_of_neg hc]
      rfl

/-- Blanks before a source move its tokens, and do nothing else. -/
theorem tokensAt_blanks {bs : List Char} (hbs : ∀ c ∈ bs, Text.isBlank c = true) (s : Span) (cs : List Char) :
    tokensAt s (scan (bs ++ cs)) = tokensAt (s.after bs) (scan cs) := by
  rw [tokensAt_skip s, tokensAt_skip (s.after bs), ← Span.after_append]
  rw [List.takeWhile_append_of_pos hbs, List.dropWhile_append_of_pos hbs]

/-! ## Both sources -/

/-- The tokens of a source that does not end within a string, and after a line feed those of another. -/
theorem tokensAt_joined {cs : List Char} (hclosed : ∀ l ∈ scan cs, ¬l.IsOpen) (s : Span) (ds : List Char) :
    tokensAt s (scan (cs ++ '\n' :: ds)) =
      tokensAt s (scan cs) ++ tokensAt (s.after (cs ++ ['\n'])) (scan ds) := by
  -- along the rules that find the lexemes of the first source; blanks at its end go together with the
  -- line feed and what blanks come after it
  fun_induction scan cs generalizing s with
  | case1 =>
    have hblank : ∀ c ∈ ['\n'], Text.isBlank c = true := List.forall_mem_singleton.2 (by decide)
    exact tokensAt_blanks hblank s ds
  | case2 c rest ih =>
    have hrest := ih fun l hl => hclosed l (List.mem_append_right _ hl)
    by_cases hc : Text.isBlank c = true
    · rw [first_blank hc] at hrest ⊢
      have hblank : ∀ b ∈ c :: rest.takeWhile Text.isBlank, Text.isBlank b = true :=
        List.forall_mem_cons.2 ⟨hc, fun b hb => List.mem_takeWhile_imp hb⟩
      have hcut : c :: rest = (c :: rest.takeWhile Text.isBlank) ++ rest.dropWhile Text.isBlank := by simp
      rw [hcut, List.append_assoc, tokensAt_blanks hblank, hrest]
      simp only [List.append_assoc, Span.after_append]
      rfl
    · have hfirst := first_newline (Bool.eq_false_iff.2 hc)
        (fun l hl => hclosed l (List.mem_append_left _ hl)) ds
      have htext : ((first c rest).lexemes.flatMap (·.text)) ++ (first c rest).rest = c :: rest :=
        first_text c rest
      rw [List.cons_append, scan_cons, hfirst, Found.before, tokensAt_append, hrest, tokensAt_append, ← htext]
      simp only [Span.after_append, List.append_assoc]

end Lexeme

end PipeScript
