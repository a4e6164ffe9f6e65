/-
What the source is cut into, rule by rule: a mark with its name, a call, a string, a number or a word
that the next character ends, a symbol, a line end. Tokens follow from the lexemes and the place of
the first one, and only the end of the source gives the end mark.
-/
import Mathlib.Logic.Basic
import PipeScript.Token.Lexer

namespace PipeScript

namespace Lexeme

/-! ## Nothing is lost -/

/-- The source text of what a rule found, with what is left of it. -/
def Found.text (f : Found) : List Char :=
  f.lexemes.flatMap (·.text) ++ f.rest

theorem flatMap_text_ofRun (kind : TokenKind) (run : List Char) :
    (ofRun kind run).flatMap (·.text) = run := by
  unfold ofRun
  split
  · next h => exact h.symm
  · exact List.append_nil run

theorem name_text (cs : List Char) : (name cs).text = cs := by
  rw [Found.text, name, flatMap_text_ofRun, List.takeWhile_append_dropWhile]

theorem digits_text (cs : List Char) : (digits cs).text = cs := by
  rw [Found.text, digits, flatMap_text_ofRun, List.takeWhile_append_dropWhile]

theorem access_text (mark : Char) (kind : TokenKind) {index : List Char → Found}
    (hindex : ∀ cs, (index cs).text = cs) (cs : List Char) :
    (access mark kind index cs).text = mark :: cs := by
  have hname := name_text cs
  simp only [Found.text] at hname hindex
  unfold access Found.text
  simp only
  split
  · next rest hr => simp [hindex, ← hr, hname]
  · simp [hname]

theorem stringBody_text (cs : List Char) : (stringBody cs).text ++ (stringBody cs).rest = cs := by
  fun_induction stringBody cs <;> simp_all [StringBody.push]

theorem string_text (cs : List Char) : (string cs).text = '"' :: cs := by
  simp [Found.text, string, stringBody_text]

/-! ## The rules -/

/-- A character and the run after it as one lexeme. -/
def running (c : Char) (p : Char → Bool) (role : List Char → Role) (cs : List Char) : Found :=
  ⟨[⟨c :: cs.takeWhile p, role (cs.takeWhile p)⟩], cs.dropWhile p⟩

/-- A character as a lexeme of its own. -/
def single (c : Char) (role : Role) (cs : List Char) : Found :=
  ⟨[⟨[c], role⟩], cs⟩

/-- A mark and the name after it. -/
def marked (c : Char) (kind : TokenKind) (cs : List Char) : Found :=
  ⟨⟨[c], .token kind []⟩ :: (name cs).lexemes, (name cs).rest⟩

theorem first_eq (c : Char) : first c =
    if Text.isBlank c then running c Text.isBlank fun _ => .blank
    else if c = '|' then running c isWordChar fun word => .token .pipe word
    else if c = '!' then marked c .variable
    else if c = '&' then marked c .assign
    else if c = '@' then access c .objectAccess name
    else if c = '#' then access c .arrayAccess digits
    else if c = '"' then string
    else if symbols.contains c then single c (.token .symbol [c])
    else if c.isDigit then running c isNumberChar fun number => .token .number (c :: number)
    else if Text.isLetter c then running c isWordChar fun word => .token (wordKind (c :: word)) (c :: word)
    else single c (.stray c) := by
  funext cs
  simp only [ite_apply]
  rfl

/-- The characters with which a token or a blank begins. -/
def Begins (c : Char) : Prop :=
  Text.isBlank c = true ∨ c ∈ ['|', '!', '&', '@', '#', '"'] ∨ c ∈ symbols ∨ c.isDigit = true ∨ Text.isLetter c = true

/-- What holds of each rule holds of the one that the first character decides on. -/
theorem first_cases {c : Char} {motive : (List Char → Found) → Prop}
    (blank : Text.isBlank c = true → motive (running c Text.isBlank fun _ => .blank))
    (pipe : c = '|' → motive (running c isWordChar fun word => .token .pipe word))
    (mark : ∀ kind, c = '!' ∧ kind = .variable ∨ c = '&' ∧ kind = .assign → motive (marked c kind))
    (access : ∀ kind index, c = '@' ∧ kind = .objectAccess ∧ index = name ∨
      c = '#' ∧ kind = .arrayAccess ∧ index = digits → motive (access c kind index))
    (string : c = '"' → motive string)
    (symbol : symbols.contains c = true → motive (single c (.token .symbol [c])))
    (number : c.isDigit = true → motive (running c isNumberChar fun number => .token .number (c :: number)))
    (word : Text.isLetter c = true →
      motive (running c isWordChar fun word => .token (wordKind (c :: word)) (c :: word)))
    (stray : ¬Begins c → motive (single c (.stray c))) : motive (first c) := by
  rw [first_eq]
  refine iteInduction blank fun hblank => ?_
  refine iteInduction pipe fun hpipe => ?_
  refine iteInduction (fun h => mark _ (.inl ⟨h, rfl⟩)) fun hvariable => ?_
  refine iteInduction (fun h => mark _ (.inr ⟨h, rfl⟩)) fun hassign => ?_
  refine iteInduction (fun h => access _ _ (.inl ⟨h, rfl, rfl⟩)) fun hobject => ?_
  refine iteInduction (fun h => access _ _ (.inr ⟨h, rfl, rfl⟩)) fun harray => ?_
  refine iteInduction string fun hquote => ?_
  refine iteInduction symbol fun hsymbol => ?_
  refine iteInduction number fun hdigit => ?_
  refine iteInduction word fun hletter => stray ?_
  simpa [Begins, hblank, hpipe, hvariable, hassign, hobject, harray, hquote, hdigit, hletter] using hsymbol

theorem running_text (c : Char) (p : Char → Bool) (role : List Char → Role) (cs : List Char) :
    (running c p role cs).text = c :: cs := by
  simp [Found.text, running]

theorem first_text (c : Char) (cs : List Char) : (first c cs).text = c :: cs := by
  revert cs
  apply first_cases (motive := fun f => ∀ cs, (f cs).text = c :: cs)
  case blank | pipe | number | word => exact fun _ => running_text _ _ _
  case mark => exact fun kind _ cs => congrArg (c :: ·) (name_text cs)
  case access =>
    rintro kind index (⟨-, -, rfl⟩ | ⟨-, -, rfl⟩)
    · exact access_text c kind name_text
    · exact access_text c kind digits_text
  case string =>
    rintro rfl
    exact string_text
  case symbol | stray => intros; rfl

/-- Put together, the lexemes are the source again. -/
theorem flatMap_text_scan (cs : List Char) : (scan cs).flatMap (·.text) = cs := by
  fun_induction scan cs with
  | case1 => rfl
  | case2 c rest ih =>
    rw [List.flatMap_append, ih]
    exact first_text c rest

/-! ## What holds of all lexemes -/

section

variable {P : Lexeme → Prop}

theorem forall_mem_access {mark : Char} {kind : TokenKind} {index : List Char → Found}
    (hmark : P ⟨[mark], .token kind []⟩) (hpoint : P ⟨['.'], .point⟩)
    (hname : ∀ cs, ∀ l ∈ (name cs).lexemes, P l) (hindex : ∀ cs, ∀ l ∈ (index cs).lexemes, P l) (cs : List Char) :
    ∀ l ∈ (access mark kind index cs).lexemes, P l := by
  unfold access
  simp only
  split
  · simp only [List.cons_append, List.mem_cons, List.mem_append]
    rintro l (rfl | hl | rfl | hl)
    · exact hmark
    · exact hname cs l hl
    · exact hpoint
    · exact hindex _ l hl
  · exact List.forall_mem_cons.2 ⟨hmark, hname cs⟩

/-- What holds of all lexemes that the rules find holds of all that a source is cut into. -/
theorem forall_mem_scan (h : ∀ c cs, ∀ l ∈ (first c cs).lexemes, P l) (cs : List Char) : ∀ l ∈ scan cs, P l := by
  fun_induction scan cs with
  | case1 => exact List.forall_mem_nil P
  | case2 c rest ih => exact List.forall_mem_append.2 ⟨h c rest, ih⟩

end

/-! ## Runs -/

/-- What follows goes on with no run: no name, word or number. -/
def EndsRun (cs : List Char) : Prop :=
  ∀ c ∈ cs.head?, isWordChar c = false ∧ isNumberChar c = false

theorem endsRun_colon (cs : List Char) : EndsRun (':' :: cs) := by
  rintro c ⟨⟩
  decide

theorem endsRun_newline (cs : List Char) : EndsRun ('\n' :: cs) := by
  rintro c ⟨⟩
  decide

theorem isWordChar_of_isNameChar {c : Char} (hc : isNameChar c = true) : isWordChar c = true := by
  simp only [isNameChar, isWordChar, Bool.or_eq_true] at hc ⊢
  exact .inl hc

variable {p : Char → Bool} {run cs : List Char}

theorem takeWhile_run (hrun : ∀ c ∈ run, p c = true) (hcs : ∀ c ∈ cs.head?, p c = false) :
    (run ++ cs).takeWhile p = run := by
  rw [List.takeWhile_append_of_pos hrun]
  cases cs with
  | nil => simp
  | cons c cs => simp [hcs c rfl]

theorem dropWhile_run (hrun : ∀ c ∈ run, p c = true) (hcs : ∀ c ∈ cs.head?, p c = false) :
    (run ++ cs).dropWhile p = cs := by
  rw [List.dropWhile_append_of_pos hrun]
  cases cs with
  | nil => rfl
  | cons c cs => simp [hcs c rfl]

/-! ## One rule at a time -/

theorem scan_nil : scan [] = [] := by
  rw [scan]

theorem scan_cons (c : Char) (rest : List Char) :
    scan (c :: rest) = (first c rest).lexemes ++ scan (first c rest).rest := by
  rw [scan]

theorem name_run (hne : run ≠ []) (hrun : ∀ c ∈ run, isNameChar c = true) (hcs : EndsRun cs) :
    name (run ++ cs) = ⟨[⟨run, .token .identifier run⟩], cs⟩ := by
  -- what ends a word ends a name as well, since names consist of fewer characters
  have hend (c : Char) (hc : c ∈ cs.head?) : isNameChar c = false := by
    refine Bool.eq_false_iff.2 fun hn => ?_
    have hw := isWordChar_of_isNameChar hn
    rw [(hcs c hc).1] at hw
    cases hw
  rw [name, takeWhile_run hrun hend, dropWhile_run hrun hend, ofRun, if_neg hne]

/-- A mark with the name after it. -/
theorem scan_mark {mark : Char} {kind : TokenKind} (hmark : ∀ cs, first mark cs =
      ⟨⟨[mark], .token kind []⟩ :: (name cs).lexemes, (name cs).rest⟩)
    (hne : run ≠ []) (hrun : ∀ c ∈ run, isNameChar c = true) (hcs : EndsRun cs) :
    scan (mark :: (run ++ cs)) = ⟨[mark], .token kind []⟩ :: ⟨run, .token .identifier run⟩ :: scan cs := by
  rw [scan_cons, hmark, name_run hne hrun hcs]
  rfl

theorem scan_variable (hne : run ≠ []) (hrun : ∀ c ∈ run, isNameChar c = true) (hcs : EndsRun cs) :
    scan ('!' :: (run ++ cs)) =
      ⟨['!'], .token .variable []⟩ :: ⟨run, .token .identifier run⟩ :: scan cs :=
  scan_mark (fun _ => rfl) hne hrun hcs

theorem scan_assign (hne : run ≠ []) (hrun : ∀ c ∈ run, isNameChar c = true) (hcs : EndsRun cs) :
    scan ('&' :: (run ++ cs)) =
      ⟨['&'], .token .assign []⟩ :: ⟨run, .token .identifier run⟩ :: scan cs :=
  scan_mark (fun _ => rfl) hne hrun hcs

theorem scan_pipe (hrun : ∀ c ∈ run, isWordChar c = true) (hcs : EndsRun cs) :
    scan ('|' :: (run ++ cs)) = ⟨'|' :: run, .token .pipe run⟩ :: scan cs := by
  have hfirst : first '|' (run ++ cs) = ⟨[⟨'|' :: (run ++ cs).takeWhile isWordChar,
      .token .pipe ((run ++ cs).takeWhile isWordChar)⟩], (run ++ cs).dropWhile isWordChar⟩ := rfl
  rw [scan_cons, hfirst, takeWhile_run hrun fun c hc => (hcs c hc).1,
    dropWhile_run hrun fun c hc => (hcs c hc).1]
  rfl

theorem scan_colon : scan (':' :: cs) = ⟨[':'], .token .symbol [':']⟩ :: scan cs := by
  rw [scan_cons]
  rfl

theorem scan_minus : scan ('-' :: cs) = ⟨['-'], .token .symbol ['-']⟩ :: scan cs := by
  rw [scan_cons]
  rfl

theorem scan_newline (hcs : ∀ c ∈ cs.head?, Text.isBlank c = false) :
    scan ('\n' :: cs) = ⟨['\n'], .blank⟩ :: scan cs := by
  have hfirst : first '\n' cs = ⟨[⟨'\n' :: cs.takeWhile Text.isBlank, .blank⟩], cs.dropWhile Text.isBlank⟩ :=
    rfl
  rw [scan_cons, hfirst]
  cases cs with
  | nil => rfl
  | cons c cs => simp [hcs c rfl]

theorem mem_digits_of_isDigit {c : Char} (hc : c.isDigit = true) :
    c ∈ ['0', '1', '2', '3', '4', '5', '6', '7', '8', '9'] := by
  simp only [Char.isDigit, Bool.and_eq_true, decide_eq_true_eq, ge_iff_le, UInt32.le_iff_toNat_le] at hc
  simp only [List.mem_cons, List.not_mem_nil, or_false, Char.ext_iff, ← UInt32.toNat_inj]
  simp at hc ⊢
  omega

theorem isBlank_of_isDigit {c : Char} (hc : c.isDigit = true) : Text.isBlank c = false := by
  have hmem := mem_digits_of_isDigit hc
  simp only [List.mem_cons, List.not_mem_nil, or_false] at hmem
  rcases hmem with rfl | rfl | rfl | rfl | rfl | rfl | rfl | rfl | rfl | rfl <;> rfl

theorem first_digit {c : Char} (hc : c.isDigit = true) (cs : List Char) : first c cs =
    ⟨[⟨c :: cs.takeWhile isNumberChar, .token .number (c :: cs.takeWhile isNumberChar)⟩],
      cs.dropWhile isNumberChar⟩ := by
  have hmem := mem_digits_of_isDigit hc
  simp only [List.mem_cons, List.not_mem_nil, or_false] at hmem
  rcases hmem with rfl | rfl | rfl | rfl | rfl | rfl | rfl | rfl | rfl | rfl <;> rfl

/-- A run of digits that the next character ends. -/
theorem scan_digits (hne : run ≠ []) (hrun : ∀ c ∈ run, c.isDigit = true) (hcs : EndsRun cs) :
    scan (run ++ cs) = ⟨run, .token .number run⟩ :: scan cs := by
  obtain ⟨c, run, rfl⟩ := List.exists_cons_of_ne_nil hne
  rw [List.forall_mem_cons] at hrun
  have hnumber : ∀ c ∈ run, isNumberChar c = true := fun c hc => by simp [isNumberChar, hrun.2 c hc]
  rw [List.cons_append, scan_cons, first_digit hrun.1, takeWhile_run hnumber fun c hc => (hcs c hc).2,
    dropWhile_run hnumber fun c hc => (hcs c hc).2]
  rfl

theorem first_keyword {c : Char} (hc : c ∈ ['t', 'f', 'n']) (cs : List Char) : first c cs =
    ⟨[⟨c :: cs.takeWhile isWordChar, .token (wordKind (c :: cs.takeWhile isWordChar))
      (c :: cs.takeWhile isWordChar)⟩], cs.dropWhile isWordChar⟩ := by
  simp only [List.mem_cons, List.not_mem_nil, or_false] at hc
  rcases hc with rfl | rfl | rfl <;> rfl

/-- A keyword that the next character ends. -/
theorem scan_keyword (hrun : run ∈ keywords) (hcs : EndsRun cs) :
    scan (run ++ cs) = ⟨run, .token .keyword run⟩ :: scan cs := by
  obtain ⟨c, word, rfl, hc, hword, hkind⟩ : ∃ c word, run = c :: word ∧ c ∈ ['t', 'f', 'n'] ∧
      (∀ c ∈ word, isWordChar c = true) ∧ wordKind (c :: word) = .keyword := by
    simp only [keywords, List.mem_cons, List.not_mem_nil, or_false] at hrun
    rcases hrun with rfl | rfl | rfl
    · exact ⟨'t', ['r', 'u', 'e'], rfl, by decide, List.all_eq_true.1 (by decide), by decide⟩
    · exact ⟨'f', ['a', 'l', 's', 'e'], rfl, by decide, List.all_eq_true.1 (by decide), by decide⟩
    · exact ⟨'n', ['u', 'l', 'l'], rfl, by decide, List.all_eq_true.1 (by decide), by decide⟩
  rw [List.cons_append, scan_cons, first_keyword hc, takeWhile_run hword fun c hc => (hcs c hc).1,
    dropWhile_run hword fun c hc => (hcs c hc).1, hkind]
  rfl

/-! ## Strings -/

/-- How a character is written inside of a string. -/
def escape (c : Char) : List Char :=
  if c = '\\' ∨ c = '"' then ['\\', c] else [c]

theorem stringBody_cons {c : Char} (hc : ¬(c = '\\' ∨ c = '"')) (rest : List Char) :
    stringBody (c :: rest) = (stringBody rest).push c [c] := by
  rw [not_or] at hc
  rw [stringBody.eq_def]
  split <;> simp_all

/-- What holds of the inside of a string for each way in which it begins holds for all of them. -/
theorem stringBody_induction {motive : List Char → Prop} (nil : motive [])
    (quote : ∀ rest, motive ('"' :: rest)) (backslash : motive ['\\'])
    (escaped : ∀ c rest, motive rest → motive ('\\' :: c :: rest))
    (plain : ∀ c rest, ¬(c = '\\' ∨ c = '"') → motive rest → motive (c :: rest)) (cs : List Char) :
    motive cs := by
  fun_induction stringBody cs with
  | case1 => exact nil
  | case2 rest => exact quote rest
  | case3 => exact backslash
  | case4 c rest ih => exact escaped c rest ih
  | case5 c rest hquote hslash hescape ih =>
    refine plain c rest ?_ ih
    rintro (rfl | rfl)
    · cases rest with
      | nil => exact hslash rfl rfl
      | cons d rest => exact hescape d rest rfl rfl
    · exact hquote rfl

theorem stringBody_escape (value cs : List Char) :
    stringBody (value.flatMap escape ++ '"' :: cs) =
      ⟨value, value.flatMap escape ++ ['"'], cs, true⟩ := by
  induction value with
  | nil => rfl
  | cons c value ih =>
    by_cases hc : c = '\\' ∨ c = '"'
    · -- only quotes and backslashes follow a backslash, never the letters that stand for controls
      have hself : unescaped c = c := by rcases hc with rfl | rfl <;> rfl
      rw [List.flatMap_cons, escape, if_pos hc]
      simp [stringBody, ih, StringBody.push, hself]
    · rw [List.flatMap_cons, escape, if_neg hc]
      simp [stringBody_cons hc, ih, StringBody.push]

/-- A string, whatever it holds. -/
theorem scan_string (value cs : List Char) :
    scan ('"' :: (value.flatMap escape ++ '"' :: cs)) =
      ⟨'"' :: (value.flatMap escape ++ ['"']), .token .string value⟩ :: scan cs := by
  have hfirst (cs : List Char) : first '"' cs = string cs := rfl
  rw [scan_cons, hfirst, string, stringBody_escape]
  rfl

/-! ## Tokens at their places -/

/-- The tokens of lexemes of which the first begins at a place. -/
def tokensAt (s : Span) (ls : List Lexeme) : List Token :=
  (placed s ls).filterMap fun (l, s) => l.token? s

/-- The diagnostics of lexemes of which the first begins at a place. -/
def diagnosticsAt (s : Span) (ls : List Lexeme) : List Diagnostic :=
  (placed s ls).filterMap fun (l, s) => l.diagnostic? s

theorem placed_append (s : Span) (ls ms : List Lexeme) :
    placed s (ls ++ ms) = placed s ls ++ placed (s.after (ls.flatMap (·.text))) ms := by
  induction ls generalizing s with
  | nil => rfl
  | cons l ls ih => simp [placed, ih, Span.after_append]

theorem tokensAt_append (s : Span) (ls ms : List Lexeme) :
    tokensAt s (ls ++ ms) = tokensAt s ls ++ tokensAt (s.after (ls.flatMap (·.text))) ms := by
  simp [tokensAt, placed_append]

theorem tokensAt_cons (s : Span) (l : Lexeme) (ls : List Lexeme) :
    tokensAt s (l :: ls) = (l.token? s).toList ++ tokensAt (s.after l.text) ls := by
  cases ht : l.token? s <;> simp [tokensAt, placed, ht]

theorem tokensAt_token (s : Span) (text : List Char) (kind : TokenKind) (slice : List Char)
    (ls : List Lexeme) : tokensAt s (⟨text, .token kind slice⟩ :: ls) =
      ⟨kind, String.ofList slice, s⟩ :: tokensAt (s.after text) ls := rfl

theorem tokensAt_blank (s : Span) (text : List Char) (ls : List Lexeme) :
    tokensAt s (⟨text, .blank⟩ :: ls) = tokensAt (s.after text) ls := rfl

/-- A lexeme of which there is nothing to be said, and which is not the end mark. -/
def Plain (l : Lexeme) : Prop :=
  l.role = .blank ∨ ∃ kind slice, kind ≠ .eof ∧ l.role = .token kind slice

variable {ls : List Lexeme}

theorem mem_of_mem_placed {l : Lexeme} {s s' : Span} (hl : (l, s') ∈ placed s ls) : l ∈ ls := by
  induction ls generalizing s with
  | nil => cases hl
  | cons m ls ih =>
    rcases List.mem_cons.1 hl with he | hl
    · cases he
      exact List.mem_cons_self
    · exact List.mem_cons_of_mem _ (ih hl)

theorem diagnosticsAt_plain (hls : ∀ l ∈ ls, l.Plain) (s : Span) : diagnosticsAt s ls = [] := by
  refine List.filterMap_eq_nil_iff.2 fun (l, s') hl => ?_
  rcases hls l (mem_of_mem_placed hl) with h | ⟨kind, slice, -, h⟩ <;> simp [diagnostic?, h]

theorem kind_ne_eof_of_plain (hls : ∀ l ∈ ls, l.Plain) {s : Span} {t : Token} (ht : t ∈ tokensAt s ls) :
    t.kind ≠ .eof := by
  obtain ⟨⟨l, s'⟩, hl, ht⟩ := List.mem_filterMap.1 ht
  rcases hls l (mem_of_mem_placed hl) with h | ⟨kind, slice, hkind, h⟩
  · simp [token?, h] at ht
  · simp only [token?, h, Option.some.injEq] at ht
    rw [← ht]
    exact hkind

end Lexeme

/-- The tokens of a source are those of its lexemes, and the mark of its end. -/
theorem tokens_lex (source : String) : (lex source).tokens =
    Lexeme.tokensAt .start (Lexeme.scan source.toList) ++ [⟨.eof, "", Span.start.after source.toList⟩] := rfl

/-- A place does not come before the line of the place it is reached from. -/
theorem Span.line_le_after (s : Span) (cs : List Char) : s.line ≤ (s.after cs).line := by
  induction cs generalizing s with
  | nil => exact Nat.le_refl _
  | cons c cs ih =>
    refine Nat.le_trans ?_ (ih (s.next c))
    unfold next
    split
    · exact Nat.le_succ s.line
    · exact Nat.le_refl s.line

end PipeScript
