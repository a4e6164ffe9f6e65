/-
The lines of tokens. A token stands where its first character stands. A token other than a string is
written on one line, so the lines of two tokens tell whether a line break lies between them unless
the first one is a string: what they tell then is whether a line break lies after the opening quote.
-/
import PipeScript.Proofs.Token.Written

namespace PipeScript

/-- Each line feed begins a new line, and nothing else does. -/
theorem Span.line_after (s : Span) (cs : List Char) : (s.after cs).line = s.line + cs.count '\n' := by
  induction cs generalizing s with
  | nil => rfl
  | cons c cs ih =>
    rw [after_cons, ih, List.count_cons, next]
    by_cases hc : c = '\n'
    · simp only [hc, if_true, beq_self_eq_true]
      omega
    · simp [hc]

namespace Lexeme

/-! ## Tokens of lexemes -/

/-- The token of a lexeme has the place, the kind and the slice of the lexeme. -/
theorem of_token?_eq_some {l : Lexeme} {s : Span} {t : Token} (h : l.token? s = some t) : t.span = s ∧
    (l.role = .token t.kind t.slice.toList ∨ t.kind = .string ∧ l.role = .openString t.slice.toList) := by
  rcases l with ⟨text, role⟩
  cases role with
  | token kind slice =>
    obtain rfl : (⟨kind, String.ofList slice, s⟩ : Token) = t := Option.some.inj h
    exact ⟨rfl, .inl (by rw [String.toList_ofList])⟩
  | openString value =>
    obtain rfl : (⟨.string, String.ofList value, s⟩ : Token) = t := Option.some.inj h
    exact ⟨rfl, .inr ⟨rfl, by rw [String.toList_ofList]⟩⟩
  | _ => cases h

theorem kind_ne_eof_of_scan {cs : List Char} {s : Span} {t : Token} (ht : t ∈ tokensAt s (scan cs)) :
    t.kind ≠ .eof := by
  obtain ⟨⟨l, s'⟩, hl, ht⟩ := List.mem_filterMap.1 ht
  have hwritten := written_of_mem_scan (mem_of_mem_placed hl)
  intro hk
  rcases (of_token?_eq_some ht).2 with hrole | ⟨hstring, -⟩
  · rw [hk] at hrole
    exact hwritten.spells hrole
  · cases hk.symm.trans hstring

/-- A token that is written over several lines is a string. -/
theorem kind_eq_string_of_newline {l : Lexeme} {cs : List Char} {s : Span} {t : Token} (hl : l ∈ scan cs)
    (ht : l.token? s = some t) (hline : '\n' ∈ l.text) : t.kind = .string := by
  rcases (of_token?_eq_some ht).2 with hrole | ⟨hstring, -⟩
  · by_contra hk
    exact ((written_of_mem_scan hl).spells hrole).newline_not_mem hk hline
  · exact hstring

/-! ## The source between two tokens -/

/-- A token among those of some lexemes comes from one of the lexemes, and stands after the text of
those before it. -/
theorem exists_lexeme_of_tokensAt {ls : List Lexeme} {s : Span} {before after : List Token} {t : Token}
    (h : tokensAt s ls = before ++ t :: after) : ∃ as l bs, ls = as ++ l :: bs ∧
      l.token? (s.after (as.flatMap (·.text))) = some t ∧
      tokensAt (s.after ((as ++ [l]).flatMap (·.text))) bs = after := by
  induction ls generalizing s before with
  | nil => simp [tokensAt, placed] at h
  | cons l ls ih =>
    have later {before : List Token} (h : tokensAt (s.after l.text) ls = before ++ t :: after) :
        ∃ as m bs, l :: ls = as ++ m :: bs ∧ m.token? (s.after (as.flatMap (·.text))) = some t ∧
          tokensAt (s.after ((as ++ [m]).flatMap (·.text))) bs = after := by
      obtain ⟨as, m, bs, rfl, hm, hbs⟩ := ih h
      refine ⟨l :: as, m, bs, rfl, ?_, ?_⟩
      · rwa [List.flatMap_cons, Span.after_append]
      · rwa [List.cons_append, List.flatMap_cons, Span.after_append]
    rw [tokensAt_cons] at h
    cases hl : l.token? s with
    | none =>
      rw [hl] at h
      exact later h
    | some u =>
      rw [hl] at h
      cases before with
      | nil =>
        obtain ⟨rfl, hls⟩ := List.cons_eq_cons.1 h
        exact ⟨[], l, ls, rfl, hl, by simpa using hls⟩
      | cons u' before => exact later (List.cons_eq_cons.1 h).2

/-- A token among those of some lexemes stands on one of the lines of their text. -/
theorem line_of_mem_tokensAt {ls : List Lexeme} {s : Span} {t : Token} (ht : t ∈ tokensAt s ls) :
    s.line ≤ t.span.line ∧ t.span.line ≤ (s.after (ls.flatMap (·.text))).line := by
  obtain ⟨before, after, htokens⟩ := List.append_of_mem ht
  obtain ⟨as, l, bs, rfl, hl, -⟩ := exists_lexeme_of_tokensAt htokens
  rw [(of_token?_eq_some hl).1, List.flatMap_append, Span.after_append]
  exact ⟨Span.line_le_after _ _, Span.line_le_after _ _⟩

/-- Two tokens in a row, the second one the mark of a variable: where they stand in the source, and
what the lines of the two say about the text from the first one up to the second one. -/
theorem exists_text_of_adjacent {source : List Char} {before after : List Token} {last t : Token}
    (h : tokensAt .start (scan source) = before ++ last :: t :: after) (ht : t.kind = .variable) :
    ∃ front gap back l, l ∈ scan source ∧ source = front ++ l.text ++ gap ++ '!' :: back ∧
      last.span = Span.start.after front ∧ t.span = Span.start.after (front ++ l.text ++ gap) ∧
      l.token? last.span = some last ∧ (last.span.line < t.span.line ↔ '\n' ∈ l.text ∨ '\n' ∈ gap) := by
  obtain ⟨as, l, rest, hscan, hl, hrest⟩ := exists_lexeme_of_tokensAt h
  rw [← List.nil_append (t :: after)] at hrest
  obtain ⟨bs, m, cs, rfl, hm, -⟩ := exists_lexeme_of_tokensAt hrest
  have hm_mem : m ∈ scan source := by simp [hscan]
  have hm_text : m.text = ['!'] := by
    rcases (of_token?_eq_some hm).2 with hrole | ⟨hstring, -⟩
    · rw [ht] at hrole
      exact ((written_of_mem_scan hm_mem).spells hrole).1
    · cases ht.symm.trans hstring
  have hlast := (of_token?_eq_some hl).1
  have hspan : t.span = last.span.after (l.text ++ bs.flatMap (·.text)) := by
    rw [(of_token?_eq_some hm).1, hlast, ← Span.after_append, ← Span.after_append]
    simp
  refine ⟨as.flatMap (·.text), bs.flatMap (·.text), cs.flatMap (·.text), l, by simp [hscan], ?_, hlast, ?_,
    hlast ▸ hl, ?_⟩
  · rw [← flatMap_text_scan source, hscan]
    simp [hm_text]
  · rw [hspan, hlast, ← Span.after_append, List.append_assoc]
  · rw [hspan, Span.line_after, List.count_append, ← List.count_pos_iff, ← List.count_pos_iff]
    omega

end Lexeme

end PipeScript
