/-
Where tokens and diagnostics stand. Places are ordered by their lines, and by their columns on one line; each
character leads to a later place. No lexeme is empty, so that of two of them the later one begins at a later
place: the tokens of a source, with the mark of its end, stand in strictly ascending order, and so do the
diagnostics on the way.
-/
import Mathlib.Data.Prod.Lex
import PipeScript.Proofs.Token.Line
import PipeScript.Proofs.Token.Mark

namespace PipeScript

/-! ## The order of places -/

namespace Span

/-- By lines, and by columns on one line. -/
instance : LinearOrder Span :=
  LinearOrder.lift' (fun s => toLex (s.line, s.column)) fun s t h => by
    cases s
    cases t
    cases toLex.injective h
    rfl

variable {s t : Span}

theorem lt_iff : s < t ↔ s.line < t.line ∨ s.line = t.line ∧ s.column < t.column :=
  Prod.Lex.toLex_lt_toLex

theorem lt_next (s : Span) (c : Char) : s < s.next c := by
  rw [lt_iff, next]
  split
  · exact .inl (Nat.lt_succ_self _)
  · exact .inr ⟨rfl, Nat.lt_succ_self _⟩

theorem le_after (s : Span) (cs : List Char) : s ≤ s.after cs := by
  induction cs generalizing s with
  | nil => exact le_refl s
  | cons c cs ih => exact (lt_next s c).le.trans (ih (s.next c))

theorem lt_after (s : Span) {cs : List Char} (hcs : cs ≠ []) : s < s.after cs := by
  obtain ⟨c, cs, rfl⟩ := List.exists_cons_of_ne_nil hcs
  exact (lt_next s c).trans_le (le_after (s.next c) cs)

end Span

namespace Lexeme

variable {ls : List Lexeme} {l : Lexeme} {s s' : Span}

/-! ## Lexemes at their places -/

theorem le_of_mem_placed (hl : (l, s') ∈ placed s ls) : s ≤ s' := by
  induction ls generalizing s with
  | nil => cases hl
  | cons m ls ih =>
    rcases List.mem_cons.1 hl with he | hl
    · cases he
      exact le_refl _
    · exact (Span.le_after _ m.text).trans (ih hl)

/-- Of two lexemes the later one begins at a later place. -/
theorem pairwise_placed (hls : ∀ l ∈ ls, l.text ≠ []) (s : Span) : (placed s ls).Pairwise (·.2 < ·.2) := by
  induction ls generalizing s with
  | nil => exact .nil
  | cons l ls ih =>
    obtain ⟨hl, hls⟩ := List.forall_mem_cons.1 hls
    exact .cons (fun p hp => (s.lt_after hl).trans_le (le_of_mem_placed hp)) (ih hls _)

/-- All lexemes begin before the end. -/
theorem lt_of_mem_placed (hls : ∀ l ∈ ls, l.text ≠ []) (hl : (l, s') ∈ placed s ls) :
    s' < s.after (ls.flatMap (·.text)) := by
  induction ls generalizing s with
  | nil => cases hl
  | cons m ls ih =>
    obtain ⟨hm, hls⟩ := List.forall_mem_cons.1 hls
    rw [List.flatMap_cons, Span.after_append]
    rcases List.mem_cons.1 hl with he | hl
    · cases he
      exact (Span.lt_after _ hm).trans_le (Span.le_after _ _)
    · exact ih hls hl

theorem span_of_diagnostic? {d : Diagnostic} (h : l.diagnostic? s = some d) : d.span = s := by
  unfold diagnostic? at h
  split at h <;> cases h <;> rfl

end Lexeme

/-! ## Sources -/

open Lexeme

/-- The tokens of a source, with the mark of its end, stand at ascending places. -/
theorem pairwise_tokens_lex (source : String) : (lex source).tokens.Pairwise (·.span < ·.span) := by
  have hne : ∀ l ∈ scan source.toList, l.text ≠ [] := fun l hl => (written_of_mem_scan hl).ne_nil
  rw [lex]
  simp only
  refine List.pairwise_append.2 ⟨?_, List.pairwise_singleton _ _, ?_⟩
  · refine (pairwise_placed hne .start).filterMap _ fun p q hpq t ht u hu => ?_
    rw [(of_token?_eq_some ht).1, (of_token?_eq_some hu).1]
    exact hpq
  · intro t ht mark hmark
    obtain ⟨p, hp, ht⟩ := List.mem_filterMap.1 ht
    have hlt := lt_of_mem_placed hne hp
    rw [flatMap_text_scan] at hlt
    rw [(of_token?_eq_some ht).1, List.mem_singleton.1 hmark]
    exact hlt

/-- The diagnostics of a source stand at ascending places. -/
theorem pairwise_diagnostics_lex (source : String) : (lex source).diagnostics.Pairwise (·.span < ·.span) := by
  have hne : ∀ l ∈ scan source.toList, l.text ≠ [] := fun l hl => (written_of_mem_scan hl).ne_nil
  refine (pairwise_placed hne .start).filterMap _ fun p q hpq d hd e he => ?_
  rw [span_of_diagnostic? hd, span_of_diagnostic? he]
  exact hpq

end PipeScript
