/-
Walks through the heap that remember where they are. Lists and dictionaries can hold themselves, so
that a walk over contents ends only because it never enters again what it is already inside of.
What it has not entered yet is finite and shrinks with every step inwards.
-/
import PipeScript.Heap

namespace PipeScript.Heap

/-- The number of elements of a list that are not on the path. -/
def unmet {α : Type} [DecidableEq α] (all path : List α) : Nat :=
  all.countP fun a => decide (a ∉ path)

theorem unmet_cons_le {α : Type} [DecidableEq α] (all path : List α) (a : α) :
    unmet all (a :: path) ≤ unmet all path :=
  List.countP_mono_left fun b _ hb => by
    simp only [decide_eq_true_eq, List.mem_cons, not_or] at hb ⊢
    exact hb.2

/-- Entering what was not on the path leaves less to enter. -/
theorem unmet_cons_lt {α : Type} [DecidableEq α] {all path : List α} {a : α}
    (hall : a ∈ all) (hpath : a ∉ path) : unmet all (a :: path) < unmet all path := by
  induction all with
  | nil => simp at hall
  | cons b rest ih =>
    have hle := unmet_cons_le rest path a
    unfold unmet at ih hle ⊢
    simp only [List.countP_cons]
    by_cases hb : b = a
    · rw [if_neg (by simp [hb]), if_pos (by simpa [hb] using hpath)]
      omega
    · have hin : a ∈ rest := (List.mem_cons.1 hall).resolve_left (Ne.symm hb)
      have := ih hin
      have hsame : decide (b ∉ a :: path) = decide (b ∉ path) := by simp [hb]
      rw [hsame]
      omega

end PipeScript.Heap
