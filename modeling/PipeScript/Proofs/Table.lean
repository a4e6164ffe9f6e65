/-
Tables are their look-ups: two tables have the same keys with related values in the same order
exactly when related values are found under every key.
-/
import Mathlib.Data.List.Forall2
import PipeScript.Table

namespace PipeScript.Table

variable {α β : Type}

/-- The value of a key in a row of entries. -/
def lookup (key : String) (es : List (String × α)) : Option α :=
  (es.find? (·.1 == key)).map (·.2)

theorem lookup_cons (key : String) (a : String × α) (es : List (String × α)) :
    lookup key (a :: es) = if a.1 = key then some a.2 else lookup key es := by
  unfold lookup
  by_cases h : a.1 = key <;> simp [h]

/-- Below the keys of a row nothing is found. -/
theorem lookup_eq_none {key : String} {es : List (String × α)} (h : ∀ a ∈ es, key < a.1) :
    lookup key es = none := by
  induction es with
  | nil => rfl
  | cons a es ih =>
    have hne : a.1 ≠ key := fun he => String.lt_irrefl key (he ▸ h a List.mem_cons_self)
    rw [lookup_cons, if_neg hne]
    exact ih fun b hb => h b (List.mem_cons_of_mem _ hb)

theorem lookup_rel {R : α → β → Prop} {es : List (String × α)} {fs : List (String × β)}
    (h : List.Forall₂ (fun a b => a.1 = b.1 ∧ R a.2 b.2) es fs) (key : String) :
    Option.Rel R (lookup key es) (lookup key fs) := by
  induction h with
  | nil => exact .none
  | @cons a b es fs hab _ ih =>
    rw [lookup_cons, lookup_cons, ← hab.1]
    by_cases hk : a.1 = key
    · rw [if_pos hk, if_pos hk]; exact .some hab.2
    · rw [if_neg hk, if_neg hk]; exact ih

/-- A key of one row that is below the first key of the other is found in one row only. -/
theorem not_rel_of_lt {R : Option α → Option β → Prop} (hR : ∀ a, ¬R (some a) none) {a : String × α}
    {es : List (String × α)} {b : String × β} {fs : List (String × β)} (hb : ∀ c ∈ fs, b.1 < c.1)
    (hab : a.1 < b.1) : ¬R (lookup a.1 (a :: es)) (lookup a.1 (b :: fs)) := by
  have hnone : lookup a.1 (b :: fs) = none := by
    refine lookup_eq_none fun c hc => ?_
    rcases List.mem_cons.1 hc with rfl | hc
    · exact hab
    · exact String.lt_trans hab (hb c hc)
  rw [hnone, lookup_cons, if_pos rfl]
  exact hR a.2

theorem forall₂_of_lookup {R : α → β → Prop} :
    ∀ {es : List (String × α)} {fs : List (String × β)}, es.Pairwise (fun a b => a.1 < b.1) →
      fs.Pairwise (fun a b => a.1 < b.1) → (∀ key, Option.Rel R (lookup key es) (lookup key fs)) →
      List.Forall₂ (fun a b => a.1 = b.1 ∧ R a.2 b.2) es fs
  | [], [], _, _, _ => .nil
  | [], b :: fs, _, _, h => by
    have := h b.1
    rw [lookup_cons, if_pos rfl] at this
    cases this
  | a :: es, [], _, _, h => by
    have := h a.1
    rw [lookup_cons, if_pos rfl] at this
    cases this
  | a :: es, b :: fs, hes, hfs, h => by
    obtain ⟨ha, hes⟩ := List.pairwise_cons.1 hes
    obtain ⟨hb, hfs⟩ := List.pairwise_cons.1 hfs
    -- the least keys of two tables with the same keys are the same
    have hkey : a.1 = b.1 := by
      refine String.le_antisymm (String.not_lt.1 fun hlt => ?_) (String.not_lt.1 fun hlt => ?_)
      · exact not_rel_of_lt (R := fun x y => Option.Rel R y x) (fun _ hr => by cases hr) ha hlt (h b.1)
      · exact not_rel_of_lt (R := Option.Rel R) (fun _ hr => by cases hr) hb hlt (h a.1)
    have hval : R a.2 b.2 := by
      have := h a.1
      rw [lookup_cons, lookup_cons, if_pos rfl, if_pos hkey.symm] at this
      cases this
      assumption
    refine .cons ⟨hkey, hval⟩ (forall₂_of_lookup hes hfs fun key => ?_)
    by_cases hk : a.1 = key
    · subst hk
      rw [lookup_eq_none ha, lookup_eq_none (hkey ▸ hb)]
      exact .none
    · have := h key
      rwa [lookup_cons, lookup_cons, if_neg hk, if_neg (hkey ▸ hk)] at this

/-- Two tables have related values under every key, and no key that the other lacks, exactly when
their entries are so related one by one. -/
theorem forall₂_entries_iff {R : α → β → Prop} {t : Table α} {u : Table β} :
    List.Forall₂ (fun a b => a.1 = b.1 ∧ R a.2 b.2) t.entries u.entries ↔
      ∀ key, Option.Rel R (t.get? key) (u.get? key) :=
  ⟨fun h key => lookup_rel h key, fun h => forall₂_of_lookup t.ascending u.ascending h⟩

theorem mem_values_of_get? {t : Table α} {key : String} {a : α} (h : t.get? key = some a) : a ∈ t.values := by
  obtain ⟨e, he, rfl⟩ := Option.map_eq_some_iff.1 h
  exact List.mem_map_of_mem (List.mem_of_find?_eq_some he)

end PipeScript.Table
