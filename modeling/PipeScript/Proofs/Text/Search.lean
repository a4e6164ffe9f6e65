/-
Cutting a text at the occurrences of a separator. The occurrences that count are those found from the left, each one
behind the end of the one before; that is, every occurrence is one of them or begins inside one of them, and no two
of them overlap. There is one such row for each text and separator. The separators between the parts stand exactly
there, so that no part has the separator in it, and to put another text between the parts is to replace it.
-/
import Mathlib.Data.List.Pairwise
import Mathlib.Data.List.Sort
import Mathlib.Data.Nat.Init
import PipeScript.Text.Search

namespace PipeScript.Text

variable {d cs : List Char}

/-! ## Occurrences found from the left -/

/-- The places are those at which the text has the separator, found from the left without overlapping. -/
structure FoundFromLeft (d cs : List Char) (places : List Nat) : Prop where
  occurs : ∀ i ∈ places, d <+: cs.drop i
  apart : places.Pairwise fun i j => i + d.length ≤ j
  /-- An occurrence that isn't found begins inside of one that is. -/
  covered : ∀ j, d <+: cs.drop j → ∃ i ∈ places, i ≤ j ∧ j < i + d.length

namespace FoundFromLeft

variable {places places' : List Nat}

theorem nil (hd : d ≠ []) : FoundFromLeft d [] [] where
  occurs := nofun
  apart := .nil
  covered _ hj := absurd (List.prefix_nil.1 (List.drop_nil ▸ hj)) hd

/-- Behind an occurrence the search goes on. -/
theorem here (hd : d <+: cs) (h : FoundFromLeft d (cs.drop d.length) places) :
    FoundFromLeft d cs (0 :: places.map (· + d.length)) := by
  constructor
  · simp only [List.forall_mem_cons, List.forall_mem_map]
    refine ⟨hd, fun i hi => ?_⟩
    have := h.occurs i hi
    rwa [List.drop_drop, Nat.add_comm] at this
  · refine List.pairwise_cons.2 ⟨?_, ?_⟩
    · simp
    · rw [List.pairwise_map]
      exact h.apart.imp fun hij => by omega
  · intro j hj
    by_cases hlt : j < d.length
    · exact ⟨0, List.mem_cons_self, by omega, by omega⟩
    · have hj' : d <+: (cs.drop d.length).drop (j - d.length) := by
        rwa [List.drop_drop, Nat.add_sub_cancel' (by omega)]
      obtain ⟨i, hi, hle, hlt'⟩ := h.covered _ hj'
      exact ⟨i + d.length, List.mem_cons_of_mem _ (List.mem_map_of_mem hi), by omega, by omega⟩

/-- Where there is no occurrence the search goes on at the next character. -/
theorem next {c : Char} (hd : ¬d <+: c :: cs) (h : FoundFromLeft d cs places) :
    FoundFromLeft d (c :: cs) (places.map (· + 1)) := by
  constructor
  · rw [List.forall_mem_map]
    exact h.occurs
  · rw [List.pairwise_map]
    exact h.apart.imp fun hij => by omega
  · intro j hj
    cases j with
    | zero => exact absurd hj hd
    | succ j =>
      obtain ⟨i, hi, hle, hlt⟩ := h.covered j hj
      exact ⟨i + 1, List.mem_map_of_mem hi, by omega, by omega⟩

theorem mem_of_forall_lt (h : FoundFromLeft d cs places) (h' : FoundFromLeft d cs places') {i : Nat}
    (hlt : ∀ j < i, j ∈ places' → j ∈ places) (hi : i ∈ places) : i ∈ places' := by
  obtain ⟨j, hj, hji, hij⟩ := h'.covered i (h.occurs i hi)
  rcases hji.eq_or_lt with rfl | hji
  · exact hj
  · -- two places of the one row would overlap
    have : Std.Symm fun i j => i + d.length ≤ j ∨ j + d.length ≤ i := ⟨fun _ _ hor => hor.symm⟩
    have hapart : places.Pairwise fun i j => i + d.length ≤ j ∨ j + d.length ≤ i := h.apart.imp .inl
    have := hapart.forall (hlt j hji hj) hi hji.ne
    omega

/-- There is one way to find occurrences from the left. -/
theorem unique (hd : d ≠ []) (h : FoundFromLeft d cs places) (h' : FoundFromLeft d cs places') :
    places = places' := by
  have hpos : 0 < d.length := List.length_pos_iff.2 hd
  have hmem (i : Nat) : i ∈ places ↔ i ∈ places' := by
    induction i using Nat.strong_induction_on with
    | _ i ih =>
      exact ⟨h.mem_of_forall_lt h' fun j hj => (ih j hj).2, h'.mem_of_forall_lt h fun j hj => (ih j hj).1⟩
  have hlt : places.Pairwise (· < ·) := h.apart.imp fun hij => by omega
  have hlt' : places'.Pairwise (· < ·) := h'.apart.imp fun hij => by omega
  exact hlt.eq_of_mem_iff hlt' hmem

end FoundFromLeft

/-! ## Parts -/

theorem splitAt_here (hd : d ≠ []) (hcs : d <+: cs) : splitAt d cs = [] :: splitAt d (cs.drop d.length) := by
  cases cs with
  | nil => exact absurd (List.prefix_nil.1 hcs) hd
  | cons c cs => rw [splitAt, if_pos ⟨hd, List.isPrefixOf_iff_prefix.2 hcs⟩]

theorem splitAt_next {c : Char} {part : List Char} {parts : List (List Char)} (hd : ¬d <+: c :: cs)
    (hparts : splitAt d cs = part :: parts) : splitAt d (c :: cs) = (c :: part) :: parts := by
  rw [splitAt, if_neg fun h => hd (List.isPrefixOf_iff_prefix.1 h.2), hparts]

/-- The parts of a text are found from the left: behind an occurrence of the separator the next part begins, and any
other character belongs to the first part. -/
theorem splitAt_induction (hd : d ≠ []) {motive : List Char → List (List Char) → Prop} (nil : motive [] [[]])
    (here : ∀ cs part parts, d <+: cs → splitAt d (cs.drop d.length) = part :: parts →
      motive (cs.drop d.length) (part :: parts) → motive cs ([] :: part :: parts))
    (next : ∀ c cs part parts, ¬d <+: c :: cs → splitAt d cs = part :: parts → motive cs (part :: parts) →
      motive (c :: cs) ((c :: part) :: parts))
    (cs : List Char) : motive cs (splitAt d cs) := by
  induction hn : cs.length using Nat.strong_induction_on generalizing cs with
  | _ n ih =>
    by_cases hcs : d <+: cs
    · have hpos : 0 < d.length := List.length_pos_iff.2 hd
      have hle := hcs.length_le
      have hrest := ih (cs.drop d.length).length (by rw [List.length_drop]; omega) _ rfl
      rw [splitAt_here hd hcs]
      obtain ⟨part, parts, hparts⟩ := List.exists_cons_of_ne_nil (splitAt_ne_nil d (cs.drop d.length))
      rw [hparts] at hrest ⊢
      exact here cs part parts hcs hparts hrest
    · cases cs with
      | nil =>
        rw [splitAt]
        exact nil
      | cons c cs =>
        have hrest := ih cs.length (by rw [← hn]; exact Nat.lt_succ_self _) cs rfl
        obtain ⟨part, parts, hparts⟩ := List.exists_cons_of_ne_nil (splitAt_ne_nil d cs)
        rw [hparts] at hrest
        rw [splitAt_next hcs hparts]
        exact next c cs part parts hcs hparts hrest

theorem joinWith_cons (r part next : List Char) (parts : List (List Char)) :
    joinWith r (part :: next :: parts) = part ++ r ++ joinWith r (next :: parts) :=
  List.intercalate_cons_cons

theorem joinWith_cons_cons (r part : List Char) (parts : List (List Char)) (c : Char) :
    joinWith r ((c :: part) :: parts) = c :: joinWith r (part :: parts) := by
  cases parts <;> simp [joinWith]

theorem prefix_joinWith (r part : List Char) (parts : List (List Char)) : part <+: joinWith r (part :: parts) := by
  cases parts with
  | nil => simp [joinWith]
  | cons next parts =>
    rw [joinWith_cons, List.append_assoc]
    exact List.prefix_append _ _

theorem replaceAll_here (hd : d ≠ []) (hcs : d <+: cs) (r : List Char) :
    replaceAll d r cs = r ++ replaceAll d r (cs.drop d.length) := by
  cases cs with
  | nil => exact absurd (List.prefix_nil.1 hcs) hd
  | cons c cs => rw [replaceAll, if_neg hd, if_pos (List.isPrefixOf_iff_prefix.2 hcs)]

theorem replaceAll_next (hd : d ≠ []) {c : Char} (hcs : ¬d <+: c :: cs) (r : List Char) :
    replaceAll d r (c :: cs) = c :: replaceAll d r cs := by
  rw [replaceAll, if_neg hd, if_neg (mt List.isPrefixOf_iff_prefix.1 hcs)]

/-- To put another text between the parts is to replace the separator. -/
theorem joinWith_splitAt_eq_replaceAll (hd : d ≠ []) (r cs : List Char) :
    joinWith r (splitAt d cs) = replaceAll d r cs := by
  refine splitAt_induction hd (motive := fun cs parts => joinWith r parts = replaceAll d r cs) ?_ ?_ ?_ cs
  · rw [replaceAll, if_neg hd]
    rfl
  · intro cs part parts hcs _ ih
    rw [joinWith_cons, ih, replaceAll_here hd hcs]
    rfl
  · intro c cs part parts hcs _ ih
    rw [joinWith_cons_cons, ih, replaceAll_next hd hcs]

/-- The parts and the separators between them make up the text. -/
theorem joinWith_splitAt (hd : d ≠ []) (cs : List Char) : joinWith d (splitAt d cs) = cs := by
  refine splitAt_induction hd (motive := fun cs parts => joinWith d parts = cs) rfl ?_ ?_ cs
  · intro cs part parts hcs _ ih
    rw [joinWith_cons, ih, List.nil_append]
    exact (List.prefix_iff_eq_append.1 hcs)
  · intro c cs part parts _ _ ih
    rw [joinWith_cons_cons, ih]

/-- No part has the separator in it. -/
theorem not_infix_of_mem_splitAt (hd : d ≠ []) (cs : List Char) : ∀ part ∈ splitAt d cs, ¬d <:+: part := by
  refine splitAt_induction hd (motive := fun cs parts => ∀ part ∈ parts, ¬d <:+: part) ?_ ?_ ?_ cs
  · simp [hd]
  · intro cs part parts _ _ ih
    refine List.forall_mem_cons.2 ⟨?_, ih⟩
    simp [hd]
  · intro c cs part parts hcs hparts ih
    rw [List.forall_mem_cons] at ih ⊢
    refine ⟨fun hinfix => ?_, ih.2⟩
    -- a part is where the text begins, so what begins it begins the text
    have hpart : part <+: cs := by
      have hcs := joinWith_splitAt hd cs
      rw [hparts] at hcs
      exact hcs ▸ prefix_joinWith d part parts
    rcases List.infix_cons_iff.1 hinfix with hfront | hinfix
    · exact hcs (hfront.trans ((List.prefix_cons_inj c).2 hpart))
    · exact ih.1 hinfix

/-- The places at which separators of length `n` stand between the parts. -/
def separators (n : Nat) : List (List Char) → List Nat
  | part :: next :: parts => part.length :: (separators n (next :: parts)).map (· + (part.length + n))
  | _ => []

theorem length_separators_add_one {n : Nat} {parts : List (List Char)} (hparts : parts ≠ []) :
    (separators n parts).length + 1 = parts.length := by
  fun_induction separators n parts with
  | case1 part next parts ih =>
    rw [List.length_cons, List.length_map, ih (List.cons_ne_nil _ _)]
    rfl
  | case2 parts hone =>
    obtain ⟨part, rest, rfl⟩ := List.exists_cons_of_ne_nil hparts
    cases rest with
    | nil => rfl
    | cons next rest => exact absurd rfl (hone part next rest)

theorem separators_cons_cons (n : Nat) (c : Char) (part : List Char) (parts : List (List Char)) :
    separators n ((c :: part) :: parts) = (separators n (part :: parts)).map (· + 1) := by
  cases parts with
  | nil => rfl
  | cons next parts =>
    rw [separators, separators, List.map_cons, List.map_map]
    refine congrArg₂ _ rfl (congrArg₂ _ (funext fun i => ?_) rfl)
    show i + (part.length + 1 + n) = i + (part.length + n) + 1
    omega

/-- The separators between the parts stand where they are found from the left. -/
theorem foundFromLeft_separators (hd : d ≠ []) (cs : List Char) :
    FoundFromLeft d cs (separators d.length (splitAt d cs)) := by
  refine splitAt_induction hd (motive := fun cs parts => FoundFromLeft d cs (separators d.length parts)) ?_ ?_ ?_ cs
  · exact .nil hd
  · intro cs part parts hcs _ ih
    rw [separators, List.length_nil, Nat.zero_add]
    exact ih.here hcs
  · intro c cs part parts hcs _ ih
    rw [separators_cons_cons]
    exact ih.next hcs

end PipeScript.Text
