/-
The extremes of sorted values. Where sorting succeeds, all items are in order with one another, so that each
has a key and the order is that of the keys. The least item found by going through the items once is then the
one that the sorted list begins with, and the greatest one is the first of those that are equal to its end.

One argument serves both: the item kept is the one with the lowest rank so far, and the first among equals. For
the least item the rank is the key, and for the greatest one it is the key read the other way round.
-/
import Mathlib.Data.Prod.Lex
import PipeScript.Proofs.Sorting.Lists

namespace PipeScript

/-! ## Total orders -/

/-- Where each two different things of several have an order, it is the order of keys. -/
theorem Coherent.exists_eq_byKey {n : Nat} {order : Fin n → Fin n → Option Ordering} (hc : Coherent order)
    (hn : 2 ≤ n) (hall : ∀ i j, i ≠ j → order i j ≠ none) : ∃ key : Fin n → Nat, order = byKey key := by
  obtain ⟨key, hkey, -⟩ := hc.exists_isKey (fun _ => .inl rfl) (fun hij hjk => hij.trans hc hjk) id
    (not_atMost_of_lt hc)
  have hsome (i j : Fin n) : order i j ≠ none := by
    by_cases hij : i = j
    · -- what has an order with something has one with itself
      subst hij
      have : Nontrivial (Fin n) := Fin.nontrivial_iff_two_le.2 hn
      obtain ⟨k, hk⟩ := exists_ne i
      exact fun hself => hall i k hk.symm (hc.self hself k)
    · exact hall i j hij
  refine ⟨key, funext fun i => funext fun j => ?_⟩
  obtain ⟨o, ho⟩ := Option.ne_none_iff_exists'.1 (hsome i j)
  rw [hkey i j o ho, ho]

namespace Comparison

open Coherent

variable {h : Heap} {wanted o : Ordering} {best v : Value} {vs vs' args : List Value}

/-! ## Going through the items -/

theorem extremeFrom_cons (ho : h.order v best = some o) : extremeFrom wanted h best (v :: vs) =
    extremeFrom wanted h (if o = wanted then v else best) vs := by
  rw [extremeFrom, order, ho]
  rfl

section

variable {n : Nat} {α : Type} [LinearOrder α] {f : Fin n → Value} {rank : Fin n → α}

/-- Where an item stands among all: first by its rank, and by its place among those of one rank. -/
def standing (rank : Fin n → α) (i : Fin n) : α ×ₗ Fin n :=
  toLex (rank i, i)

theorem standing_le_iff {i j : Fin n} :
    standing rank i ≤ standing rank j ↔ rank i < rank j ∨ rank i = rank j ∧ i ≤ j :=
  Prod.Lex.toLex_le_toLex

/-- If an item takes the place of the best one so far exactly when it has a lower rank, the item kept is the one
that stands before all others. -/
theorem extremeFrom_standing
    (horder : ∀ i j, ∃ o, h.order (f i) (f j) = some o ∧ (o = wanted ↔ rank i < rank j)) {b : Fin n}
    {is : List (Fin n)} (hlt : (b :: is).Pairwise (· < ·)) :
    ∃ m ∈ b :: is, extremeFrom wanted h (f b) (is.map f) = .ok (f m) ∧
      ∀ i ∈ b :: is, standing rank m ≤ standing rank i := by
  induction is generalizing b with
  | nil => exact ⟨b, List.mem_cons_self, rfl, by simp⟩
  | cons i is ih =>
    obtain ⟨hb, hlater⟩ := List.pairwise_cons.1 hlt
    obtain ⟨o, ho, hwanted⟩ := horder i b
    rw [List.map_cons, extremeFrom_cons ho]
    by_cases hi : rank i < rank b
    · rw [if_pos (hwanted.2 hi)]
      obtain ⟨m, hm, hrun, hall⟩ := ih hlater
      have hib : standing rank i ≤ standing rank b := standing_le_iff.2 (.inl hi)
      exact ⟨m, List.mem_cons_of_mem b hm, hrun,
        List.forall_mem_cons.2 ⟨(hall i List.mem_cons_self).trans hib, hall⟩⟩
    · rw [if_neg fun he => hi (hwanted.1 he)]
      have hsublist : (b :: is).Sublist (b :: i :: is) := (List.sublist_cons_self i is).cons_cons b
      obtain ⟨m, hm, hrun, hall⟩ := ih (hlt.sublist hsublist)
      have hbi : standing rank b ≤ standing rank i := by
        rw [standing_le_iff]
        exact (not_lt.1 hi).lt_or_eq.imp_right fun he => ⟨he, (hb i List.mem_cons_self).le⟩
      refine ⟨m, hsublist.subset hm, hrun, ?_⟩
      rw [List.forall_mem_cons] at hall
      exact List.forall_mem_cons.2 ⟨hall.1, List.forall_mem_cons.2 ⟨hall.1.trans hbi, hall.2⟩⟩

end

theorem extreme_of_candidates (hvs : candidates h args = v :: vs) :
    extreme wanted h args = extremeFrom wanted h v vs := by
  rw [extreme, hvs]

/-- The extreme of the items of a list, or of several arguments, is the one that stands before all others. -/
theorem exists_extreme {α : Type} [LinearOrder α] (rank : Fin vs.length → α) (hne : vs ≠ [])
    (horder : ∀ i j : Fin vs.length, ∃ o, h.order (vs.get i) (vs.get j) = some o ∧ (o = wanted ↔ rank i < rank j)) :
    ∃ m : Fin vs.length, (∀ args, candidates h args = vs → extreme wanted h args = .ok (vs.get m)) ∧
      ∀ i, standing rank m ≤ standing rank i := by
  have hplaces : (List.finRange vs.length).map vs.get = vs := List.map_get_finRange vs
  have hlt := List.pairwise_lt_finRange vs.length
  have hmem := List.mem_finRange (n := vs.length)
  generalize List.finRange vs.length = places at hplaces hlt hmem
  cases places with
  | nil => exact absurd hplaces.symm hne
  | cons b is =>
    obtain ⟨m, -, hrun, hall⟩ := extremeFrom_standing horder hlt
    refine ⟨m, fun args hvs => ?_, fun i => hall i (hmem i)⟩
    exact (extreme_of_candidates (hvs.trans hplaces.symm)).trans hrun

/-- Where the order of the items is that of keys, the least one has the lowest key. -/
theorem exists_min {key : Fin vs.length → Nat} (hne : vs ≠ [])
    (hkey : ∀ i j : Fin vs.length, h.order (vs.get i) (vs.get j) = some (compare (key i) (key j))) :
    ∃ m : Fin vs.length, (∀ args, candidates h args = vs → min h args = .ok (vs.get m)) ∧
      ∀ i, standing key m ≤ standing key i :=
  exists_extreme key hne fun i j => ⟨_, hkey i j, Nat.compare_eq_lt⟩

/-- The greatest one has the highest key. -/
theorem exists_max {key : Fin vs.length → Nat} (hne : vs ≠ [])
    (hkey : ∀ i j : Fin vs.length, h.order (vs.get i) (vs.get j) = some (compare (key i) (key j))) :
    ∃ m : Fin vs.length, (∀ args, candidates h args = vs → max h args = .ok (vs.get m)) ∧
      ∀ i, key i < key m ∨ key i = key m ∧ m ≤ i := by
  obtain ⟨m, hmax, hall⟩ := exists_extreme (OrderDual.toDual ∘ key) hne
    fun i j => ⟨_, hkey i j, Nat.compare_eq_gt⟩
  refine ⟨m, hmax, fun i => ?_⟩
  exact (standing_le_iff.1 (hall i)).imp id (.imp_left fun he => (OrderDual.toDual.injective he).symm)

theorem candidates_of_two_le (hn : 2 ≤ vs.length) : candidates h vs = vs := by
  unfold candidates
  split
  · simp at hn
  · rfl

/-! ## Sorting tame values -/

/-- Where sorting tame values succeeds, each two different items have an order, and all stand in ascending
order. -/
theorem exists_ascending_of_sorted (ht : ∀ v ∈ vs, h.Tame v) (hsorted : sorted h vs = .ok vs') :
    (∀ i j : Fin vs.length, i ≠ j → h.order (vs.get i) (vs.get j) ≠ none) ∧ ∃ row : List (Fin vs.length),
      Ascending (fun i j => h.order (vs.get i) (vs.get j)) row ∧ vs' = row.map vs.get := by
  have hc : Coherent fun i j : Fin vs.length => h.order (vs.get i) (vs.get j) := Heap.coherent_order ht
  have hstable := Comparing.insertion_sortsStably vs.length
  rw [sorted_eq] at hsorted
  change answer vs.get ((Comparing.insertion _).outcome fun i j => h.order (vs.get i) (vs.get j)) = _ at hsorted
  cases hrow : (Comparing.insertion (List.finRange vs.length)).outcome fun i j => h.order (vs.get i) (vs.get j) with
  | error q =>
    rw [hrow] at hsorted
    cases hsorted
  | ok row =>
    rw [hrow] at hsorted
    cases hsorted
    exact ⟨fun i j => hstable.order_ne_none hc hrow, row, hstable.ascending hc hrow, rfl⟩

end Comparison

section

open Coherent Comparison

variable {n : Nat} {key : Fin n → Nat} {row : List (Fin n)} {m : Fin n}

/-- An ascending row begins with the place that stands before all others. -/
theorem Ascending.head?_eq (hrow : Ascending (byKey key) row) (hm : ∀ i, standing key m ≤ standing key i) :
    row.head? = some m := by
  cases row with
  | nil => cases hrow.mem m
  | cons i row =>
    have hi := standing_le_iff.1 (hm i)
    rcases List.mem_cons.1 (hrow.mem m) with rfl | hmem
    · rfl
    · have him := precedes_byKey.1 ((List.pairwise_cons.1 hrow.pairwise).1 m hmem)
      omega

/-- No place has a higher key than the one at the end of an ascending row. -/
theorem Ascending.exists_getLast? (hrow : Ascending (byKey key) row) (i : Fin n) :
    ∃ last, row.getLast? = some last ∧ ∀ i, key i ≤ key last := by
  have hne : row ≠ [] := List.ne_nil_of_mem (hrow.mem i)
  refine ⟨row.getLast hne, List.getLast?_eq_some_getLast hne, fun i => ?_⟩
  have hpairwise := hrow.pairwise
  have hmem := hrow.mem i
  rw [← List.dropLast_append_getLast hne] at hpairwise hmem
  rcases List.mem_append.1 hmem with hi | hi
  · have hprecedes := precedes_byKey.1 ((List.pairwise_append.1 hpairwise).2.2 i hi _ (List.mem_singleton_self _))
    omega
  · rw [List.mem_singleton.1 hi]

end

namespace Comparison

variable {h : Heap} {vs vs' : List Value}

/-- Where sorting two or more tame values succeeds, the least of them is the one that the sorted values begin
with, the earliest one that no other is less than; and the greatest is the earliest one that is equal to the one
at the end. -/
theorem exists_extremes_of_sorted (hn : 2 ≤ vs.length) (ht : ∀ v ∈ vs, h.Tame v) (hsorted : sorted h vs = .ok vs') :
    ∃ (least greatest : Fin vs.length) (last : Value),
      vs'.head? = some (vs.get least) ∧
      (∀ i, i ≠ least → Precedes (fun i j : Fin vs.length => h.order (vs.get i) (vs.get j)) least i) ∧
      vs'.getLast? = some last ∧ h.order (vs.get greatest) last = some .eq ∧
      (∀ i : Fin vs.length, h.order (vs.get i) last = some .eq → greatest ≤ i) ∧
      ∀ args, candidates h args = vs → min h args = .ok (vs.get least) ∧ max h args = .ok (vs.get greatest) := by
  have hne : vs ≠ [] := List.ne_nil_of_length_pos (Nat.zero_lt_of_lt hn)
  obtain ⟨hall, row, hrow, rfl⟩ := exists_ascending_of_sorted ht hsorted
  obtain ⟨key, hkey⟩ := (Heap.coherent_order ht).exists_eq_byKey hn hall
  have horder (i j : Fin vs.length) : h.order (vs.get i) (vs.get j) = some (compare (key i) (key j)) :=
    congrFun (congrFun hkey i) j
  rw [hkey] at hrow ⊢
  obtain ⟨least, hmin, hbelow⟩ := exists_min hne horder
  obtain ⟨greatest, hmax, habove⟩ := exists_max hne horder
  obtain ⟨last, hlast, hupper⟩ := hrow.exists_getLast? least
  -- nothing has a higher key than the greatest item, and nothing than the end of the row
  have hequal : key greatest = key last := by
    have := habove last
    have := hupper greatest
    omega
  refine ⟨least, greatest, vs.get last, ?_, fun i hi => ?_, ?_, ?_, fun i hi => ?_,
    fun args hargs => ⟨hmin args hargs, hmax args hargs⟩⟩
  · rw [List.head?_map, hrow.head?_eq hbelow]
    rfl
  · rw [precedes_byKey]
    exact (standing_le_iff.1 (hbelow i)).imp_right fun ⟨hk, hle⟩ => ⟨hk, hle.lt_of_ne hi.symm⟩
  · rw [List.getLast?_map, hlast]
    rfl
  · exact (horder greatest last).trans (congrArg some (Nat.compare_eq_eq.2 hequal))
  · have hi : key i = key last := Nat.compare_eq_eq.1 (Option.some.inj ((horder i last).symm.trans hi))
    exact ((habove i).resolve_left (by omega)).2

end Comparison

/-! ## The functions -/

open Comparison in
/-- Where sorting a list of two or more tame values succeeds, the least of them is the item that the sorted list
begins with, the earliest one that no other is less than; and the greatest is the earliest item that is equal to
the one at its end. To pass the items as arguments of their own makes no difference. -/
theorem extremes_of_sort {σ : Type} (fuel : Nat) (call : Caller σ) {w w' : World σ} {r : ListRef} {v : Value}
    (hn : 2 ≤ (w.heap.items r).length) (ht : ∀ v ∈ w.heap.items r, w.heap.Tame v)
    (hsort : (Builtin.sort.run fuel call [.list r]).run.run w = (.ok v, w')) :
    let vs := w.heap.items r
    let order (i j : Fin vs.length) := w.heap.order (vs.get i) (vs.get j)
    ∃ s, v = .list s ∧ ∃ (least greatest : Fin vs.length) (last : Value),
      (w'.heap.items s).head? = some (vs.get least) ∧ (∀ i, i ≠ least → Precedes order least i) ∧
      (w'.heap.items s).getLast? = some last ∧ w.heap.order (vs.get greatest) last = some .eq ∧
      (∀ i, w.heap.order (vs.get i) last = some .eq → greatest ≤ i) ∧
      ∀ args ∈ [[.list r], vs],
        (Builtin.min.run fuel call args).run.run w = (.ok (vs.get least), w) ∧
        (Builtin.max.run fuel call args).run.run w = (.ok (vs.get greatest), w) := by
  intro vs order
  rw [run_sort] at hsort
  cases hsorted : sorted w.heap vs with
  | error e =>
    rw [hsorted] at hsort
    cases hsort
  | ok vs' =>
    rw [hsorted] at hsort
    cases hsort
    have hitems : (w.heap.newList vs').2.items (w.heap.newList vs').1 = vs' := by rw [Heap.items_newList, if_pos rfl]
    obtain ⟨least, greatest, last, hhead, hbelow, hlast, hequal, hearliest, hrun⟩ :=
      exists_extremes_of_sorted hn ht hsorted
    refine ⟨_, rfl, least, greatest, last, (congrArg List.head? hitems).trans hhead, hbelow,
      (congrArg List.getLast? hitems).trans hlast, hequal, hearliest, fun args hargs => ?_⟩
    have hcandidates : candidates w.heap args = vs := by
      simp only [List.mem_cons, List.not_mem_nil, or_false] at hargs
      rcases hargs with rfl | rfl
      · rfl
      · exact candidates_of_two_le hn
    obtain ⟨hmin, hmax⟩ := hrun args hcandidates
    refine ⟨(Run.run_reading (Comparison.min · args) w).trans ?_,
      (Run.run_reading (Comparison.max · args) w).trans ?_⟩
    · rw [hmin]
      rfl
    · rw [hmax]
      rfl

/-- A list of three lists, of which the first and the last hold a number and an empty list each. -/
def tiedLists : World Unit where
  heap := { lists := #[[.list ⟨1⟩, .list ⟨2⟩, .list ⟨3⟩], [.int 2, .list ⟨4⟩], [.int 1], [.int 2, .list ⟨5⟩], [], []] }
  context := { draws := ⟨fun _ => 0, 0⟩, clock := ⟨fun _ => 0, 0⟩ }
  host := ()

/-- The last list stays at the end, and the first one is the greatest. -/
theorem extremes_of_sort_tiedLists :
    2 ≤ (tiedLists.heap.items ⟨0⟩).length ∧ (∀ v ∈ tiedLists.heap.items ⟨0⟩, tiedLists.heap.Tame v) ∧
      ∃ w', (Builtin.sort.run 0 (fun _ _ => throw .exhausted) [.list ⟨0⟩]).run.run tiedLists =
          (.ok (.list ⟨6⟩), w') ∧
        w'.heap.items ⟨6⟩ = [.list ⟨2⟩, .list ⟨1⟩, .list ⟨3⟩] ∧
        (Builtin.min.run 0 (fun _ _ => throw .exhausted) [.list ⟨0⟩]).run.run tiedLists =
          (.ok (.list ⟨2⟩), tiedLists) ∧
        (Builtin.max.run 0 (fun _ _ => throw .exhausted) [.list ⟨1⟩, .list ⟨2⟩, .list ⟨3⟩]).run.run tiedLists =
          (.ok (.list ⟨1⟩), tiedLists) := by
  have hint (n : Int64) : tiedLists.heap.Tame (.int n) := Heap.tame_of_leaf nofun fun c => by cases c <;> nofun
  have hempty (r : ListRef) (hr : tiedLists.heap.items r = []) : tiedLists.heap.Tame (.list r) :=
    Heap.tame_list (hr ▸ nofun)
  have hone : tiedLists.heap.Tame (.list ⟨2⟩) :=
    Heap.tame_list (List.forall_mem_singleton.2 (hint 1))
  have htwo (r s : ListRef) (hr : tiedLists.heap.items r = [.int 2, .list s]) (hs : tiedLists.heap.items s = []) :
      tiedLists.heap.Tame (.list r) := by
    refine Heap.tame_list ?_
    rw [hr]
    exact List.forall_mem_cons.2 ⟨hint 2, List.forall_mem_singleton.2 (hempty s hs)⟩
  have htame : ∀ v ∈ tiedLists.heap.items ⟨0⟩, tiedLists.heap.Tame v :=
    List.forall_mem_cons.2 ⟨htwo ⟨1⟩ ⟨4⟩ rfl rfl, List.forall_mem_cons.2 ⟨hone,
      List.forall_mem_singleton.2 (htwo ⟨3⟩ ⟨5⟩ rfl rfl)⟩⟩
  have hsorted : Comparison.sorted tiedLists.heap (tiedLists.heap.items ⟨0⟩) =
      .ok [.list ⟨2⟩, .list ⟨1⟩, .list ⟨3⟩] := by decide +kernel
  have hsort := run_sort 0 (fun _ _ => throw .exhausted) tiedLists ⟨0⟩
  rw [hsorted] at hsort
  obtain ⟨s, hs, least, greatest, last, hhead, -, hlast, -, hfirst, hrun⟩ :=
    extremes_of_sort 0 (fun _ _ => throw .exhausted) (by decide) htame hsort
  cases hs
  obtain ⟨hmin, -⟩ := hrun _ List.mem_cons_self
  obtain ⟨-, hmax⟩ := hrun _ (List.mem_cons_of_mem _ List.mem_cons_self)
  refine ⟨by decide, htame, _, hsort, rfl, ?_, ?_⟩
  · rw [hmin, ← Option.some.inj hhead]
  · -- the first list is equal to the one at the end, so that the greatest comes no later
    cases hlast
    have hle : greatest ≤ ⟨0, by decide⟩ := hfirst ⟨0, by decide⟩ (by decide +kernel)
    obtain rfl : greatest = ⟨0, by decide⟩ := le_antisymm hle (Nat.zero_le _)
    exact hmax

end PipeScript
