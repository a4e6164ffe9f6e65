/-
Insertion from the left, as a procedure that asks, and that the sorting of values is this procedure.
The row sorted so far is kept greatest first. Each place that is put into it is greater than all places
in it, so that among equals it belongs after them, which is before them in the row.
-/
import PipeScript.Builtin.Comparison
import PipeScript.Proofs.Sorting.Procedure

namespace PipeScript

namespace Comparing

variable {ι : Type}

/-- Puts something into a row that is given greatest first. -/
def insertDescending (i : ι) : List ι → Comparing ι (List ι)
  | [] => .done [i]
  | j :: js => .ask i j fun o =>
    match o with
    | .lt => (insertDescending i js).bind fun row => .done (j :: row)
    | _ => .done (i :: j :: js)

/-- Puts several things into a row, the first one first. -/
def insertAll (row : List ι) : List ι → Comparing ι (List ι)
  | [] => .done row
  | i :: is => (insertDescending i row).bind fun row => insertAll row is

/-- Sorts by insertion from the left. -/
def insertion (is : List ι) : Comparing ι (List ι) :=
  (insertAll [] is).bind fun row => .done row.reverse

/-! ## Insertion sorts stably -/

section

open Coherent

variable {n : Nat} {key : Fin n → Nat} {i : Fin n} {row is : List (Fin n)}

theorem insertDescending_byKey (hrow : row.Pairwise fun i j => Precedes (byKey key) j i)
    (hlt : ∀ j ∈ row, j < i) : ∃ row', (insertDescending i row).outcome (byKey key) = .ok row' ∧
      row'.Perm (i :: row) ∧ row'.Pairwise fun i j => Precedes (byKey key) j i := by
  induction row with
  | nil => exact ⟨[i], rfl, .rfl, List.pairwise_singleton _ _⟩
  | cons j js ih =>
    obtain ⟨hj, hjs⟩ := List.pairwise_cons.1 hrow
    obtain ⟨hji, hlt'⟩ := List.forall_mem_cons.1 hlt
    rw [insertDescending, outcome_ask rfl]
    by_cases hkey : key i < key j
    · obtain ⟨row', hrow', hperm, hpairwise⟩ := ih hjs hlt'
      refine ⟨j :: row', ?_, (hperm.cons j).trans (.swap i j js), List.pairwise_cons.2 ⟨?_, hpairwise⟩⟩
      · rw [Nat.compare_eq_lt.2 hkey, outcome_bind, hrow']
        rfl
      · intro k hk
        rcases List.mem_cons.1 (hperm.mem_iff.1 hk) with rfl | hk
        · exact precedes_byKey.2 (.inl hkey)
        · exact hj k hk
    · refine ⟨i :: j :: js, ?_, .rfl, List.pairwise_cons.2 ⟨?_, hrow⟩⟩
      · cases hc : compare (key i) (key j) with
        | lt => exact absurd (Nat.compare_eq_lt.1 hc) hkey
        | eq => rfl
        | gt => rfl
      · -- all that does not come after `j` comes before `i`
        intro k hk
        rw [precedes_byKey]
        have hki := hlt k hk
        rcases List.mem_cons.1 hk with rfl | hk
        · omega
        · have hkj := precedes_byKey.1 (hj k hk)
          omega

theorem insertAll_byKey (hrow : row.Pairwise fun i j => Precedes (byKey key) j i) (his : is.Pairwise (· < ·))
    (hlt : ∀ j ∈ row, ∀ i ∈ is, j < i) : ∃ row', (insertAll row is).outcome (byKey key) = .ok row' ∧
      row'.Perm (row ++ is) ∧ row'.Pairwise fun i j => Precedes (byKey key) j i := by
  induction is generalizing row with
  | nil => exact ⟨row, rfl, by simp, hrow⟩
  | cons i is ih =>
    obtain ⟨hi, his⟩ := List.pairwise_cons.1 his
    obtain ⟨row', hrow', hperm, hpairwise⟩ :=
      insertDescending_byKey hrow fun j hj => hlt j hj i List.mem_cons_self
    have hlt' : ∀ j ∈ row', ∀ k ∈ is, j < k := by
      intro j hj k hk
      rcases List.mem_cons.1 (hperm.mem_iff.1 hj) with rfl | hj
      · exact hi k hk
      · exact hlt j hj k (List.mem_cons_of_mem _ hk)
    obtain ⟨row'', hrow'', hperm', hpairwise'⟩ := ih hpairwise his hlt'
    refine ⟨row'', ?_, ?_, hpairwise'⟩
    · rw [insertAll, outcome_bind, hrow']
      exact hrow''
    · exact hperm'.trans ((hperm.append_right is).trans List.perm_middle.symm)

theorem insertion_sortsStably (n : Nat) : (insertion (List.finRange n)).SortsStably := by
  intro key
  have hnil : ([] : List (Fin n)).Pairwise fun i j => Precedes (byKey key) j i := .nil
  obtain ⟨row, hrow, hperm, hpairwise⟩ := insertAll_byKey hnil (List.pairwise_lt_finRange n) nofun
  refine ⟨row.reverse, ?_, (List.reverse_perm row).trans hperm, List.pairwise_reverse.2 hpairwise⟩
  rw [insertion, outcome_bind, hrow]
  rfl

/-- Where each two different places have an order, insertion comes to a row. -/
theorem exists_insertion {order : Fin n → Fin n → Option Ordering} (hc : Coherent order)
    (hall : ∀ i j, i ≠ j → order i j ≠ none) : ∃ row, (insertion (List.finRange n)).outcome order = .ok row := by
  -- no place is compared with itself, for which the general argument needs another place
  rcases n with _ | _ | n
  · exact ⟨[], rfl⟩
  · exact ⟨[0], rfl⟩
  · exact exists_outcome hc (Nat.le_add_left 2 n) hall

end

end Comparing

/-! ## Sorting values -/

namespace Comparison

open Comparing

variable {ι : Type} {h : Heap} {f : ι → Value}

/-- What becomes of values that a procedure sorts: the values in the row that it comes to, or a failure
for the pair that is kept. -/
def answer (f : ι → Value) : Except (ι × ι) (List ι) → Except CallError (List Value)
  | .ok row => .ok (row.map f)
  | .error (i, j) => .error (.value (.cannotCompare (f i).kind (f j).kind))

/-- The values in the row to which a procedure comes that asks for their order. -/
def sortedBy (h : Heap) (vs : List Value) (p : Comparing (Fin vs.length) (List (Fin vs.length))) :
    Except CallError (List Value) :=
  answer (fun i => vs[i]) (p.outcome fun i j => h.order vs[i] vs[j])

theorem answer_toOption (f : ι → Value) (e : Except (ι × ι) (List ι)) :
    (answer f e).toOption = e.toOption.map (List.map f) := by
  cases e <;> rfl

theorem insertDescending_eq (i : ι) (row : List ι) : insertDescending h (f i) (row.map f) =
    answer f ((Comparing.insertDescending i row).outcome fun i j => h.order (f i) (f j)) := by
  induction row with
  | nil => rfl
  | cons j js ih =>
    let ordered (i j : ι) : Option Ordering := h.order (f i) (f j)
    rw [List.map_cons, insertDescending, order, Comparing.insertDescending]
    cases ho : h.order (f i) (f j) with
    | none =>
      have hasked : ordered i j = none := ho
      rw [outcome_ask_none hasked]
      rfl
    | some o =>
      have hasked : ordered i j = some o := ho
      rw [outcome_ask hasked]
      cases o with
      | lt =>
        show (insertDescending h (f i) (js.map f) >>= fun row => Except.ok (f j :: row)) = _
        rw [ih]
        simp only [outcome_bind]
        cases (Comparing.insertDescending i js).outcome fun i j => h.order (f i) (f j) <;> rfl
      | eq => rfl
      | gt => rfl

theorem insertAll_eq (row is : List ι) :
    (is.map f).foldlM (fun row v => insertDescending h v row) (row.map f) =
      answer f ((insertAll row is).outcome fun i j => h.order (f i) (f j)) := by
  induction is generalizing row with
  | nil => rfl
  | cons i is ih =>
    rw [List.map_cons, List.foldlM_cons, insertDescending_eq, insertAll, outcome_bind]
    cases (Comparing.insertDescending i row).outcome fun i j => h.order (f i) (f j) with
    | error q => rfl
    | ok row => exact ih row

/-- Sorting values is insertion from the left. -/
theorem sorted_eq (h : Heap) (vs : List Value) :
    sorted h vs = sortedBy h vs (insertion (List.finRange vs.length)) := by
  have hvs : (List.finRange vs.length).map (fun i => vs[i]) = vs := List.map_getElem_finRange vs
  have hall := insertAll_eq (h := h) (f := fun i : Fin vs.length => vs[i]) [] (List.finRange vs.length)
  rw [hvs, List.map_nil] at hall
  rw [sorted, hall, sortedBy, insertion, outcome_bind]
  cases (insertAll [] (List.finRange vs.length)).outcome fun i j => h.order vs[i] vs[j] with
  | error q => rfl
  | ok row => exact congrArg Except.ok List.map_reverse.symm

end Comparison

end PipeScript
