/-
Sorting by asking. A procedure that sorts learns nothing of the items but the order of the pairs that
it asks for. Where a pair has no order it is told that the two are equal, goes on, and the first such
pair is kept.

Of a procedure that sorts whatever can be sorted, more follows. If all the pairs it asked for have an
order, so have all the others: two items that cannot be ordered could be put in either order without
any of its questions being answered in another way, and it cannot have found the right row for both.
-/
import Mathlib.Data.Finset.Card
import Mathlib.Data.Fintype.Basic
import Mathlib.Data.List.FinRange
import Mathlib.Data.List.Pairwise

namespace PipeScript

/-! ## Procedures that ask -/

/-- A procedure that asks for the order of two things at a time, and goes on by the answer. -/
inductive Comparing (ι α : Type) where
  | done (a : α)
  | ask (i j : ι) (next : Ordering → Comparing ι α)

namespace Comparing

variable {ι α β : Type}

/-- One procedure after another. -/
def bind (f : α → Comparing ι β) : Comparing ι α → Comparing ι β
  | .done a => f a
  | .ask i j next => .ask i j fun o => (next o).bind f

/-- What the procedure comes to where pairs without an order are answered as equal, and the first
such pair that it asked for. -/
def recorded (order : ι → ι → Option Ordering) : Comparing ι α → Option (ι × ι) × α
  | .done a => (none, a)
  | .ask i j next =>
    match order i j with
    | some o => (next o).recorded order
    | none => (some (i, j), ((next .eq).recorded order).2)

/-- What the procedure comes to, unless a pair without an order was kept. -/
def outcome (order : ι → ι → Option Ordering) (p : Comparing ι α) : Except (ι × ι) α :=
  match p.recorded order with
  | (none, a) => .ok a
  | (some q, _) => .error q

variable {order order' : ι → ι → Option Ordering} {i j : ι} {a : α} {next : Ordering → Comparing ι α}

theorem outcome_ask {o : Ordering} (ho : order i j = some o) :
    (ask i j next).outcome order = (next o).outcome order := by
  simp only [outcome, recorded, ho]

theorem outcome_ask_none (ho : order i j = none) : (ask i j next).outcome order = .error (i, j) := by
  simp only [outcome, recorded, ho]

theorem outcome_bind (p : Comparing ι α) (f : α → Comparing ι β) :
    (p.bind f).outcome order = p.outcome order >>= fun a => (f a).outcome order := by
  induction p with
  | done a => rfl
  | ask i j next ih =>
    rw [bind]
    cases ho : order i j with
    | none =>
      rw [outcome_ask_none ho, outcome_ask_none ho]
      rfl
    | some o => rw [outcome_ask ho, outcome_ask ho, ih]

/-- A pair that is kept has no order. -/
theorem order_eq_none_of_outcome {p : Comparing ι α} (h : p.outcome order = .error (i, j)) :
    order i j = none := by
  induction p with
  | done a => cases h
  | ask k l next ih =>
    cases ho : order k l with
    | none =>
      rw [outcome_ask_none ho] at h
      cases h
      exact ho
    | some o =>
      rw [outcome_ask ho] at h
      exact ih o h

/-- Where no pair is kept, more pairs may be given an order: none of them was asked for. -/
theorem outcome_mono (horder : ∀ i j o, order i j = some o → order' i j = some o) {p : Comparing ι α}
    (h : p.outcome order = .ok a) : p.outcome order' = .ok a := by
  induction p with
  | done b => exact h
  | ask i j next ih =>
    cases ho : order i j with
    | none =>
      rw [outcome_ask_none ho] at h
      cases h
    | some o =>
      rw [outcome_ask ho] at h
      rw [outcome_ask (horder i j o ho)]
      exact ih o h

end Comparing

/-! ## Partial orders -/

/-- An order in which some pairs are ordered, and those without gaps between them. -/
structure Coherent {ι : Type} (order : ι → ι → Option Ordering) : Prop where
  swap : ∀ i j, order j i = (order i j).map Ordering.swap
  trans : ∀ {i j k o o'}, order i j = some o → o ≠ .gt → order j k = some o' → o' ≠ .gt →
    ∃ o'', order i k = some o'' ∧ o'' ≠ .gt
  /-- What is not in order with itself is not with anything. -/
  self : ∀ {i}, order i i = none → ∀ j, order i j = none

namespace Coherent

variable {ι : Type} {order : ι → ι → Option Ordering} {i j k : ι}

/-- The same, or not greater. -/
def AtMost (order : ι → ι → Option Ordering) (i j : ι) : Prop :=
  i = j ∨ ∃ o, order i j = some o ∧ o ≠ .gt

theorem AtMost.trans (hc : Coherent order) (hij : AtMost order i j) (hjk : AtMost order j k) :
    AtMost order i k := by
  rcases hij with rfl | ⟨o, ho, hne⟩
  · exact hjk
  rcases hjk with rfl | ⟨o', ho', hne'⟩
  · exact .inr ⟨o, ho, hne⟩
  · exact .inr (hc.trans ho hne ho' hne')

theorem not_atMost_of_lt (hc : Coherent order) (hij : order i j = some .lt) : ¬AtMost order j i := by
  have hji : order j i = some .gt := by rw [hc.swap i j, hij]; rfl
  rintro (rfl | ⟨o, ho, hne⟩)
  · rw [hij] at hji
    cases hji
  · rw [hji] at ho
    exact hne (Option.some.inj ho).symm

/-- The order by a number that each thing has. -/
def byKey (key : ι → Nat) (i j : ι) : Option Ordering :=
  some (compare (key i) (key j))

/-- Numbers that stand in the order of all pairs that have one. -/
def IsKey (order : ι → ι → Option Ordering) (key : ι → Nat) : Prop :=
  ∀ i j o, order i j = some o → byKey key i j = some o

/-- Counting what lies below gives such numbers, for the order or for any preorder that extends it. -/
theorem exists_isKey [Fintype ι] (hc : Coherent order) {R : ι → ι → Prop} (hrefl : ∀ i, R i i)
    (htrans : ∀ {i j k}, R i j → R j k → R i k) (hle : ∀ {i j}, AtMost order i j → R i j)
    (hlt : ∀ {i j}, order i j = some .lt → ¬R j i) :
    ∃ key : ι → Nat, IsKey order key ∧ ∀ i j, R i j → ¬R j i → key i < key j := by
  classical
  let key (i : ι) : Nat := (Finset.univ.filter (R · i)).card
  have hsubset {i j : ι} (hij : R i j) : Finset.univ.filter (R · i) ⊆ Finset.univ.filter (R · j) :=
    Finset.monotone_filter_right _ fun k _ hk => htrans hk hij
  have hmono {i j : ι} (hij : R i j) : key i ≤ key j := Finset.card_le_card (hsubset hij)
  have hstrict {i j : ι} (hij : R i j) (hji : ¬R j i) : key i < key j := by
    refine Finset.card_lt_card ((Finset.ssubset_iff_of_subset (hsubset hij)).2 ⟨j, ?_, ?_⟩)
    · simpa using hrefl j
    · simpa using hji
  refine ⟨key, fun i j o ho => ?_, fun i j => hstrict⟩
  refine congrArg some ?_
  cases o with
  | lt => exact Nat.compare_eq_lt.2 (hstrict (hle (.inr ⟨_, ho, nofun⟩)) (hlt ho))
  | eq =>
    have ho' : order j i = some .eq := by rw [hc.swap i j, ho]; rfl
    exact Nat.compare_eq_eq.2 (Nat.le_antisymm (hmono (hle (.inr ⟨_, ho, nofun⟩)))
      (hmono (hle (.inr ⟨_, ho', nofun⟩))))
  | gt =>
    have ho' : order j i = some .lt := by rw [hc.swap i j, ho]; rfl
    exact Nat.compare_eq_gt.2 (hstrict (hle (.inr ⟨_, ho', nofun⟩)) (hlt ho'))

/-- Two things without an order can stand in either one. -/
theorem exists_isKey_lt [Fintype ι] (hc : Coherent order) (hne : i ≠ j) (hij : order i j = none) :
    ∃ key : ι → Nat, IsKey order key ∧ key i < key j := by
  have hji : ¬AtMost order j i := by
    rintro (rfl | ⟨o, ho, -⟩)
    · exact hne rfl
    · rw [hc.swap i j, hij] at ho
      cases ho
  -- the order with `i` put below `j`
  let R (k l : ι) : Prop := AtMost order k l ∨ AtMost order k i ∧ AtMost order j l
  have hrefl (k : ι) : R k k := .inl (.inl rfl)
  have htrans {k l m : ι} (hkl : R k l) (hlm : R l m) : R k m := by
    rcases hkl with hkl | ⟨hki, hjl⟩ <;> rcases hlm with hlm | ⟨hli, hjm⟩
    · exact .inl (hkl.trans hc hlm)
    · exact .inr ⟨hkl.trans hc hli, hjm⟩
    · exact .inr ⟨hki, hjl.trans hc hlm⟩
    · exact .inr ⟨hki, hjm⟩
  have hlt {k l : ι} (hkl : order k l = some .lt) : ¬R l k := by
    rintro (hlk | ⟨hli, hjk⟩)
    · exact not_atMost_of_lt hc hkl hlk
    · exact hji (hjk.trans hc (.trans hc (.inr ⟨_, hkl, nofun⟩) hli))
  obtain ⟨key, hkey, hstrict⟩ := hc.exists_isKey hrefl htrans .inl hlt
  refine ⟨key, hkey, hstrict i j (.inr ⟨.inl rfl, .inl rfl⟩) ?_⟩
  rintro (h | ⟨h, -⟩) <;> exact hji h

end Coherent

/-! ## Stable sorting -/

section

open Coherent

theorem rel_or_rel_of_pairwise {α : Type} {R : α → α → Prop} {row : List α} (h : row.Pairwise R) {a b : α}
    (ha : a ∈ row) (hb : b ∈ row) (hne : a ≠ b) : R a b ∨ R b a := by
  have : Std.Symm fun a b => R a b ∨ R b a := ⟨fun _ _ => Or.symm⟩
  exact (h.imp (S := fun a b => R a b ∨ R b a) Or.inl).forall ha hb hne

variable {n : Nat}

/-- The first place comes before the second one in a stable row: it is less, or equal and stood before
it already. -/
def Precedes (order : Fin n → Fin n → Option Ordering) (i j : Fin n) : Prop :=
  order i j = some .lt ∨ order i j = some .eq ∧ i < j

instance (order : Fin n → Fin n → Option Ordering) (i j : Fin n) : Decidable (Precedes order i j) :=
  inferInstanceAs (Decidable (_ ∨ _))

theorem precedes_byKey {key : Fin n → Nat} {i j : Fin n} :
    Precedes (byKey key) i j ↔ key i < key j ∨ key i = key j ∧ i < j := by
  simp [Precedes, byKey, Nat.compare_eq_lt]

/-- All places in ascending order, those that are equal as before. -/
structure Ascending (order : Fin n → Fin n → Option Ordering) (row : List (Fin n)) : Prop where
  perm : row.Perm (List.finRange n)
  pairwise : row.Pairwise (Precedes order)

variable {order : Fin n → Fin n → Option Ordering} {row row' : List (Fin n)} {i j : Fin n}

theorem Ascending.mem (h : Ascending order row) (i : Fin n) : i ∈ row :=
  h.perm.mem_iff.2 (List.mem_finRange i)

theorem Precedes.asymm (hc : Coherent order) (hij : Precedes order i j) : ¬Precedes order j i := by
  unfold Precedes at hij ⊢
  rw [hc.swap i j]
  rcases hij with hij | ⟨hij, hlt⟩
  · simp [hij]
  · simpa [hij] using hlt.le

/-- There is one stable row at most. -/
theorem Ascending.unique (hc : Coherent order) (h : Ascending order row) (h' : Ascending order row') :
    row = row' := by
  refine (h.perm.trans h'.perm.symm).eq_of_pairwise (fun i j _ _ hij hji => ?_) h.pairwise h'.pairwise
  exact absurd hji (hij.asymm hc)

namespace Comparing

/-- A procedure that sorts stably whatever can be sorted: items of which each has a key. -/
def SortsStably (p : Comparing (Fin n) (List (Fin n))) : Prop :=
  ∀ key : Fin n → Nat, ∃ row, p.outcome (byKey key) = .ok row ∧ Ascending (byKey key) row

variable {p q : Comparing (Fin n) (List (Fin n))}

theorem SortsStably.ascending_byKey (hp : p.SortsStably) (h : p.outcome order = .ok row) {key : Fin n → Nat}
    (hkey : IsKey order key) : Ascending (byKey key) row := by
  obtain ⟨row', hrow', hascending⟩ := hp key
  rw [outcome_mono hkey h] at hrow'
  cases hrow'
  exact hascending

/-- Where no pair is kept, there is none without an order, asked for or not. -/
theorem SortsStably.order_ne_none (hp : p.SortsStably) (hc : Coherent order) (h : p.outcome order = .ok row)
    (hne : i ≠ j) : order i j ≠ none := by
  intro hij
  have hji : order j i = none := by rw [hc.swap i j, hij]; rfl
  obtain ⟨key, hkey, hlt⟩ := hc.exists_isKey_lt hne hij
  obtain ⟨key', hkey', hlt'⟩ := hc.exists_isKey_lt hne.symm hji
  have hrow := hp.ascending_byKey h hkey
  have hrow' := hp.ascending_byKey h hkey'
  -- the same row would be sorted by both keys, one of which has `i` first and the other one `j`
  rcases rel_or_rel_of_pairwise (hrow.pairwise.and hrow'.pairwise) (hrow.mem i) (hrow.mem j) hne with
    ⟨-, hprecedes⟩ | ⟨hprecedes, -⟩
  all_goals
    rw [precedes_byKey] at hprecedes
    omega

/-- Where no pair is kept, the row is ascending. -/
theorem SortsStably.ascending (hp : p.SortsStably) (hc : Coherent order) (h : p.outcome order = .ok row) :
    Ascending order row := by
  obtain ⟨key, hkey, -⟩ := hc.exists_isKey (fun i => .inl rfl) (fun hij hjk => hij.trans hc hjk) id
    (not_atMost_of_lt hc)
  have hrow := hp.ascending_byKey h hkey
  have hnodup : row.Nodup := hrow.perm.nodup_iff.2 (List.nodup_finRange n)
  refine ⟨hrow.perm, (hrow.pairwise.and hnodup).imp fun {i j} hij => ?_⟩
  obtain ⟨hprecedes, hne⟩ := hij
  obtain ⟨o, ho⟩ := Option.ne_none_iff_exists'.1 (hp.order_ne_none hc h hne)
  have hkeyed := hkey i j o ho
  rw [Precedes, hkeyed, ← ho] at hprecedes
  exact hprecedes

/-- Where each two different places have an order, no pair is kept. -/
theorem exists_outcome (hc : Coherent order) (hn : 2 ≤ n) (hall : ∀ i j, i ≠ j → order i j ≠ none) :
    ∃ row, p.outcome order = .ok row := by
  cases h : p.outcome order with
  | ok row => exact ⟨row, rfl⟩
  | error q =>
    have hq := order_eq_none_of_outcome (i := q.1) (j := q.2) h
    -- a place that is not in order with itself is not with any other
    obtain ⟨k, hk⟩ : ∃ k, q.1 ≠ k := by
      have : Nontrivial (Fin n) := Fin.nontrivial_iff_two_le.2 hn
      exact (exists_ne q.1).imp fun _ => Ne.symm
    by_cases he : q.1 = q.2
    · rw [← he] at hq
      exact absurd (hc.self hq k) (hall _ _ hk)
    · exact absurd hq (hall _ _ he)

/-- What comes of sorting stably does not depend on the procedure, but for the pair that is kept. -/
theorem SortsStably.toOption_eq (hp : p.SortsStably) (hq : q.SortsStably) (hc : Coherent order) (hn : 2 ≤ n) :
    (p.outcome order).toOption = (q.outcome order).toOption := by
  have hsome {p q : Comparing (Fin n) (List (Fin n))} (hp : p.SortsStably) (hq : q.SortsStably)
      {row : List (Fin n)} (h : p.outcome order = .ok row) : q.outcome order = .ok row := by
    obtain ⟨row', h'⟩ := exists_outcome (p := q) hc hn fun i j => hp.order_ne_none hc h
    rw [h', (hp.ascending hc h).unique hc (hq.ascending hc h')]
  cases h : p.outcome order with
  | ok row => rw [hsome hp hq h]
  | error e =>
    cases h' : q.outcome order with
    | ok row =>
      rw [hsome hq hp h'] at h
      cases h
    | error e' => rfl

end Comparing

end

end PipeScript
