/-
First differences. Two values differ first at a place that is reached through finitely many lists:
there they are leaves that do not compare as equal, or one list ends where the other goes on, and
all items before that place are level. Where there is a first difference, the order answers with
what is found there, on every heap and inside whatever pairs: the rule for pairs met again decides
nothing. Level values have no first difference; on a heap with cycles there are also values that
are not level and have none, since the first items that are not level lead ever further inwards.

The order of first differences is lexicographic, and it composes wherever the order of leaves
does.
-/
import PipeScript.Proofs.Heap.Level
import PipeScript.Proofs.Heap.Nesting

namespace PipeScript.Heap

/-! ## Definition -/

/-- The first difference of two sequences, where `L` holds of level items and `D` gives the first
difference of two items. -/
inductive ItemsDiffer (L : Value → Value → Prop) (D : Value → Value → Option Ordering → Prop) :
    List Value → List Value → Option Ordering → Prop
  | head {x y : Value} {xs ys : List Value} {o : Option Ordering} : D x y o →
      ItemsDiffer L D (x :: xs) (y :: ys) o
  | tail {x y : Value} {xs ys : List Value} {o : Option Ordering} : L x y → ItemsDiffer L D xs ys o →
      ItemsDiffer L D (x :: xs) (y :: ys) o
  | shorter {y : Value} {ys : List Value} : ItemsDiffer L D [] (y :: ys) (some .lt)
  | longer {x : Value} {xs : List Value} : ItemsDiffer L D (x :: xs) [] (some .gt)

theorem ItemsDiffer.imp {L : Value → Value → Prop} {D E : Value → Value → Option Ordering → Prop}
    {xs ys : List Value} {o : Option Ordering} (hi : ItemsDiffer L D xs ys o)
    (hD : ∀ x y o, D x y o → E x y o) : ItemsDiffer L E xs ys o := by
  induction hi with
  | head hd => exact .head (hD _ _ _ hd)
  | tail hl _ ih => exact .tail hl ih
  | shorter => exact .shorter
  | longer => exact .longer

/-- The values first differ within `n` lists, and stand in the order `o` there. -/
def Differ (h : Heap) : Nat → Value → Value → Option Ordering → Prop
  | 0, .list _, .list _, _ => False
  | n + 1, .list r, .list s, o => r ≠ s ∧ ItemsDiffer h.Level (h.Differ n) (h.items r) (h.items s) o
  | _, a, b, o => leafOrder a b = o ∧ o ≠ some .eq

variable {h : Heap} {n m : Nat} {a b c : Value} {o o' : Option Ordering}

theorem not_differ_list_zero {r s : ListRef} : ¬h.Differ 0 (.list r) (.list s) o := id

theorem differ_leaf (hl : ∀ r s, a = .list r → b = .list s → False) :
    h.Differ n a b o ↔ leafOrder a b = o ∧ o ≠ some .eq := by
  cases n <;> cases a <;> cases b <;> first | rfl | exact (hl _ _ rfl rfl).elim

/-- Induction on a first difference: it is one of leaves, or of the items of two lists. -/
theorem Differ.place_induction {motive : ∀ n a b o, h.Differ n a b o → Prop}
    (leaf : ∀ n a b (hl : ∀ r s, a = .list r → b = .list s → False) (ho : leafOrder a b ≠ some .eq),
      motive n a b (leafOrder a b) ((differ_leaf hl).2 ⟨rfl, ho⟩))
    (items : ∀ n r s o (hrs : r ≠ s) (hi : ItemsDiffer h.Level (h.Differ n) (h.items r) (h.items s) o),
      ItemsDiffer h.Level (fun x y o => ∃ hd, motive n x y o hd) (h.items r) (h.items s) o →
      motive (n + 1) (.list r) (.list s) o ⟨hrs, hi⟩)
    {n : Nat} {a b : Value} {o : Option Ordering} (hd : h.Differ n a b o) : motive n a b o hd := by
  induction n generalizing a b o with
  | zero =>
    rcases lists_or_leaf a b with ⟨r, s, rfl, rfl⟩ | hl
    · exact absurd hd not_differ_list_zero
    · obtain ⟨rfl, ho⟩ := (differ_leaf hl).1 hd
      exact leaf 0 a b hl ho
  | succ n ih =>
    rcases lists_or_leaf a b with ⟨r, s, rfl, rfl⟩ | hl
    · exact items n r s o hd.1 hd.2 (hd.2.imp fun x y o hxy => ⟨hxy, ih hxy⟩)
    · obtain ⟨rfl, ho⟩ := (differ_leaf hl).1 hd
      exact leaf (n + 1) a b hl ho

/-! ## A first difference is unique, and decides the order -/

section Items

variable {L : Value → Value → Prop} {D E : Value → Value → Option Ordering → Prop} {xs ys : List Value}

theorem ItemsDiffer.not_forall₂ (hi : ItemsDiffer L D xs ys o) (hLD : ∀ x y o, L x y → ¬D x y o) :
    ¬List.Forall₂ L xs ys := by
  induction hi with
  | head hd =>
    rintro (_ | ⟨hl, -⟩)
    exact hLD _ _ _ hl hd
  | tail _ _ ih =>
    rintro (_ | ⟨-, hs⟩)
    exact ih hs
  | shorter => exact fun hs => nomatch hs
  | longer => exact fun hs => nomatch hs

theorem ItemsDiffer.unique (hi : ItemsDiffer L D xs ys o) (hj : ItemsDiffer L E xs ys o')
    (hLD : ∀ x y o, L x y → ¬D x y o) (hLE : ∀ x y o, L x y → ¬E x y o)
    (hDE : ∀ x y o o', D x y o → E x y o' → o = o') : o = o' := by
  induction hi with
  | head hd =>
    rcases hj with he | ⟨hl, -⟩
    · exact hDE _ _ _ _ hd he
    · exact absurd hd (hLD _ _ _ hl)
  | tail hl _ ih =>
    rcases hj with he | ⟨-, hj⟩
    · exact absurd he (hLE _ _ _ hl)
    · exact ih hj
  | shorter => cases hj; rfl
  | longer => cases hj; rfl

theorem ItemsDiffer.itemsOrder_eq {f : Value → Value → Option Ordering} (hi : ItemsDiffer L D xs ys o)
    (hL : ∀ x y, L x y → f x y = some .eq) (hD : ∀ x y o, D x y o → f x y = o ∧ o ≠ some .eq) :
    itemsOrder f xs ys = o ∧ o ≠ some .eq := by
  induction hi with
  | @head x y xs ys o hd =>
    obtain ⟨ho, hne⟩ := hD x y o hd
    refine ⟨?_, hne⟩
    rw [itemsOrder, ho]
    rcases o with _ | (_ | _ | _)
    case some.eq => exact absurd rfl hne
    all_goals rfl
  | @tail x y xs ys o hl _ ih =>
    rw [itemsOrder, hL x y hl]
    exact ih
  | shorter => exact ⟨rfl, by decide⟩
  | longer => exact ⟨rfl, by decide⟩

theorem ItemsDiffer.swap (hi : ItemsDiffer L D xs ys o) (hL : ∀ x y, L x y → L y x)
    (hD : ∀ x y o, D x y o → E y x (o.map Ordering.swap)) :
    ItemsDiffer L E ys xs (o.map Ordering.swap) := by
  induction hi with
  | head hd => exact .head (hD _ _ _ hd)
  | tail hl _ ih => exact .tail (hL _ _ hl) ih
  | shorter => exact .longer
  | longer => exact .shorter

end Items

theorem Differ.mono (hd : h.Differ n a b o) (hnm : n ≤ m) : h.Differ m a b o := by
  induction hd using Differ.place_induction generalizing m with
  | leaf n a b hl ho => exact (differ_leaf hl).2 ⟨rfl, ho⟩
  | items n r s o hrs _ ih =>
    obtain ⟨k, rfl⟩ : ∃ k, m = k + 1 := ⟨m - 1, by omega⟩
    exact ⟨hrs, ih.imp fun x y o ⟨_, hxy⟩ => hxy (by omega)⟩

theorem Level.not_differ (hlevel : h.Level a b) : ¬h.Differ n a b o := by
  intro hd
  induction hd using Differ.place_induction with
  | leaf n a b hl ho => exact ho ((level_leaf_iff hl).1 hlevel)
  | items n r s o hrs _ ih =>
    rcases level_list_iff.1 hlevel with he | hs
    · exact hrs he
    · exact ih.not_forall₂ (fun x y o hxy ⟨_, hne⟩ => hne hxy) hs

/-- Values have one first difference only. -/
theorem Differ.unique (hd : h.Differ n a b o) (he : h.Differ m a b o') : o = o' := by
  induction hd using Differ.place_induction generalizing m o' with
  | leaf n a b hl ho => exact ((differ_leaf hl).1 he).1
  | items n r s o hrs hi ih =>
    cases m with
    | zero => exact absurd he not_differ_list_zero
    | succ m =>
      exact ih.unique he.2 (fun x y o hl ⟨hxy, _⟩ => hl.not_differ hxy) (fun x y o hl => hl.not_differ)
        fun x y o o' ⟨_, hxy⟩ hxy' => hxy hxy'

/-- Where there is a first difference the order finds it, as long as the pairs taken for granted
have none as near. -/
theorem Differ.orderOn_eq {path : List (Container × Container)} (hd : h.Differ n a b o)
    (hpath : ∀ r s, (.list r, .list s) ∈ path → ∀ o, ¬h.Differ n (.list r) (.list s) o) :
    h.orderOn path a b = o ∧ o ≠ some .eq := by
  induction n generalizing a b o path with
  | zero =>
    rcases lists_or_leaf a b with ⟨r, s, rfl, rfl⟩ | hl
    · exact absurd hd not_differ_list_zero
    · rw [orderOn_leaf hl]
      exact (differ_leaf hl).1 hd
  | succ n ih =>
    rcases lists_or_leaf a b with ⟨r, s, rfl, rfl⟩ | hl
    · have hnear : ∀ r s, (.list r, .list s) ∈ path → ∀ o, ¬h.Differ n (.list r) (.list s) o :=
        fun r s hp o hn => hpath r s hp o (hn.mono n.le_succ)
      -- either the pair has a first difference nearer by, or it is itself as far as those on the path
      by_cases hn : ∃ o', h.Differ n (.list r) (.list s) o'
      · obtain ⟨o', hn⟩ := hn
        exact hd.unique hn ▸ ih hn hnear
      · rw [orderOn_list hd.1 fun hp => hpath r s hp o hd]
        refine hd.2.itemsOrder_eq (fun x y hxy => hxy.orderOn_eq _) fun x y o hxy => ih hxy fun r' s' hp => ?_
        rcases List.mem_cons.1 hp with he | hp
        · cases he
          exact fun o' hn' => hn ⟨o', hn'⟩
        · exact hnear r' s' hp
    · rw [orderOn_leaf hl]
      exact (differ_leaf hl).1 hd

theorem Differ.order_eq (hd : h.Differ n a b o) : h.order a b = o :=
  (hd.orderOn_eq fun _ _ hp => absurd hp List.not_mem_nil).1

theorem Differ.ne_eq (hd : h.Differ n a b o) : o ≠ some .eq :=
  (hd.orderOn_eq fun _ _ hp => absurd hp List.not_mem_nil).2

theorem leafOrder_swap_ne_eq (hne : leafOrder a b ≠ some .eq) : leafOrder b a ≠ some .eq := by
  rw [leafOrder_swap]
  rcases ho : leafOrder a b with _ | (_ | _ | _)
  case some.eq => exact absurd ho hne
  all_goals decide

/-- Seen from the other side, the first difference is the opposite one. -/
theorem Differ.swap (hd : h.Differ n a b o) : h.Differ n b a (o.map Ordering.swap) := by
  induction hd using Differ.place_induction with
  | leaf n a b hl ho =>
    rw [← leafOrder_swap]
    exact (differ_leaf fun r s hb ha => hl s r ha hb).2 ⟨rfl, leafOrder_swap_ne_eq ho⟩
  | items n r s o hrs _ ih => exact ⟨hrs.symm, ih.swap (fun x y hxy => hxy.symm) fun x y o ⟨_, hxy⟩ => hxy⟩

/-! ## Values that have a first difference -/

/-- The values differ at a place that is reached through finitely many lists. -/
def HasDifference (h : Heap) (a b : Value) : Prop :=
  ∃ n o, h.Differ n a b o

theorem HasDifference.swap (hd : h.HasDifference a b) : h.HasDifference b a := by
  obtain ⟨n, o, hd⟩ := hd
  exact ⟨n, _, hd.swap⟩

/-- What is found at a first difference is the order of the values. -/
theorem HasDifference.differ (hd : h.HasDifference a b) (ho : h.order a b = o) : ∃ n, h.Differ n a b o := by
  obtain ⟨n, o', hd⟩ := hd
  obtain rfl : o' = o := hd.order_eq.symm.trans ho
  exact ⟨n, hd⟩

theorem HasDifference.order_ne_eq (hd : h.HasDifference a b) : h.order a b ≠ some .eq := by
  obtain ⟨n, o, hd⟩ := hd
  exact hd.order_eq ▸ hd.ne_eq

theorem forall₂_or_itemsDiffer {xs : List Value}
    (hxs : ∀ x ∈ xs, ∀ y, h.Level x y ∨ h.HasDifference x y) (ys : List Value) :
    List.Forall₂ h.Level xs ys ∨ ∃ n o, ItemsDiffer h.Level (h.Differ n) xs ys o := by
  induction xs generalizing ys with
  | nil =>
    cases ys with
    | nil => exact .inl .nil
    | cons y ys => exact .inr ⟨0, _, .shorter⟩
  | cons x xs ih =>
    cases ys with
    | nil => exact .inr ⟨0, _, .longer⟩
    | cons y ys =>
      rw [List.forall_mem_cons] at hxs
      rcases hxs.1 y with hl | ⟨n, o, hd⟩
      · rcases ih hxs.2 ys with hs | ⟨n, o, hi⟩
        · exact .inl (.cons hl hs)
        · exact .inr ⟨n, o, .tail hl hi⟩
      · exact .inr ⟨n, o, .head hd⟩

/-- A value without cycles either is level with another one or has a first difference from it. -/
theorem Acyclic.level_or_hasDifference (ha : h.Acyclic a) (b : Value) :
    h.Level a b ∨ h.HasDifference a b := by
  induction acyclic_iff_acc.1 ha generalizing b with
  | intro a _ ih =>
    rcases lists_or_leaf a b with ⟨r, s, rfl, rfl⟩ | hl
    · rw [level_list_iff]
      by_cases hrs : r = s
      · exact .inl (.inl hrs)
      have hxs (x : Value) (hx : x ∈ h.items r) (y : Value) : h.Level x y ∨ h.HasDifference x y :=
        ih x (inside_list_iff.2 hx) (fun w hw => ha w (hw.tail (inside_list_iff.2 hx))) y
      rcases forall₂_or_itemsDiffer hxs (h.items s) with hs | ⟨n, o, hi⟩
      · exact .inl (.inr hs)
      · exact .inr ⟨n + 1, o, hrs, hi⟩
    · rw [level_leaf_iff hl]
      by_cases ho : leafOrder a b = some .eq
      · exact .inl ho
      · exact .inr ⟨0, _, (differ_leaf hl).2 ⟨rfl, ho⟩⟩

/-- Values that are not level have a first difference if one of them is without cycles. -/
theorem hasDifference_of_acyclic (hab : h.Acyclic a ∨ h.Acyclic b) (hne : ¬h.Level a b) :
    h.HasDifference a b := by
  rcases hab with ha | hb
  · exact (ha.level_or_hasDifference b).resolve_left hne
  · exact ((hb.level_or_hasDifference a).resolve_left fun hba => hne hba.symm).swap

end PipeScript.Heap
