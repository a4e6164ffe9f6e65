/-
How a fresh copy of a list is ordered. The order answers two things without a look at the items: a
list against itself, and a pair of lists that it is inside of. A copy is never met inside of any
list, so nothing of that kind is answered about it: it is ordered by its items alone. The list that
was copied is ordered in the same way unless it is compared with itself, or the answer comes from
meeting its own pair again.
-/
import PipeScript.Builtin.Lists
import PipeScript.Proofs.Heap.Difference

namespace PipeScript

namespace Heap

/-! ## Meeting a pair again -/

/-- Comparing two values inside the path comes to the pair `p` of that path. -/
inductive Returns (h : Heap) (p : Container × Container) :
    List (Container × Container) → Value → Value → Prop
  | met {path : List (Container × Container)} {r s : ListRef} : r ≠ s → p = (.list r, .list s) →
      p ∈ path → Returns h p path (.list r) (.list s)
  /-- All items before `x` and `y` compare as equal. -/
  | inside {path : List (Container × Container)} {r s : ListRef} {xs xs' ys ys' : List Value}
      {x y : Value} : r ≠ s → (.list r, .list s) ∉ path → h.items r = xs ++ x :: xs' →
      h.items s = ys ++ y :: ys' →
      List.Forall₂ (fun x y => h.orderOn ((.list r, .list s) :: path) x y = some .eq) xs ys →
      Returns h p ((.list r, .list s) :: path) x y → Returns h p path (.list r) (.list s)

/-- Sequences are ordered alike if the items that are reached are. -/
theorem itemsOrder_congr {f g : Value → Value → Option Ordering} {xs ys : List Value}
    (hfg : ∀ ws x xs' zs y ys', xs = ws ++ x :: xs' → ys = zs ++ y :: ys' →
      List.Forall₂ (fun x y => f x y = some .eq) ws zs → f x y = g x y) :
    itemsOrder f xs ys = itemsOrder g xs ys := by
  induction xs generalizing ys with
  | nil => exact itemsOrder_congr_of_nil (.inl rfl)
  | cons x xs ih =>
    cases ys with
    | nil => rfl
    | cons y ys =>
      have hhead : f x y = g x y := hfg [] x xs [] y ys rfl rfl .nil
      rw [itemsOrder, itemsOrder, ← hhead]
      rcases ho : f x y with _ | (_ | _ | _)
      case some.eq =>
        refine ih fun ws w xs' zs z ys' hxs hys hall => ?_
        exact hfg (x :: ws) w xs' (y :: zs) z ys' (by rw [hxs]; rfl) (by rw [hys]; rfl) (.cons ho hall)
      all_goals rfl

variable {h : Heap} {p : Container × Container} {path path' : List (Container × Container)} {a b : Value}

/-- A pair that is not met again may as well be off the path. -/
theorem orderOn_eq_of_not_returns (hp : p ∈ path) (hpath : ∀ q ≠ p, q ∈ path ↔ q ∈ path')
    (hr : ¬h.Returns p path a b) : h.orderOn path a b = h.orderOn path' a b := by
  -- on the pairs that are left to be entered
  induction hn : unmet h.pairs path using Nat.strong_induction_on generalizing path path' a b with
  | _ n ih =>
    rcases lists_or_leaf a b with ⟨r, s, rfl, rfl⟩ | hl
    swap
    · rw [orderOn_leaf hl, orderOn_leaf hl]
    by_cases hrs : r = s
    · rw [orderOn_list_of_met (.inl hrs), orderOn_list_of_met (.inl hrs)]
    have hne : (.list r, .list s) ≠ p := by
      rintro rfl
      exact hr (.met hrs rfl hp)
    -- the pair is not `p`, so it is on both paths or on neither
    by_cases hm : (.list r, .list s) ∈ path
    · rw [orderOn_list_of_met (.inr hm), orderOn_list_of_met (.inr ((hpath _ hne).1 hm))]
    have hm' : (.list r, .list s) ∉ path' := fun hm' => hm ((hpath _ hne).2 hm')
    rw [orderOn_list hrs hm, orderOn_list hrs hm']
    refine itemsOrder_congr fun ws x xs' zs y ys' hx hy hall => ?_
    have hin : (.list r, .list s) ∈ h.pairs := by
      have hxr : x ∈ h.contents (.list r) := by rw [contents, hx]; exact List.mem_append_cons_self
      have hys : y ∈ h.contents (.list s) := by rw [contents, hy]; exact List.mem_append_cons_self
      exact mem_pairs.2 ⟨has_of_mem_contents hxr, has_of_mem_contents hys⟩
    refine ih _ (hn ▸ unmet_cons_lt hin hm) (List.mem_cons_of_mem _ hp) (fun q hq => ?_)
      (fun hr' => hr (.inside hrs hm hx hy hall hr')) rfl
    rw [List.mem_cons, List.mem_cons, hpath q hq]

/-! ## Copies -/

/-- The list holds the items of another one, and no list holds it. -/
structure IsCopy (h : Heap) (a' a : ListRef) : Prop where
  ne : a' ≠ a
  items : h.items a' = h.items a
  unheld : ∀ r, ∀ v ∈ h.items r, v ≠ .list a'

section

variable {a' a b : ListRef}

/-- A list that no list holds is not met inside of any. -/
theorem IsCopy.not_returns (hc : h.IsCopy a' a) {path : List (Container × Container)} {x y : Value}
    (hx : x ≠ .list a') : ¬h.Returns (.list a', .list b) path x y := by
  intro hr
  induction hr with
  | met _ he _ =>
    cases he
    exact hx rfl
  | @inside _ r _ xs xs' _ _ x _ _ _ hitems _ _ _ ih =>
    refine ih (hc.unheld r x ?_)
    rw [hitems]
    exact List.mem_append_cons_self

/-- A copy is ordered by its items alone. -/
theorem IsCopy.order_eq_itemsOrder (hc : h.IsCopy a' a) (hb : b ≠ a') :
    h.order (.list a') (.list b) = itemsOrder h.order (h.items a) (h.items b) := by
  rw [order, orderOn_list hb.symm List.not_mem_nil, hc.items]
  refine itemsOrder_congr fun ws x xs' zs y ys' hx _ _ => ?_
  refine orderOn_eq_of_not_returns (p := (.list a', .list b)) List.mem_cons_self (fun q hq => ?_)
    (hc.not_returns ?_)
  · simp [hq]
  · refine hc.unheld a x ?_
    rw [hx]
    exact List.mem_append_cons_self

theorem IsCopy.level (hc : h.IsCopy a' a) (hab : a ≠ b) (hl : h.Level (.list a) (.list b)) :
    h.Level (.list a') (.list b) := by
  rw [level_list_iff, hc.items]
  exact .inr ((level_list_iff.1 hl).resolve_left hab)

theorem IsCopy.differ (hc : h.IsCopy a' a) (hb : b ≠ a') {n : Nat} {o : Option Ordering}
    (hd : h.Differ n (.list a) (.list b) o) : h.Differ n (.list a') (.list b) o := by
  cases n with
  | zero => exact absurd hd not_differ_list_zero
  | succ n =>
    refine ⟨hb.symm, ?_⟩
    rw [hc.items]
    exact hd.2

/-- The order of two lists does not rest on meeting them again: they are level, or have a first
difference, or their comparison does not come back to them. -/
def Settled (h : Heap) (a b : ListRef) : Prop :=
  h.Level (.list a) (.list b) ∨ h.HasDifference (.list a) (.list b) ∨
    ¬h.Returns (.list a, .list b) [] (.list a) (.list b)

/-- A list without cycles is settled with any other. -/
theorem settled_of_acyclic (ha : h.Acyclic (.list a)) (b : ListRef) : h.Settled a b := by
  rcases ha.level_or_hasDifference (.list b) with hl | hd
  · exact .inl hl
  · exact .inr (.inl hd)

/-- Against another list, a copy is ordered as the list that was copied. -/
theorem IsCopy.order_eq (hc : h.IsCopy a' a) (hb : b ≠ a') (hab : a ≠ b) (hs : h.Settled a b) :
    h.order (.list a') (.list b) = h.order (.list a) (.list b) := by
  rcases hs with hl | ⟨n, o, hd⟩ | hr
  · rw [order_eq_iff_level.2 hl, order_eq_iff_level.2 (hc.level hab hl)]
  · rw [hd.order_eq, (hc.differ hb hd).order_eq]
  · rw [hc.order_eq_itemsOrder hb, order, orderOn_list hab List.not_mem_nil]
    refine (itemsOrder_congr fun ws x xs' zs y ys' hx hy hall => ?_).symm
    refine orderOn_eq_of_not_returns (p := (.list a, .list b)) List.mem_cons_self (fun q hq => ?_)
      fun hr' => hr (.inside hab List.not_mem_nil hx hy hall hr')
    simp [hq]

end

/-! ## A list and its own copy -/

theorem order_self_eq_or_none (x : Value) : h.order x x = some .eq ∨ h.order x x = none := by
  rcases lists_or_leaf x x with ⟨r, s, rfl, hs⟩ | hl
  · exact .inl (orderOn_list_of_met (.inl rfl))
  · rw [order, orderOn_leaf hl]
    have hswap := leafOrder_swap x x
    rcases ho : leafOrder x x with _ | (_ | _ | _) <;> simp_all

theorem itemsOrder_self (xs : List Value) : itemsOrder h.order xs xs =
    if ∀ x ∈ xs, h.order x x = some .eq then some .eq else none := by
  induction xs with
  | nil => rfl
  | cons x xs ih =>
    rcases order_self_eq_or_none (h := h) x with hx | hx <;> simp [itemsOrder, hx, ih]

/-! ## What slicing gives -/

/-- The heap has whatever lies in its lists and dictionaries. -/
def Closed (h : Heap) : Prop :=
  ∀ c d : Container, d.value ∈ h.contents c → h.Has d

theorem items_newList (h : Heap) (xs : List Value) (r : ListRef) :
    (h.newList xs).2.items r = if r = (h.newList xs).1 then xs else h.items r := by
  rcases r with ⟨i⟩
  simp only [items, newList, ListRef.mk.injEq, Array.getD_eq_getD_getElem?, Array.getElem?_push]
  split <;> rfl

/-- Slicing a list from its start on makes a copy of it. -/
theorem slice_isCopy {h : Heap} (hc : h.Closed) {a : ListRef} (ha : h.Has (.list a)) :
    ∃ a' h', Lists.slice h [.list a, .int 0] = .ok (.list a', h') ∧ h'.IsCopy a' a := by
  have hslice : Slice.apply (some 0) none (h.items a) = h.items a := by
    simp [Slice.apply, Slice.range, Slice.place]
  have hfresh : ¬h.Has (.list (h.newList (h.items a)).1) := Nat.lt_irrefl _
  have hne : (h.newList (h.items a)).1 ≠ a := fun he => hfresh (he ▸ ha)
  refine ⟨(h.newList (h.items a)).1, (h.newList (h.items a)).2, ?_, hne, ?_, fun r v hv => ?_⟩
  · show Except.ok (Lists.made h (Slice.apply (some 0) none (h.items a))) = _
    rw [hslice]
    rfl
  · rw [items_newList, items_newList, if_pos rfl, if_neg hne.symm]
  · rintro rfl
    rw [items_newList] at hv
    split at hv
    · exact hfresh (hc (.list a) (.list _) hv)
    · exact hfresh (hc (.list r) (.list _) hv)

end Heap

/-- What comparing two values answers: whether their order is accepted. -/
theorem Comparison.ordered_two (accept : Ordering → Bool) (h : Heap) (a b : Value) :
    ordered accept h [a, b] = match h.order a b with
      | some o => .ok (.bool (accept o))
      | none => .error (.value (.cannotCompare a.kind b.kind)) := by
  show (Comparison.order h a b >>= fun o => Except.ok (Value.bool (accept o))) = _
  rw [Comparison.order]
  cases h.order a b <;> rfl

namespace Heap

/-! ## The order of copies -/

/-- A copy of a list is ordered against another list as the list itself is, where the two are settled.
Against the list that was copied it is in order if each item is in order with itself, and cannot be
ordered otherwise; the list itself always is in order. -/
theorem order_copy {h : Heap} {a' a b : ListRef} (hc : h.IsCopy a' a) (hb : b ≠ a') :
    (a ≠ b → h.Settled a b →
      h.order (.list a') (.list b) = h.order (.list a) (.list b) ∧
      ∀ accept, Comparison.ordered accept h [.list a', .list b] =
        Comparison.ordered accept h [.list a, .list b]) ∧
    (a = b →
      h.order (.list a) (.list b) = some .eq ∧
      h.order (.list a') (.list b) =
        if ∀ x ∈ h.items a, h.order x x = some .eq then some .eq else none) := by
  constructor
  · intro hab hs
    have ho := hc.order_eq hb hab hs
    refine ⟨ho, fun accept => ?_⟩
    rw [Comparison.ordered_two, Comparison.ordered_two, ho]
    rfl
  · rintro rfl
    refine ⟨orderOn_list_of_met (.inl rfl), ?_⟩
    rw [hc.order_eq_itemsOrder hb, itemsOrder_self]

/-- Two lists that lie inside themselves, and a copy of the first one. -/
def loopsAndCopy : Heap where
  lists := #[[.int 1, .list ⟨0⟩], [.int 2, .list ⟨1⟩], [.int 1, .list ⟨0⟩]]

theorem order_loopsAndCopy :
    loopsAndCopy.IsCopy ⟨2⟩ ⟨0⟩ ∧ loopsAndCopy.Settled ⟨0⟩ ⟨1⟩ ∧
      loopsAndCopy.order (.list ⟨2⟩) (.list ⟨1⟩) = loopsAndCopy.order (.list ⟨0⟩) (.list ⟨1⟩) := by
  have hc : loopsAndCopy.IsCopy ⟨2⟩ ⟨0⟩ := ⟨by decide, rfl, forall_mem_items (by decide)⟩
  have hd : loopsAndCopy.Differ 1 (.list ⟨0⟩) (.list ⟨1⟩) (some .lt) :=
    ⟨by decide, .head ⟨rfl, by decide⟩⟩
  have hs : loopsAndCopy.Settled ⟨0⟩ ⟨1⟩ := .inr (.inl ⟨1, _, hd⟩)
  exact ⟨hc, hs, ((order_copy hc (by decide)).1 (by decide) hs).1⟩

/-- A list of null, and a copy of it. -/
def nullAndCopy : Heap where
  lists := #[[.null], [.null]]

/-- Two lists of which each lies inside itself through another one, and a copy of the first one. -/
def crossedLoops : Heap where
  lists := #[[.list ⟨2⟩, .int 1], [.list ⟨3⟩, .int 2], [.list ⟨0⟩, .int 5], [.list ⟨1⟩, .int 4],
    [.list ⟨2⟩, .int 1]]

/-- A copy need not be ordered as the list that was copied: not against that list itself, nor against
one with which that list is not settled. -/
theorem order_not_copy :
    (nullAndCopy.IsCopy ⟨1⟩ ⟨0⟩ ∧
      nullAndCopy.order (.list ⟨0⟩) (.list ⟨0⟩) = some .eq ∧
      nullAndCopy.order (.list ⟨1⟩) (.list ⟨0⟩) = none) ∧
    (crossedLoops.IsCopy ⟨4⟩ ⟨0⟩ ∧
      crossedLoops.order (.list ⟨0⟩) (.list ⟨1⟩) = some .gt ∧
      crossedLoops.order (.list ⟨4⟩) (.list ⟨1⟩) = some .lt) := by
  refine ⟨⟨⟨by decide, rfl, forall_mem_items (by decide)⟩, ?_, ?_⟩,
    ⟨⟨by decide, rfl, forall_mem_items (by decide)⟩, ?_, ?_⟩⟩ <;> decide +kernel

end Heap

end PipeScript
