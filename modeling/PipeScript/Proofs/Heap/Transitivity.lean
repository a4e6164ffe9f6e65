/-
When the order of lists is transitive. Where the order of leaves composes, as it does among values
without floats, that of lists composes wherever two of the three pairs have a first difference: the
third pair then has one too, or cannot answer against the other two. Two of them have one wherever a
list without cycles is among the three. With one first difference only the order need not compose: a
pair without one is answered by the rule for pairs met again, and what that rule lets through depends
on the pairs that the search is inside of.
-/
import PipeScript.Proofs.Heap.Difference

namespace PipeScript.Heap

/-! ## Composition of leaves -/

variable {h : Heap} {S : Value → Prop} {n : Nat} {a b c : Value} {o : Ordering} {o' : Option Ordering}

theorem eq_of_leafOrder (ha : ∀ x, a ≠ .float x) (hb : ∀ x, b ≠ .float x) (hab : leafOrder a b = some .eq) :
    a = b := by
  cases a <;> cases b <;> simp only [leafOrder, Value.toFloat?, Option.some.injEq, reduceCtorEq] at hab
  case int.int => rw [Int64.toInt_inj.1 (Std.LawfulEqOrd.eq_of_compare hab)]
  case str.str => rw [Std.LawfulEqOrd.eq_of_compare hab]
  case bool.bool => rw [Std.LawfulEqOrd.eq_of_compare hab]
  case float.float x _ => exact absurd rfl (ha x)
  case float.int x _ => exact absurd rfl (ha x)
  case int.float x => exact absurd rfl (hb x)

theorem compare_trans {α : Type} [Ord α] [Std.TransOrd α] {x y z : α} (hxy : compare x y = o)
    (hyz : compare y z = o) : compare x z = o := by
  cases o with
  | lt => exact Std.TransCmp.lt_trans hxy hyz
  | eq => exact Std.TransCmp.eq_trans hxy hyz
  | gt => exact Std.TransCmp.gt_trans hxy hyz

theorem leafOrder_comp_of_compare {α : Type} [Ord α] [Std.TransOrd α] {x y z : α}
    (hxy : some (compare x y) = some o) (ho : o' = some o ∨ o' = none) (hyz : some (compare y z) = o') :
    some (compare x z) = some o := by
  rcases ho with rfl | rfl
  · rw [compare_trans (Option.some.inj hxy) (Option.some.inj hyz)]
  · cases hyz

/-- Leaves without floats compose: if `b` and `c` cannot be ordered, or stand in the order of `a` and `b`, then
so it is with `a` and `c`. -/
theorem leafOrder_comp (ha : ∀ x, a ≠ .float x) (hb : ∀ x, b ≠ .float x) (hc : ∀ x, c ≠ .float x)
    (hab : leafOrder a b = some o) (ho : o' = some o ∨ o' = none) (hbc : leafOrder b c = o') :
    leafOrder a c = some o ∨ leafOrder a c = o' := by
  cases a <;> cases b <;> simp only [leafOrder, Value.toFloat?, reduceCtorEq] at hab
  case float.float x _ => exact absurd rfl (ha x)
  case float.int x _ => exact absurd rfl (ha x)
  case int.float x => exact absurd rfl (hb x)
  case int.int =>
    cases c
    case int => exact .inl (leafOrder_comp_of_compare hab ho hbc)
    case float x => exact absurd rfl (hc x)
    all_goals exact .inr hbc
  case str.str =>
    cases c
    case str => exact .inl (leafOrder_comp_of_compare hab ho hbc)
    all_goals exact .inr hbc
  case bool.bool =>
    cases c
    case bool => exact .inl (leafOrder_comp_of_compare hab ho hbc)
    all_goals exact .inr hbc

/-- The items of the lists of a set belong to it. Its leaves compose, and leaves of it that are equal stand
in the same order with all the others. -/
structure Composes (h : Heap) (S : Value → Prop) : Prop where
  items : ∀ {r}, S (.list r) → ∀ v ∈ h.items r, S v
  leaf_congr : ∀ {a b c}, S a → S b → S c → leafOrder a b = some .eq → leafOrder a c = leafOrder b c
  leaf_comp : ∀ {a b c o o'}, S a → S b → S c → leafOrder a b = some o → (o' = some o ∨ o' = none) →
    leafOrder b c = o' → leafOrder a c = some o ∨ leafOrder a c = o'

theorem Composes.leaf_congr_right (hs : h.Composes S) (ha : S a) (hb : S b) (hc : S c)
    (hbc : leafOrder b c = some .eq) : leafOrder a c = leafOrder a b := by
  rw [leafOrder_swap c a, ← hs.leaf_congr hb hc ha hbc, ← leafOrder_swap]

/-- The values of a set are not floats, and the items of its lists belong to it. -/
structure FloatFree (h : Heap) (S : Value → Prop) : Prop where
  items : ∀ {r}, S (.list r) → ∀ v ∈ h.items r, S v
  leaf : ∀ x, ¬S (.float x)

theorem FloatFree.composes (hf : h.FloatFree S) : h.Composes S := by
  have hne {a} (ha : S a) (x) : a ≠ .float x := by
    rintro rfl
    exact hf.leaf x ha
  refine ⟨hf.items, fun ha hb _ hab => ?_, fun ha hb hc => leafOrder_comp (hne ha) (hne hb) (hne hc)⟩
  rw [eq_of_leafOrder (hne ha) (hne hb) hab]

/-! ## Composition of levels and first differences -/

theorem ne_list_left_of_leafOrder (hab : leafOrder a b = some o) (r : ListRef) : a ≠ .list r := by
  rintro rfl
  rw [leafOrder_list_left] at hab
  cases hab

theorem ne_list_right_of_leafOrder (hab : leafOrder a b = some o) (r : ListRef) : b ≠ .list r := by
  rintro rfl
  rw [leafOrder_list_right] at hab
  cases hab

/-- What is level with a list is a list. -/
theorem Level.exists_list {r : ListRef} (hl : h.Level (.list r) b) : ∃ s, b = .list s := by
  rcases lists_or_leaf (.list r) b with ⟨_, s, -, rfl⟩ | hleaf
  · exact ⟨s, rfl⟩
  · exact absurd rfl (ne_list_left_of_leafOrder ((level_leaf_iff hleaf).1 hl) r)

theorem forall₂_comp {R T : Value → Value → Prop} {xs ys zs : List Value}
    (hx : ∀ v ∈ xs, S v) (hy : ∀ v ∈ ys, S v) (hz : ∀ v ∈ zs, S v)
    (hxy : List.Forall₂ R xs ys) (hyz : List.Forall₂ R ys zs)
    (hR : ∀ x y z, S x → S y → S z → R x y → R y z → T x z) : List.Forall₂ T xs zs := by
  induction hxy generalizing zs with
  | nil => cases hyz; exact .nil
  | cons h₁ _ ih =>
    rcases hyz with _ | ⟨h₂, hyz⟩
    simp only [List.forall_mem_cons] at hx hy hz
    exact .cons (hR _ _ _ hx.1 hy.1 hz.1 h₁ h₂) (ih hx.2 hy.2 hz.2 hyz)

/-- Being level is transitive. -/
theorem Level.trans (hs : h.Composes S) (ha : S a) (hb : S b) (hc : S c) (hab : h.Level a b)
    (hbc : h.Level b c) : h.Level a c := by
  let R (x z : Value) : Prop := h.Level x z ∨ ∃ y, S x ∧ S y ∧ S z ∧ h.Level x y ∧ h.Level y z
  refine OrderHom.le_gfp h.levelling (a := R) ?_ a c (.inr ⟨b, ha, hb, hc, hab, hbc⟩)
  have hlevel {x z} (hxz : h.Level x z) : h.Levels R x z :=
    (level_iff.1 hxz).mono_of_mem fun _ _ _ _ _ _ huw => .inl huw
  rintro x z (hxz | ⟨y, hx, hy, hz, hxy, hyz⟩)
  · exact hlevel hxz
  rcases lists_or_leaf x y with ⟨r, s, rfl, rfl⟩ | hl
  · obtain ⟨t, rfl⟩ := hyz.exists_list
    rcases level_list_iff.1 hxy with rfl | hrs
    · exact hlevel hyz
    rcases level_list_iff.1 hyz with rfl | hst
    · exact hlevel hxy
    exact .items <| forall₂_comp (hs.items hx) (hs.items hy) (hs.items hz) hrs hst
      fun u v w hu hv hw huv hvw => .inr ⟨v, hu, hv, hw, huv, hvw⟩
  · have hxy := (level_leaf_iff hl).1 hxy
    have hyz := (level_leaf_iff fun s _ hs _ => ne_list_right_of_leafOrder hxy s hs).1 hyz
    exact .leaf ((hs.leaf_congr hx hy hz hxy).trans hyz)

section Items

variable {L : Value → Value → Prop} {D E : Value → Value → Option Ordering → Prop} {xs ys zs : List Value}

theorem ItemsDiffer.level_right (hx : ∀ v ∈ xs, S v) (hy : ∀ v ∈ ys, S v) (hz : ∀ v ∈ zs, S v)
    (hi : ItemsDiffer L D xs ys o') (hs : List.Forall₂ L ys zs)
    (hL : ∀ x y z, S x → S y → S z → L x y → L y z → L x z)
    (hD : ∀ x y z o, S x → S y → S z → D x y o → L y z → E x z o) : ItemsDiffer L E xs zs o' := by
  induction hi generalizing zs with
  | head hxy =>
    rcases hs with _ | ⟨hyz, -⟩
    simp only [List.forall_mem_cons] at hx hy hz
    exact .head (hD _ _ _ _ hx.1 hy.1 hz.1 hxy hyz)
  | tail hxy _ ih =>
    rcases hs with _ | ⟨hyz, hs⟩
    simp only [List.forall_mem_cons] at hx hy hz
    exact .tail (hL _ _ _ hx.1 hy.1 hz.1 hxy hyz) (ih hx.2 hy.2 hz.2 hs)
  | shorter => cases hs; exact .shorter
  | longer => cases hs; exact .longer

/-- First differences of sequences compose if those of the items do. -/
theorem ItemsDiffer.comp (hx : ∀ v ∈ xs, S v) (hy : ∀ v ∈ ys, S v) (hz : ∀ v ∈ zs, S v)
    (hi : ItemsDiffer L D xs ys (some o)) (ho : o' = some o ∨ o' = none) (hj : ItemsDiffer L E ys zs o')
    (hL : ∀ x y z, S x → S y → S z → L x y → L y z → L x z)
    (hDL : ∀ x y z o, S x → S y → S z → D x y o → L y z → E x z o)
    (hLE : ∀ x y z o, S x → S y → S z → L x y → E y z o → E x z o)
    (hDE : ∀ x y z, S x → S y → S z → D x y (some o) → E y z o' → E x z (some o) ∨ E x z o') :
    ItemsDiffer L E xs zs (some o) ∨ ItemsDiffer L E xs zs o' := by
  generalize hoo : some o = q at hi
  induction hi generalizing zs with
  | head hxy =>
    subst hoo
    cases hj with
    | head hyz =>
      simp only [List.forall_mem_cons] at hx hy hz
      exact (hDE _ _ _ hx.1 hy.1 hz.1 hxy hyz).imp .head .head
    | tail hyz _ =>
      simp only [List.forall_mem_cons] at hx hy hz
      exact .inl (.head (hDL _ _ _ _ hx.1 hy.1 hz.1 hxy hyz))
    | longer => exact .inr .longer
  | tail hxy _ ih =>
    cases hj with
    | head hyz =>
      simp only [List.forall_mem_cons] at hx hy hz
      exact .inr (.head (hLE _ _ _ _ hx.1 hy.1 hz.1 hxy hyz))
    | tail hyz hj =>
      simp only [List.forall_mem_cons] at hx hy hz
      have hxz := hL _ _ _ hx.1 hy.1 hz.1 hxy hyz
      exact (ih hx.2 hy.2 hz.2 hj hoo).imp (.tail hxz) (.tail hxz)
    | longer => exact .inr .longer
  | shorter =>
    obtain rfl : o = .lt := Option.some.inj hoo
    cases hj with
    | longer => simp at ho
    | _ => exact .inl .shorter
  | longer =>
    obtain rfl : o = .gt := Option.some.inj hoo
    cases hj with
    | shorter => simp at ho

end Items

/-- Being level on the right does not change the first difference. -/
theorem Differ.level_right (hs : h.Composes S) (ha : S a) (hb : S b) (hc : S c)
    (hab : h.Differ n a b o') (hbc : h.Level b c) : h.Differ n a c o' := by
  induction hab using Differ.place_induction generalizing c with
  | leaf n a b hl ho =>
    rcases lists_or_leaf b c with ⟨s, t, rfl, rfl⟩ | hl'
    · rw [leafOrder_list_right] at ho ⊢
      exact (differ_leaf fun r _ ha _ => hl r s ha rfl).2 ⟨leafOrder_list_right a t, ho⟩
    · have hbc := (level_leaf_iff hl').1 hbc
      refine (differ_leaf fun _ t _ ht => ne_list_right_of_leafOrder hbc t ht).2 ⟨?_, ho⟩
      exact hs.leaf_congr_right ha hb hc hbc
  | items n r s o hrs hi ih =>
    obtain ⟨t, rfl⟩ := hbc.exists_list
    rcases level_list_iff.1 hbc with rfl | hst
    · exact ⟨hrs, hi⟩
    refine ⟨?_, ih.level_right (hs.items ha) (hs.items hb) (hs.items hc) hst ?_ ?_⟩
    · rintro rfl
      exact hbc.symm.not_differ (n := n + 1) ⟨hrs, hi⟩
    · exact fun x y z hx hy hz hxy hyz => hxy.trans hs hx hy hz hyz
    · exact fun x y z o hx hy hz ⟨_, hxy⟩ hyz => hxy hx hy hz hyz

/-- Being level on the left does not change the first difference. -/
theorem Differ.level_left (hs : h.Composes S) (ha : S a) (hb : S b) (hc : S c)
    (hab : h.Level a b) (hbc : h.Differ n b c o') : h.Differ n a c o' := by
  have hac := (hbc.swap.level_right hs hc hb ha hab.symm).swap
  rwa [Option.map_map, show Ordering.swap ∘ Ordering.swap = id from funext fun _ => Ordering.swap_swap,
    Option.map_id_apply] at hac

/-- First differences compose: if `b` and `c` cannot be ordered, or stand in the order of `a` and `b`,
then so it is with `a` and `c`. -/
theorem Differ.comp (hs : h.Composes S) (ha : S a) (hb : S b) (hc : S c) (hab : h.Differ n a b (some o))
    (ho : o' = some o ∨ o' = none) (hbc : h.Differ n b c o') :
    h.Differ n a c (some o) ∨ h.Differ n a c o' := by
  generalize hq : some o = q at hab
  induction hab using Differ.place_induction generalizing c with
  | leaf n a b hl hne =>
    -- what has an order outside of lists is no list
    have ha' := ne_list_left_of_leafOrder hq.symm
    have hb' := ne_list_right_of_leafOrder hq.symm
    obtain ⟨hbc, hne'⟩ := (differ_leaf fun s _ hs _ => hb' s hs).1 hbc
    refine (hs.leaf_comp ha hb hc hq.symm ho hbc).imp (fun hac => ?_) fun hac => ?_
    · exact (differ_leaf fun r _ hr _ => ha' r hr).2 ⟨hac.trans hq, hne⟩
    · exact (differ_leaf fun r _ hr _ => ha' r hr).2 ⟨hac, hne'⟩
  | items n r s q hrs hi ih =>
    subst hq
    have hab : h.Differ (n + 1) (.list r) (.list s) (some o) := ⟨hrs, hi⟩
    rcases lists_or_leaf (.list s) c with ⟨_, t, ⟨⟩, rfl⟩ | hl
    · have hrt : r ≠ t := by
        rintro rfl
        have hswap := hab.swap.unique hbc
        have hne := hab.ne_eq
        rcases ho with rfl | rfl <;> cases o <;> simp_all
      refine (ih.comp (hs.items ha) (hs.items hb) (hs.items hc) ho hbc.2 ?_ ?_ ?_ ?_).imp
        (fun hac => ⟨hrt, hac⟩) fun hac => ⟨hrt, hac⟩
      · exact fun x y z hx hy hz hxy hyz => hxy.trans hs hx hy hz hyz
      · exact fun x y z o hx hy hz ⟨hxy, _⟩ hyz => hxy.level_right hs hx hy hz hyz
      · exact fun x y z o hx hy hz hxy hyz => hyz.level_left hs hx hy hz hxy
      · exact fun x y z hx hy hz ⟨_, hxy⟩ hyz => hxy hx hy hz hyz rfl
    · -- a list and what is no list cannot be ordered
      have hbc := (differ_leaf hl).1 hbc
      rw [leafOrder_list_left] at hbc
      refine .inr ((differ_leaf fun _ t _ hc => hl s t rfl hc).2 ?_)
      rwa [leafOrder_list_left]

/-! ## Transitivity -/

theorem HasDifference.order_comp (hs : h.Composes S) (ha : S a) (hb : S b) (hc : S c)
    (dab : h.HasDifference a b) (dbc : h.HasDifference b c) (hab : h.order a b = some o)
    (ho : o' = some o ∨ o' = none) (hbc : h.order b c = o') :
    h.HasDifference a c ∧ (h.order a c = some o ∨ h.order a c = o') := by
  obtain ⟨n, dab⟩ := dab.differ hab
  obtain ⟨m, dbc⟩ := dbc.differ hbc
  rcases (dab.mono (le_max_left n m)).comp hs ha hb hc ho (dbc.mono (le_max_right n m)) with dac | dac
  · exact ⟨⟨_, _, dac⟩, .inl dac.order_eq⟩
  · exact ⟨⟨_, _, dac⟩, .inr dac.order_eq⟩

/-- The order is transitive where two of the three pairs have a first difference. -/
theorem order_trans_of_hasDifference (hs : h.Composes S) (ha : S a) (hb : S b) (hc : S c)
    (hd : h.HasDifference a b ∧ h.HasDifference b c ∨ h.HasDifference a b ∧ h.HasDifference a c ∨
      h.HasDifference b c ∧ h.HasDifference a c)
    (hab : h.order a b = some .lt) (hbc : h.order b c = some .lt) : h.order a c = some .lt := by
  rcases hd with ⟨dab, dbc⟩ | ⟨dab, dac⟩ | ⟨dbc, dac⟩
  · exact or_self_iff.1 (dab.order_comp hs ha hb hc dbc hab (.inl rfl) hbc).2
  · by_contra hac
    -- `b` is above `a`, and `a` is not below `c`, so `b` cannot be below `c`
    have hba : h.order b a = some .gt := by rw [h.order_swap a b, hab]; rfl
    have ho : h.order a c = some .gt ∨ h.order a c = none := by
      have hne := dac.order_ne_eq
      rcases hac' : h.order a c with _ | (_ | _ | _) <;> simp_all
    have hbc' := (dab.swap.order_comp hs hb ha hc dac hba ho rfl).2
    rcases ho with ho | ho <;> simp_all
  · by_contra hac
    -- `c` is above `b`, and `a` is not below `c`, so `a` cannot be below `b`
    have hca : h.order c a = some .lt ∨ h.order c a = none := by
      have hne := dac.order_ne_eq
      rw [h.order_swap a c]
      rcases hac' : h.order a c with _ | (_ | _ | _) <;> simp_all
    have hba := (dbc.order_comp hs hb hc ha dac.swap hbc hca rfl).2
    have hab' := h.order_swap b a
    rcases hca with ho | ho <;> simp_all

/-- The order is transitive where one of the three values is without cycles. -/
theorem order_trans_of_acyclic (hs : h.Composes S) (ha : S a) (hb : S b) (hc : S c)
    (hcyc : h.Acyclic a ∨ h.Acyclic b ∨ h.Acyclic c)
    (hab : h.order a b = some .lt) (hbc : h.order b c = some .lt) : h.order a c = some .lt := by
  have nab : ¬h.Level a b := fun hl => by simp [order_eq_iff_level.2 hl] at hab
  have nbc : ¬h.Level b c := fun hl => by simp [order_eq_iff_level.2 hl] at hbc
  by_cases hac : h.Level a c
  · -- `b` would stand on the same side of both
    rcases or_assoc.2 hcyc with cab | cc
    · obtain ⟨n, dab⟩ := (hasDifference_of_acyclic cab nab).differ hab
      simp [(dab.level_left hs hc ha hb hac.symm).swap.order_eq] at hbc
    · obtain ⟨n, dbc⟩ := (hasDifference_of_acyclic (.inr cc) nbc).differ hbc
      simp [(dbc.level_right hs hb hc ha hac.symm).swap.order_eq] at hab
  · refine order_trans_of_hasDifference hs ha hb hc ?_ hab hbc
    rcases hcyc with ca | cb | cc
    · exact .inr (.inl ⟨hasDifference_of_acyclic (.inl ca) nab, hasDifference_of_acyclic (.inl ca) hac⟩)
    · exact .inl ⟨hasDifference_of_acyclic (.inr cb) nab, hasDifference_of_acyclic (.inl cb) nbc⟩
    · exact .inr (.inr ⟨hasDifference_of_acyclic (.inr cc) nbc, hasDifference_of_acyclic (.inr cc) hac⟩)

/-- What is at most equal composes, where values that are not level have a first difference. -/
theorem order_ne_gt_trans (hs : h.Composes S) (ha : S a) (hb : S b) (hc : S c) {p q : Ordering}
    (dab : h.Level a b ∨ h.HasDifference a b) (dbc : h.Level b c ∨ h.HasDifference b c)
    (hab : h.order a b = some p) (hp : p ≠ .gt) (hbc : h.order b c = some q) (hq : q ≠ .gt) :
    ∃ r, h.order a c = some r ∧ r ≠ .gt := by
  rcases dab with lab | dab <;> rcases dbc with lbc | dbc
  · exact ⟨.eq, order_eq_iff_level.2 (lab.trans hs ha hb hc lbc), nofun⟩
  · obtain ⟨n, dbc⟩ := dbc.differ hbc
    exact ⟨q, (dbc.level_left hs ha hb hc lab).order_eq, hq⟩
  · obtain ⟨n, dab⟩ := dab.differ hab
    exact ⟨p, (dab.level_right hs ha hb hc lbc).order_eq, hp⟩
  · -- both are less
    have hne := hab ▸ dab.order_ne_eq
    have hne' := hbc ▸ dbc.order_ne_eq
    obtain rfl : p = .lt := by cases p <;> simp_all
    obtain rfl : q = .lt := by cases q <;> simp_all
    exact ⟨.lt, or_self_iff.1 (dab.order_comp hs ha hb hc dbc hab (.inl rfl) hbc).2, nofun⟩

/-- Integers and lists are all that the lists of the heap hold. -/
def HoldsIntegersAndLists (h : Heap) : Prop :=
  ∀ r, ∀ v ∈ h.items r, v.kind = .int ∨ v.kind = .list

theorem HoldsIntegersAndLists.floatFree (hi : h.HoldsIntegersAndLists) :
    h.FloatFree fun v => v.kind = .int ∨ v.kind = .list :=
  ⟨fun _ => hi _, fun _ hx => hx.elim nofun nofun⟩

/-- Among lists of integers and lists the order is transitive where one of the three lists is without
cycles, and with cycles in all three where two of the three pairs have a first difference. -/
theorem order_lists_trans (hi : h.HoldsIntegersAndLists) {r s t : ListRef}
    (hd : (h.Acyclic (.list r) ∨ h.Acyclic (.list s) ∨ h.Acyclic (.list t)) ∨
      h.HasDifference (.list r) (.list s) ∧ h.HasDifference (.list s) (.list t) ∨
      h.HasDifference (.list r) (.list s) ∧ h.HasDifference (.list r) (.list t) ∨
      h.HasDifference (.list s) (.list t) ∧ h.HasDifference (.list r) (.list t))
    (hrs : h.order (.list r) (.list s) = some .lt) (hst : h.order (.list s) (.list t) = some .lt) :
    h.order (.list r) (.list t) = some .lt := by
  rcases hd with hcyc | hd
  · exact order_trans_of_acyclic hi.floatFree.composes (.inr rfl) (.inr rfl) (.inr rfl) hcyc hrs hst
  · exact order_trans_of_hasDifference hi.floatFree.composes (.inr rfl) (.inr rfl) (.inr rfl) hd hrs hst

/-- Three lists that lie inside themselves, and differ at their first items: `1`, `2` and `3`. -/
def numberedLoops : Heap where
  lists := #[[.int 1, .list ⟨0⟩], [.int 2, .list ⟨1⟩], [.int 3, .list ⟨2⟩]]

theorem order_numberedLoops :
    numberedLoops.HoldsIntegersAndLists ∧
      numberedLoops.HasDifference (.list ⟨0⟩) (.list ⟨1⟩) ∧
      numberedLoops.HasDifference (.list ⟨1⟩) (.list ⟨2⟩) ∧
      numberedLoops.order (.list ⟨0⟩) (.list ⟨2⟩) = some .lt := by
  have hi : numberedLoops.HoldsIntegersAndLists := forall_mem_items (by decide)
  have h01 : numberedLoops.Differ 1 (.list ⟨0⟩) (.list ⟨1⟩) (some .lt) :=
    ⟨by decide, .head ⟨rfl, by decide⟩⟩
  have h12 : numberedLoops.Differ 1 (.list ⟨1⟩) (.list ⟨2⟩) (some .lt) :=
    ⟨by decide, .head ⟨rfl, by decide⟩⟩
  exact ⟨hi, ⟨1, _, h01⟩, ⟨1, _, h12⟩,
    order_lists_trans hi (.inr (.inl ⟨⟨1, _, h01⟩, ⟨1, _, h12⟩⟩)) h01.order_eq h12.order_eq⟩

/-- Three lists of lists, each of which lies inside the others. -/
def roundAbout : Heap where
  lists := #[[.list ⟨1⟩], [.list ⟨2⟩], [.list ⟨1⟩, .list ⟨0⟩]]

/-- One first difference is not enough: each of these lists is less than the next, all the way round,
though the first and the second one do differ. -/
theorem roundAbout_not_trans :
    roundAbout.HoldsIntegersAndLists ∧
      roundAbout.HasDifference (.list ⟨0⟩) (.list ⟨2⟩) ∧
      roundAbout.order (.list ⟨0⟩) (.list ⟨2⟩) = some .lt ∧
      roundAbout.order (.list ⟨2⟩) (.list ⟨1⟩) = some .lt ∧
      roundAbout.order (.list ⟨1⟩) (.list ⟨0⟩) = some .lt ∧
      roundAbout.order (.list ⟨0⟩) (.list ⟨1⟩) = some .gt := by
  have hi : roundAbout.HoldsIntegersAndLists := forall_mem_items (by decide)
  have h02 : roundAbout.Differ 1 (.list ⟨0⟩) (.list ⟨2⟩) (some .lt) :=
    ⟨by decide, .tail (level_list_iff.2 (.inl rfl)) .shorter⟩
  refine ⟨hi, ⟨1, _, h02⟩, h02.order_eq, ?_, ?_, ?_⟩ <;> decide +kernel

end PipeScript.Heap
