/-
Level values: those between which the order finds no difference. Being level is the largest
relation under which related values are leaves that compare as equal, the same list, or lists of
related items, and it is symmetric; on every heap, cyclic or not, the order answers "equal" exactly
for level values, whatever pairs it is inside of.

Before that, the order goes along its walk through two values: to leaves, to a pair that it is inside of, or
to the items of two lists, inside a path that is longer by their pair. Along the opposite pairs it is the
opposite.
-/
import PipeScript.Heap.Order
import PipeScript.Proofs.Heap.Search

namespace PipeScript.Heap

/-! ## Leaves in both directions -/

section Floats

open Float.Model Float.Model.UnpackedFloat

theorem compare_then_swap {α β : Type} [Ord α] [Std.OrientedOrd α] [Ord β] [Std.OrientedOrd β]
    (e e' : α) (m m' : β) :
    (compare e' e).then (compare m' m) = ((compare e e').then (compare m m')).swap := by
  rw [Ordering.swap_then, ← Std.OrientedOrd.eq_swap, ← Std.OrientedOrd.eq_swap]

theorem compare_unpacked_swap (a b : UnpackedFloat) : b.compare a = (a.compare b).map Ordering.swap := by
  rcases a with s | _ | s | ⟨s, m, e, hm⟩ <;> rcases b with s' | _ | s' | ⟨s', m', e', hm'⟩ <;>
    (try cases s) <;> (try cases s') <;> try rfl
  case finite.finite.negative.negative =>
    exact congrArg (fun o : Ordering => some o.swap) (compare_then_swap e e' m m')
  case finite.finite.positive.positive =>
    exact congrArg some (compare_then_swap e e' m m')

/-- What does not compare with itself is not a number, and compares with nothing. -/
theorem compare_unpacked_eq_none_of_self {a : UnpackedFloat} (ha : a.compare a = none) (b : UnpackedFloat) :
    a.compare b = none := by
  rcases a with s | _ | s | ⟨s, m, e, hm⟩
  case notANumber => cases b <;> rfl
  all_goals cases s <;> cases ha

/-- Floats are equal that their parts compare as equal. -/
theorem beq_iff_compare {x y : Float} :
    (x == y) = true ↔ x.toModel.unpack.compare y.toModel.unpack = some .eq := by
  show (x.toModel.unpack.compare y.toModel.unpack == some .eq) = true ↔ _
  simp

/-- The order of floats is the one that their parts have. -/
theorem floatOrder_eq_compare (x y : Float) :
    floatOrder x y = x.toModel.unpack.compare y.toModel.unpack := by
  have hlt (x y : Float) : x < y ↔ x.toModel.unpack.compare y.toModel.unpack = some .lt := by
    show decide ((x.toModel.unpack.compare y.toModel.unpack == some .lt) = true) = true ↔ _
    simp
  unfold floatOrder
  -- the third test compares the other way round, which gives the opposite of the first one
  simp only [hlt, beq_iff_compare, compare_unpacked_swap x.toModel.unpack y.toModel.unpack]
  rcases x.toModel.unpack.compare y.toModel.unpack with _ | (_ | _ | _) <;> simp

end Floats

theorem floatOrder_swap (x y : Float) : floatOrder y x = (floatOrder x y).map Ordering.swap := by
  rw [floatOrder_eq_compare, floatOrder_eq_compare, compare_unpacked_swap]

theorem floatOrder_eq_none_of_self {x : Float} (hx : floatOrder x x = none) (y : Float) : floatOrder x y = none := by
  rw [floatOrder_eq_compare] at hx ⊢
  exact compare_unpacked_eq_none_of_self hx _

theorem leafOrder_swap (a b : Value) : leafOrder b a = (leafOrder a b).map Ordering.swap := by
  cases a <;> cases b <;> simp only [leafOrder, Value.toFloat?, Option.map_none, Option.map_some]
  case int.int => rw [Std.OrientedOrd.eq_swap]
  case str.str => rw [Std.OrientedOrd.eq_swap]
  case bool.bool => rw [Std.OrientedOrd.eq_swap]
  all_goals exact floatOrder_swap ..

theorem leafOrder_list_right (a : Value) (r : ListRef) : leafOrder a (.list r) = none := by
  cases a <;> rfl

theorem leafOrder_list_left (r : ListRef) (b : Value) : leafOrder (.list r) b = none := by
  cases b <;> rfl

theorem lists_or_leaf (a b : Value) :
    (∃ r s, a = .list r ∧ b = .list s) ∨ ∀ r s, a = .list r → b = .list s → False := by
  by_cases hl : ∃ r s, a = .list r ∧ b = .list s
  · exact .inl hl
  · exact .inr fun r s ha hb => hl ⟨r, s, ha, hb⟩

/-- Values that are not both lists are ordered as leaves. -/
theorem orderOn_leaf {h : Heap} {path : List (Container × Container)} {a b : Value}
    (hl : ∀ r s, a = .list r → b = .list s → False) : h.orderOn path a b = leafOrder a b := by
  rw [orderOn]
  exact hl

/-! ## The walk through two values -/

section

variable {h : Heap}

/-- Induction along the walk of the order through two values. -/
theorem orderOn_induction {motive : List (Container × Container) → Value → Value → Prop}
    (leaf : ∀ path a b, (∀ r s, a = .list r → b = .list s → False) → motive path a b)
    (met : ∀ path r s, r = s ∨ (.list r, .list s) ∈ path → motive path (.list r) (.list s))
    (items : ∀ path r s, r ≠ s → (.list r, .list s) ∉ path →
      (∀ x ∈ h.items r, ∀ y ∈ h.items s, motive ((.list r, .list s) :: path) x y) →
      motive path (.list r) (.list s)) (path : List (Container × Container)) (a b : Value) :
    motive path a b := by
  -- on the pairs that are left to be entered
  induction hn : unmet h.pairs path using Nat.strong_induction_on generalizing path a b with
  | _ n ih =>
    rcases lists_or_leaf a b with ⟨r, s, rfl, rfl⟩ | hl
    · by_cases hmet : r = s ∨ (.list r, .list s) ∈ path
      · exact met path r s hmet
      · rw [not_or] at hmet
        refine items path r s hmet.1 hmet.2 fun x hx y hy => ih _ (hn ▸ ?_) _ x y rfl
        have hr : h.Has (.list r) := has_of_mem_contents hx
        have hs : h.Has (.list s) := has_of_mem_contents hy
        exact unmet_cons_lt (mem_pairs.2 ⟨hr, hs⟩) hmet.2
    · exact leaf path a b hl

theorem itemsOrder_swap {f g : Value → Value → Option Ordering} {xs ys : List Value}
    (hfg : ∀ x ∈ xs, ∀ y ∈ ys, g y x = (f x y).map Ordering.swap) :
    itemsOrder g ys xs = (itemsOrder f xs ys).map Ordering.swap := by
  induction xs generalizing ys with
  | nil => cases ys <;> rfl
  | cons x xs ih =>
    cases ys with
    | nil => rfl
    | cons y ys =>
      rw [itemsOrder, itemsOrder, hfg x List.mem_cons_self y List.mem_cons_self]
      rcases f x y with _ | (_ | _ | _)
      case some.eq =>
        refine ih fun x hx y hy => ?_
        exact hfg x (List.mem_cons_of_mem _ hx) y (List.mem_cons_of_mem _ hy)
      all_goals rfl

/-- Inside the opposite pairs the order of two values is the opposite one. -/
theorem orderOn_swap (h : Heap) (path : List (Container × Container)) (a b : Value) :
    h.orderOn (path.map Prod.swap) b a = (h.orderOn path a b).map Ordering.swap := by
  induction path, a, b using orderOn_induction (h := h) with
  | leaf path a b hl => rw [orderOn_leaf hl, orderOn_leaf fun r s hb ha => hl s r ha hb, leafOrder_swap]
  | met path r s hmet =>
    have hmet' : s = r ∨ (.list s, .list r) ∈ path.map Prod.swap :=
      hmet.imp Eq.symm (List.mem_map_of_mem (f := Prod.swap))
    rw [orderOn_list_of_met hmet, orderOn_list_of_met hmet']
    rfl
  | items path r s hne hpath ih =>
    have hpath' : (.list s, .list r) ∉ path.map Prod.swap := by simpa using hpath
    rw [orderOn_list hne hpath, orderOn_list hne.symm hpath']
    exact itemsOrder_swap ih

/-- The other way round two values are in the opposite order. -/
theorem order_swap (h : Heap) (a b : Value) : h.order b a = (h.order a b).map Ordering.swap :=
  h.orderOn_swap [] a b

end

/-! ## Level values -/

/-- What it takes for two values to be level, where `R` relates the items inside them. -/
inductive Levels (h : Heap) (R : Value → Value → Prop) : Value → Value → Prop
  | leaf {a b : Value} : leafOrder a b = some .eq → Levels h R a b
  | same (r : ListRef) : Levels h R (.list r) (.list r)
  | items {r s : ListRef} : List.Forall₂ R (h.items r) (h.items s) → Levels h R (.list r) (.list s)

/-- The pair that the order enters: two lists. -/
def orderPair? : Value → Value → Option (Container × Container)
  | .list r, .list s => some (.list r, .list s)
  | _, _ => none

theorem orderPair?_eq_some {a b : Value} {p : Container × Container} (hp : orderPair? a b = some p) :
    ∃ r s, a = .list r ∧ b = .list s ∧ p = (.list r, .list s) := by
  cases a <;> cases b <;> simp_all [orderPair?]

theorem itemsOrder_eq_iff_forall₂ {f : Value → Value → Option Ordering} {xs ys : List Value} :
    itemsOrder f xs ys = some .eq ↔ List.Forall₂ (fun x y => f x y = some .eq) xs ys := by
  induction xs generalizing ys with
  | nil => cases ys <;> simp [itemsOrder]
  | cons x xs ih =>
    cases ys with
    | nil => simp [itemsOrder]
    | cons y ys =>
      rw [List.forall₂_cons, ← ih, itemsOrder]
      rcases f x y with _ | (_ | _ | _) <;> simp

section

variable {h : Heap} {path : List (Container × Container)} {R : Value → Value → Prop}

theorem orderOn_list_eq_iff {r s : ListRef} :
    h.orderOn path (.list r) (.list s) = some .eq ↔ (.list r, .list s) ∈ path ∨ r = s ∨
      List.Forall₂ (fun x y => h.orderOn ((.list r, .list s) :: path) x y = some .eq) (h.items r)
        (h.items s) := by
  by_cases hmet : r = s ∨ (.list r, .list s) ∈ path
  · rw [orderOn_list_of_met hmet]
    exact iff_of_true rfl (hmet.elim (.inr ∘ .inl) .inl)
  · rw [not_or] at hmet
    rw [orderOn_list hmet.1 hmet.2, itemsOrder_eq_iff_forall₂, or_iff_right hmet.2, or_iff_right hmet.1]

theorem levels_list_iff {r s : ListRef} :
    h.Levels R (.list r) (.list s) ↔ r = s ∨ List.Forall₂ R (h.items r) (h.items s) := by
  constructor
  · intro hl
    cases hl with
    | leaf hleaf => rw [leafOrder_list_left] at hleaf; cases hleaf
    | same => exact .inl rfl
    | items hi => exact .inr hi
  · rintro (rfl | hi)
    · exact .same r
    · exact .items hi

theorem levels_leaf_iff {a b : Value} (hl : ∀ r s, a = .list r → b = .list s → False) :
    h.Levels R a b ↔ leafOrder a b = some .eq := by
  constructor
  · intro hab
    cases hab with
    | leaf hab => exact hab
    | same r => exact absurd rfl (hl r r rfl)
    | items _ => exact absurd rfl (hl _ _ rfl)
  · exact .leaf

end

/-- The answer "equal" inside a path: the pair is on it, or the values are level by the answers
inside the longer path. -/
theorem orderOn_eq_iff {h : Heap} {path : List (Container × Container)} {a b : Value} :
    h.orderOn path a b = some .eq ↔ (∃ p ∈ path, orderPair? a b = some p) ∨
      h.Levels (fun x y => h.orderOn ((orderPair? a b).toList ++ path) x y = some .eq) a b := by
  rcases lists_or_leaf a b with ⟨r, s, rfl, rfl⟩ | hl
  · rw [orderOn_list_eq_iff, levels_list_iff]
    simp [orderPair?]
  · rw [orderOn_leaf hl, levels_leaf_iff hl]
    refine ⟨.inr, fun hp => hp.resolve_left ?_⟩
    rintro ⟨p, -, hp⟩
    obtain ⟨r, s, ha, hb, -⟩ := orderPair?_eq_some hp
    exact hl r s ha hb

theorem Levels.mono_of_mem {h : Heap} {R R' : Value → Value → Prop} {a b : Value} (hab : h.Levels R a b)
    (hR : ∀ p, orderPair? a b = some p → ∀ x ∈ h.contents p.1, ∀ y ∈ h.contents p.2, R x y → R' x y) :
    h.Levels R' a b := by
  cases hab with
  | leaf hab => exact .leaf hab
  | same r => exact .same r
  | items hi => exact .items (forall₂_imp_of_mem (hR _ rfl) hi)

/-- What it takes for two values to be level, as a step of a search. -/
def levelling (h : Heap) : (Value → Value → Prop) →o (Value → Value → Prop) :=
  ⟨h.Levels, fun _ _ hR _ _ hab => hab.mono_of_mem fun _ _ x _ y _ => hR x y⟩

/-- The answer "equal" of the order as a search. -/
def levelSearch (h : Heap) : h.Search where
  pair? := orderPair?
  pair?_inj hp hq := by
    obtain ⟨r, s, rfl, rfl, rfl⟩ := orderPair?_eq_some hp
    obtain ⟨r', s', rfl, rfl, e⟩ := orderPair?_eq_some hq
    cases e
    exact ⟨rfl, rfl⟩
  step := h.levelling
  step_local := Levels.mono_of_mem
  answer path a b := h.orderOn path a b = some .eq
  answer_iff := orderOn_eq_iff

/-- The largest relation under which related values are equal leaves, the same list, or lists of
related items. -/
def Level (h : Heap) : Value → Value → Prop :=
  OrderHom.gfp h.levelling

section

variable {h : Heap} {a b : Value}

/-- The order of two values is "equal" exactly when they are level. -/
theorem order_eq_iff_level : h.order a b = some .eq ↔ h.Level a b :=
  h.levelSearch.answer_iff_gfp (h.levelSearch.met_nil_le _)

/-- Level values are answered with "equal" inside whatever pairs. -/
theorem Level.orderOn_eq (hab : h.Level a b) (path : List (Container × Container)) :
    h.orderOn path a b = some .eq :=
  h.levelSearch.answer_of_le (le_of_eq (OrderHom.map_gfp h.levelling).symm) path hab

theorem level_iff : h.Level a b ↔ h.Levels h.Level a b :=
  iff_of_eq (congrFun (congrFun (OrderHom.map_gfp h.levelling).symm a) b)

theorem level_list_iff {r s : ListRef} :
    h.Level (.list r) (.list s) ↔ r = s ∨ List.Forall₂ h.Level (h.items r) (h.items s) :=
  level_iff.trans levels_list_iff

/-- Values that are not both lists are level when they are equal as leaves. -/
theorem level_leaf_iff (hl : ∀ r s, a = .list r → b = .list s → False) :
    h.Level a b ↔ leafOrder a b = some .eq :=
  level_iff.trans (levels_leaf_iff hl)

theorem Level.symm (hab : h.Level a b) : h.Level b a := by
  refine OrderHom.le_gfp h.levelling (a := fun x y => h.Level y x) (fun x y hyx => ?_) b a hab
  rcases level_iff.1 hyx with hleaf | r | hi
  · refine .leaf ?_
    rw [leafOrder_swap, hleaf]
    rfl
  · exact .same r
  · exact .items hi.flip

end

end PipeScript.Heap
