/-
Order and equality agree with themselves and with each other on every heap, cyclic or not. To compare two
values comes to an end; the other way round it gives the opposite, along the opposite pairs; what compares
as equal is equal; and what is equal compares as equal or cannot be compared. So of less, greater and equal
exactly one holds of two values that can be compared.

All of this goes along the walk of the order through the two values. That it comes to an end is told by its
steps: a derivation of them is finite.
-/
import PipeScript.Builtin.Call
import PipeScript.Proofs.Heap.Copy
import PipeScript.Proofs.Heap.Equality
import PipeScript.Proofs.Heap.Level

namespace PipeScript

namespace Heap

variable {h : Heap} {path : List (Container × Container)} {a b : Value}

/-! ## The walk -/

mutual

/-- To compare two values inside the path comes to an end, with the order `o`. -/
inductive Compares (h : Heap) : List (Container × Container) → Value → Value → Option Ordering → Prop
  | leaf {path : List (Container × Container)} {a b : Value} :
      (∀ r s, a = .list r → b = .list s → False) → Compares h path a b (leafOrder a b)
  | met {path : List (Container × Container)} {r s : ListRef} :
      r = s ∨ (.list r, .list s) ∈ path → Compares h path (.list r) (.list s) (some .eq)
  | items {path : List (Container × Container)} {r s : ListRef} {o : Option Ordering} :
      ¬(r = s ∨ (.list r, .list s) ∈ path) →
      ComparesItems h ((.list r, .list s) :: path) (h.items r) (h.items s) o →
      Compares h path (.list r) (.list s) o

/-- To compare two sequences inside the path comes to an end: at the first items that do not compare as
equal, or with the lengths. -/
inductive ComparesItems (h : Heap) :
    List (Container × Container) → List Value → List Value → Option Ordering → Prop
  | lengths {path : List (Container × Container)} {xs ys : List Value} : xs = [] ∨ ys = [] →
      ComparesItems h path xs ys (some (compare xs.length ys.length))
  | differing {path : List (Container × Container)} {x y : Value} {xs ys : List Value}
      {o : Option Ordering} : Compares h path x y o → o ≠ some .eq →
      ComparesItems h path (x :: xs) (y :: ys) o
  | level {path : List (Container × Container)} {x y : Value} {xs ys : List Value}
      {o : Option Ordering} : Compares h path x y (some .eq) → ComparesItems h path xs ys o →
      ComparesItems h path (x :: xs) (y :: ys) o

end

theorem comparesItems_itemsOrder {xs ys : List Value}
    (hxy : ∀ x ∈ xs, ∀ y ∈ ys, h.Compares path x y (h.orderOn path x y)) :
    h.ComparesItems path xs ys (itemsOrder (h.orderOn path) xs ys) := by
  induction xs generalizing ys with
  | nil =>
    cases ys with
    | nil => exact .lengths (.inl rfl)
    | cons y ys =>
      have hless : compare ([] : List Value).length (y :: ys).length = .lt := Nat.compare_eq_lt.2 (by simp)
      rw [itemsOrder, ← hless]
      exact .lengths (.inl rfl)
  | cons x xs ih =>
    cases ys with
    | nil =>
      have hgreater : compare (x :: xs).length ([] : List Value).length = .gt := Nat.compare_eq_gt.2 (by simp)
      rw [itemsOrder, ← hgreater]
      exact .lengths (.inr rfl)
    | cons y ys =>
      have hhead := hxy x List.mem_cons_self y List.mem_cons_self
      rw [itemsOrder]
      rcases ho : h.orderOn path x y with _ | (_ | _ | _) <;> rw [ho] at hhead
      case some.eq =>
        refine .level hhead (ih fun x hx y hy => ?_)
        exact hxy x (List.mem_cons_of_mem _ hx) y (List.mem_cons_of_mem _ hy)
      all_goals exact .differing hhead (by simp)

/-- To compare two values comes to an end, on every heap and inside whatever pairs. -/
theorem compares_orderOn (h : Heap) (path : List (Container × Container)) (a b : Value) :
    h.Compares path a b (h.orderOn path a b) := by
  induction path, a, b using orderOn_induction (h := h) with
  | leaf path a b hl => exact orderOn_leaf hl ▸ .leaf hl
  | met path r s hmet => exact orderOn_list_of_met hmet ▸ .met hmet
  | items path r s hne hpath ih =>
    rw [orderOn_list hne hpath]
    exact .items (not_or.2 ⟨hne, hpath⟩) (comparesItems_itemsOrder ih)

/-! ## Order and equality -/

theorem floatOrder_eq_iff {x y : Float} : floatOrder x y = some .eq ↔ (x == y) = true := by
  rw [floatOrder_eq_compare, beq_iff_compare]

theorem float_beq_symm {x y : Float} (hxy : (x == y) = true) : (y == x) = true := by
  rw [← floatOrder_eq_iff] at hxy ⊢
  rw [floatOrder_swap, hxy]
  rfl

theorem Matches.symm {R : Value → Value → Prop} (hab : h.Matches (fun x y => R y x) a b) :
    h.Matches R b a := by
  cases hab with
  | null => exact .null
  | bool b => exact .bool b
  | int n => exact .int n
  | intFloat hx => exact .floatInt (float_beq_symm hx)
  | floatInt hx => exact .intFloat (float_beq_symm hx)
  | float hx => exact .float (float_beq_symm hx)
  | str s => exact .str s
  | function hf => exact .function hf.symm
  | sameList r => exact .sameList r
  | sameDict r => exact .sameDict r
  | lists hi => exact .lists hi.flip
  | @dicts r s hi =>
    refine .dicts fun key => ?_
    have hkey := hi key
    generalize (h.entries r).get? key = x at hkey ⊢
    generalize (h.entries s).get? key = y at hkey ⊢
    cases hkey with
    | some hxy => exact .some hxy
    | none => exact .none

theorem eq_symm (h : Heap) (a b : Value) : h.eq b a = h.eq a b := by
  have hle (a b : Value) (hba : h.eq b a = true) : h.eq a b = true :=
    (eq_isGreatest h).1.2 (fun x y (hyx : h.eq y x = true) => (eq_iff_matches.1 hyx).symm) a b hba
  exact Bool.eq_iff_iff.2 ⟨hle a b, hle b a⟩

/-- Leaves that compare as equal match. -/
theorem matches_of_leafOrder {R : Value → Value → Prop} (hab : leafOrder a b = some .eq) :
    h.Matches R a b := by
  cases a <;> cases b <;>
    simp only [leafOrder, Value.toFloat?, Option.some.injEq, reduceCtorEq, floatOrder_eq_iff] at hab
  case int.int => exact Int64.toInt_inj.1 (Std.LawfulEqOrd.eq_of_compare hab) ▸ .int _
  case str.str => exact Std.LawfulEqOrd.eq_of_compare hab ▸ .str _
  case bool.bool => exact Std.LawfulEqOrd.eq_of_compare hab ▸ .bool _
  case int.float => exact .intFloat hab
  case float.int => exact .floatInt hab
  case float.float => exact .float hab

/-- Level values are equal. -/
theorem Level.eq (hab : h.Level a b) : h.eq a b = true := by
  refine (eq_isGreatest h).1.2 (fun x y (hxy : h.Level x y) => ?_) a b hab
  rcases level_iff.1 hxy with hleaf | r | hi
  · exact matches_of_leafOrder hleaf
  · exact .sameList r
  · exact .lists hi

/-- Leaves that match compare as equal, if they can be compared. -/
theorem leafOrder_of_matches {R : Value → Value → Prop} (hab : h.Matches R a b)
    (hl : ∀ r s, a = .list r → b = .list s → False) :
    leafOrder a b = none ∨ leafOrder a b = some .eq := by
  cases hab with
  | null | function | sameDict | dicts => exact .inl rfl
  | bool | int | str => exact .inr (congrArg some Std.ReflOrd.compare_self)
  | intFloat hx | floatInt hx | float hx => exact .inr (floatOrder_eq_iff.2 hx)
  | sameList r => exact (hl r r rfl rfl).elim
  | lists _ => exact (hl _ _ rfl rfl).elim

theorem itemsOrder_of_forall₂ {f : Value → Value → Option Ordering} {xs ys : List Value}
    (hxy : List.Forall₂ (fun x y => f x y = none ∨ f x y = some .eq) xs ys) :
    itemsOrder f xs ys = none ∨ itemsOrder f xs ys = some .eq := by
  induction hxy with
  | nil => exact .inr rfl
  | @cons x y xs ys ho _ ih =>
    rw [itemsOrder]
    rcases ho with ho | ho <;> rw [ho]
    · exact .inl rfl
    · exact ih

/-- Equal values compare as equal inside whatever pairs, if they can be compared. -/
theorem orderOn_of_eq (path : List (Container × Container)) (hab : h.eq a b = true) :
    h.orderOn path a b = none ∨ h.orderOn path a b = some .eq := by
  induction path, a, b using orderOn_induction (h := h) with
  | leaf path a b hl =>
    rw [orderOn_leaf hl]
    exact leafOrder_of_matches (eq_iff_matches.1 hab) hl
  | met path r s hmet => exact .inr (orderOn_list_of_met hmet)
  | items path r s hne hpath ih =>
    rw [orderOn_list hne hpath]
    have hi := (matches_list_iff.1 (eq_iff_matches.1 hab)).resolve_left hne
    exact itemsOrder_of_forall₂ (forall₂_imp_of_mem ih hi)

end Heap

/-! ## What scripts see -/

namespace Comparison

variable {σ : Type} {fuel : Nat} {call : Caller σ} {w : World σ} {a b : Value}

/-- The function answers two values with a truth, and changes nothing. -/
def Answers (fuel : Nat) (call : Caller σ) (w : World σ) (f : Builtin) (x y : Value) (v : Bool) : Prop :=
  (f.run fuel call [x, y]).run.run w = (.ok (.bool v), w)

/-- The function refuses two values, since they cannot be ordered, and changes nothing. -/
def Refuses (fuel : Nat) (call : Caller σ) (w : World σ) (f : Builtin) (x y : Value) : Prop :=
  (f.run fuel call [x, y]).run.run w = (.error (.failed (.value (.cannotCompare x.kind y.kind))), w)

/-- All comparisons of two values answer by the one of the three that holds. -/
structure Decides (fuel : Nat) (call : Caller σ) (w : World σ) (a b : Value) (less greater equal : Bool) :
    Prop where
  lt : Answers fuel call w .lt a b less
  gt : Answers fuel call w .gt a b greater
  eq : Answers fuel call w .eq a b equal
  one : [less, greater, equal].count true = 1
  swap : Answers fuel call w .lt b a greater
  gte : Answers fuel call w .gte a b !less
  lte : Answers fuel call w .lte a b !greater

theorem run_ordered (accept : Ordering → Bool) (w : World σ) (a b : Value) :
    (Run.reading (ordered accept · [a, b]) : Run σ Value).run.run w = match w.heap.order a b with
      | some o => (.ok (.bool (accept o)), w)
      | none => (.error (.failed (.value (.cannotCompare a.kind b.kind))), w) := by
  have hrun : (Run.reading (ordered accept · [a, b]) : Run σ Value).run.run w =
    (Run.ofExcept (ordered accept w.heap [a, b]) : Run σ Value).run.run w := rfl
  rw [hrun, ordered_two]
  cases w.heap.order a b <;> rfl

theorem refuses_of_order (ho : w.heap.order a b = none) :
    ∀ f ∈ [Builtin.lt, .gt, .gte, .lte], Refuses fuel call w f a b := by
  have hrefuses (accept : Ordering → Bool) : (Run.reading (ordered accept · [a, b]) : Run σ Value).run.run w =
      (.error (.failed (.value (.cannotCompare a.kind b.kind))), w) := by
    rw [run_ordered, ho]
  simp only [List.forall_mem_cons]
  exact ⟨hrefuses _, hrefuses _, hrefuses _, hrefuses _, nofun⟩

theorem decides_of_order {o : Ordering} (ho : w.heap.order a b = some o) :
    Decides fuel call w a b (o = .lt) (o = .gt) (w.heap.eq a b) := by
  have hanswers {x y : Value} {o : Ordering} (ho : w.heap.order x y = some o) (accept : Ordering → Bool) :
      (Run.reading (ordered accept · [x, y]) : Run σ Value).run.run w = (.ok (.bool (accept o)), w) := by
    rw [run_ordered, ho]
  have hswap : w.heap.order b a = some o.swap := by rw [w.heap.order_swap, ho]; rfl
  -- of values that can be compared, just those are equal that compare as equal
  have heq : w.heap.eq a b = decide (o = .eq) := by
    rw [Bool.eq_iff_iff, decide_eq_true_eq]
    constructor
    · intro hab
      rcases Heap.orderOn_of_eq [] hab with hnone | hsome
      · cases ho.symm.trans hnone
      · exact Option.some.inj (ho.symm.trans hsome)
    · rintro rfl
      exact (Heap.order_eq_iff_level.1 ho).eq
  exact {
    lt := by cases o <;> exact hanswers ho Ordering.isLT
    gt := by cases o <;> exact hanswers ho Ordering.isGT
    eq := rfl
    one := by rw [heq]; cases o <;> rfl
    swap := by cases o <;> exact hanswers hswap Ordering.isLT
    gte := by cases o <;> exact hanswers ho Ordering.isGE
    lte := by cases o <;> exact hanswers ho Ordering.isLE }

/-- Order and equality cohere on every heap. To compare two values comes to an end, and the other way round
gives the opposite; equality is symmetric; what compares as equal is equal, and what is equal compares as
equal or not at all. So either the two values cannot be ordered, and all four comparisons by order refuse
them, or exactly one of less, greater and equal holds and all comparisons answer by it. -/
theorem order_coheres_eq (fuel : Nat) (call : Caller σ) (w : World σ) (a b : Value) :
    w.heap.Compares [] a b (w.heap.order a b) ∧
      w.heap.order b a = (w.heap.order a b).map Ordering.swap ∧
      w.heap.eq b a = w.heap.eq a b ∧
      (w.heap.order a b = some .eq → w.heap.eq a b = true) ∧
      (w.heap.eq a b = true → w.heap.order a b = none ∨ w.heap.order a b = some .eq) ∧
      ((∀ f ∈ [Builtin.lt, .gt, .gte, .lte], Refuses fuel call w f a b) ∨
        ∃ less greater equal, Decides fuel call w a b less greater equal) := by
  refine ⟨w.heap.compares_orderOn [] a b, w.heap.order_swap a b, w.heap.eq_symm a b,
    fun ho => (Heap.order_eq_iff_level.1 ho).eq, fun hab => Heap.orderOn_of_eq [] hab, ?_⟩
  cases ho : w.heap.order a b with
  | none => exact .inl (refuses_of_order ho)
  | some o => exact .inr ⟨_, _, _, decides_of_order ho⟩

end Comparison

end PipeScript
