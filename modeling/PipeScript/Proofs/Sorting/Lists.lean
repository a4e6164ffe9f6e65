/-
Sorting lists. Values that hold no float and no container that lies inside itself are ordered
partially: the order is transitive, and turns around where its two sides are exchanged. So a list of
them is sorted exactly when each two of its items have an order, whichever pairs of them are compared
on the way.
-/
import PipeScript.Builtin.Call
import PipeScript.Proofs.Heap.Copy
import PipeScript.Proofs.Heap.Transitivity
import PipeScript.Proofs.Run
import PipeScript.Proofs.Sorting.Insertion

namespace PipeScript

open Relation

namespace Heap

/-! ## Values that are ordered partially -/

/-- Nothing in the value lies inside itself, and nothing is a float. -/
structure Tame (h : Heap) (v : Value) : Prop where
  acyclic : h.Acyclic v
  noFloat : ∀ x, ¬ReflTransGen h.Inside (.float x) v

variable {h : Heap} {a b c : Value} {o o' : Ordering}

/-- What is no float is tame if all that lies in it is. -/
theorem tame_of_inside (ha : ∀ x, a ≠ .float x) (hinside : ∀ b, h.Inside b a → h.Tame b) : h.Tame a where
  acyclic := acyclic_of_inside fun b hb => (hinside b hb).acyclic
  noFloat x hx := by
    rcases ReflTransGen.cases_tail hx with he | ⟨b, hxb, hba⟩
    · exact ha x he
    · exact (hinside b hba).noFloat x hxb

theorem tame_list {r : ListRef} (hr : ∀ v ∈ h.items r, h.Tame v) : h.Tame (.list r) :=
  tame_of_inside nofun fun v hv => hr v (inside_list_iff.1 hv)

theorem tame_of_leaf (ha : ∀ x, a ≠ .float x) (hc : ∀ c : Container, a ≠ c.value) : h.Tame a :=
  tame_of_inside ha fun _ ⟨c, he, _⟩ => absurd he (hc c)

/-- Values without floats in them hold no other values. -/
theorem floatFree_noFloat (h : Heap) : h.FloatFree fun v => ∀ x, ¬ReflTransGen h.Inside (.float x) v where
  items hr _ hv x hx := hr x (hx.tail (inside_list_iff.2 hv))
  leaf x hx := hx x .refl

/-- What is at most equal composes. -/
theorem Tame.order_trans (ha : h.Tame a) (hb : h.Tame b) (hc : h.Tame c) (hab : h.order a b = some o)
    (ho : o ≠ .gt) (hbc : h.order b c = some o') (ho' : o' ≠ .gt) :
    ∃ o'', h.order a c = some o'' ∧ o'' ≠ .gt :=
  order_ne_gt_trans h.floatFree_noFloat.composes ha.noFloat hb.noFloat hc.noFloat
    (ha.acyclic.level_or_hasDifference b) (hb.acyclic.level_or_hasDifference c) hab ho hbc ho'

/-- What is not in order with itself has no order with anything. -/
theorem order_eq_none_of_self (hself : h.order a a = none) (b : Value) : h.order a b = none := by
  rcases lists_or_leaf a a with ⟨r, s, hr, hs⟩ | hl
  · obtain rfl : r = s := Value.list.inj (hr.symm.trans hs)
    rw [hr, order, orderOn_list_of_met (.inl rfl)] at hself
    cases hself
  · rw [order, orderOn_leaf hl] at hself
    rw [order, orderOn_leaf fun r _ hr _ => hl r r hr hr]
    cases a with
    | float x => cases b <;> first | rfl | exact floatOrder_eq_none_of_self hself _
    | bool | int | str => simp [leafOrder] at hself
    | null | list | dict | function => cases b <;> rfl

/-- Among tame values the order is partial. -/
theorem coherent_order {vs : List Value} (hvs : ∀ v ∈ vs, h.Tame v) :
    Coherent fun i j : Fin vs.length => h.order (vs.get i) (vs.get j) where
  swap _ _ := h.order_swap _ _
  trans hij ho hjk ho' := Tame.order_trans (hvs _ (List.getElem_mem _)) (hvs _ (List.getElem_mem _))
    (hvs _ (List.getElem_mem _)) hij ho hjk ho'
  self hself _ := order_eq_none_of_self hself _

theorem contents_newList {c : Container} (hc : h.Has c) (vs : List Value) :
    (h.newList vs).2.contents c = h.contents c := by
  cases c with
  | dict d => rfl
  | list r =>
    have hr : r.index < h.lists.size := hc
    refine (items_newList h vs r).trans (if_neg ?_)
    rintro rfl
    exact Nat.lt_irrefl _ hr

end Heap

/-! ## The function -/

variable {σ : Type}

theorem run_sort (fuel : Nat) (call : Caller σ) (w : World σ) (r : ListRef) :
    (Builtin.sort.run fuel call [.list r]).run.run w =
      match Comparison.sorted w.heap (w.heap.items r) with
      | .ok vs => (.ok (.list (w.heap.newList vs).1), { w with heap := (w.heap.newList vs).2 })
      | .error e => (.error (.failed e), w) := by
  have hsort : Lists.sort w.heap [.list r] =
      Comparison.sorted w.heap (w.heap.items r) >>= fun vs => .ok (Lists.made w.heap vs) := rfl
  refine (Run.run_changing (Lists.sort · [.list r]) w).trans ?_
  rw [hsort]
  cases Comparison.sorted w.heap (w.heap.items r) <;> rfl

/-- Sorting a list of tame values fails exactly when two items in different places have no order. A
failure leaves everything as it is, and is that of two items without an order. Otherwise there is a new
list, with all items in ascending order and those that are equal as before, and no container that was
there has changed. To sort in any other stable way gives the same items, or fails as well. -/
theorem sort_of_tame (fuel : Nat) (call : Caller σ) (w : World σ) (r : ListRef)
    (ht : ∀ v ∈ w.heap.items r, w.heap.Tame v) :
    let vs := w.heap.items r
    let order (i j : Fin vs.length) := w.heap.order vs[i] vs[j]
    let result := (Builtin.sort.run fuel call [.list r]).run.run w
    ((∃ i j, i ≠ j ∧ order i j = none) → ∃ a ∈ vs, ∃ b ∈ vs, w.heap.order a b = none ∧
      result = (.error (.failed (.value (.cannotCompare a.kind b.kind))), w)) ∧
    ((∀ i j, i ≠ j → order i j ≠ none) → ∃ s row h', result = (.ok (.list s), { w with heap := h' }) ∧
      ¬w.heap.Has (.list s) ∧ Ascending order row ∧ h'.items s = row.map (fun i => vs[i]) ∧
      ∀ c, w.heap.Has c → h'.contents c = w.heap.contents c) ∧
    ∀ p : Comparing (Fin vs.length) (List (Fin vs.length)), p.SortsStably → 2 ≤ vs.length →
      (Comparison.sortedBy w.heap vs p).toOption = (Comparison.sorted w.heap vs).toOption := by
  intro vs order result
  have hc : Coherent order := Heap.coherent_order ht
  have hstable := Comparing.insertion_sortsStably vs.length
  have hsorted : Comparison.sorted w.heap vs = Comparison.answer (fun i : Fin vs.length => vs[i])
      ((Comparing.insertion (List.finRange vs.length)).outcome order) := Comparison.sorted_eq w.heap vs
  have hresult : result = _ := run_sort fuel call w r
  refine ⟨fun ⟨i, j, hne, hij⟩ => ?_, fun hall => ?_, fun p hp hn => ?_⟩
  · cases h : (Comparing.insertion (List.finRange vs.length)).outcome order with
    | ok row => exact absurd hij (hstable.order_ne_none hc h hne)
    | error q =>
      rw [h] at hsorted
      refine ⟨vs[q.1], List.getElem_mem _, vs[q.2], List.getElem_mem _,
        Comparing.order_eq_none_of_outcome (i := q.1) (j := q.2) h, ?_⟩
      rw [hresult, hsorted]
      rfl
  · obtain ⟨row, hrow⟩ := Comparing.exists_insertion hc hall
    rw [hrow] at hsorted
    refine ⟨(w.heap.newList (row.map fun i => vs[i])).1, row, (w.heap.newList (row.map fun i => vs[i])).2,
      ?_, Nat.lt_irrefl _, hstable.ascending hc hrow, ?_, fun c hhas => Heap.contents_newList hhas _⟩
    · rw [hresult, hsorted]
      rfl
    · rw [Heap.items_newList, if_pos rfl]
  · rw [hsorted, Comparison.sortedBy, Comparison.answer_toOption, Comparison.answer_toOption,
      hp.toOption_eq hstable hc hn]

/-- A list that holds one list twice and another one between, and a list of items without an order. -/
def sharedLists : World Unit where
  heap := { lists := #[[.list ⟨1⟩, .list ⟨2⟩, .list ⟨1⟩], [.int 2, .str "a"], [.int 1], [.int 1, .str "a"]] }
  context := { draws := ⟨fun _ => 0, 0⟩, clock := ⟨fun _ => 0, 0⟩ }
  host := ()

theorem sort_sharedLists :
    (∀ v ∈ sharedLists.heap.items ⟨0⟩, sharedLists.heap.Tame v) ∧
      (∀ v ∈ sharedLists.heap.items ⟨3⟩, sharedLists.heap.Tame v) ∧
      (∃ s h', (Builtin.sort.run 0 (fun _ _ => throw .exhausted) [.list ⟨0⟩]).run.run sharedLists =
          (.ok (.list s), { sharedLists with heap := h' }) ∧
        h'.items s = [.list ⟨2⟩, .list ⟨1⟩, .list ⟨1⟩]) ∧
      ∃ e, (Builtin.sort.run 0 (fun _ _ => throw .exhausted) [.list ⟨3⟩]).run.run sharedLists =
        (.error (.failed e), sharedLists) := by
  have hint (n : Int64) : sharedLists.heap.Tame (.int n) := Heap.tame_of_leaf nofun fun c => by cases c <;> nofun
  have hstr (s : String) : sharedLists.heap.Tame (.str s) := Heap.tame_of_leaf nofun fun c => by cases c <;> nofun
  have hmixed : ∀ v ∈ sharedLists.heap.items ⟨3⟩, sharedLists.heap.Tame v := by
    rintro v (_ | ⟨_, _ | ⟨_, ⟨⟩⟩⟩)
    · exact hint 1
    · exact hstr "a"
  have hfirst : sharedLists.heap.Tame (.list ⟨1⟩) := by
    refine Heap.tame_list ?_
    rintro v (_ | ⟨_, _ | ⟨_, ⟨⟩⟩⟩)
    · exact hint 2
    · exact hstr "a"
  have hsecond : sharedLists.heap.Tame (.list ⟨2⟩) := by
    refine Heap.tame_list ?_
    rintro v (_ | ⟨_, ⟨⟩⟩)
    exact hint 1
  have hlists : ∀ v ∈ sharedLists.heap.items ⟨0⟩, sharedLists.heap.Tame v := by
    rintro v (_ | ⟨_, _ | ⟨_, _ | ⟨_, ⟨⟩⟩⟩⟩)
    · exact hfirst
    · exact hsecond
    · exact hfirst
  refine ⟨hlists, hmixed, ?_, ?_⟩
  · obtain ⟨s, row, h', hresult, -, hrow, hitems, -⟩ :=
      (sort_of_tame 0 (fun _ _ => throw .exhausted) sharedLists ⟨0⟩ hlists).2.1 (by decide +kernel)
    obtain rfl : row = [⟨1, by decide⟩, ⟨0, by decide⟩, ⟨2, by decide⟩] :=
      hrow.unique (Heap.coherent_order hlists) ⟨by decide +kernel, by decide +kernel⟩
    exact ⟨s, h', hresult, hitems⟩
  · obtain ⟨a, -, b, -, -, hresult⟩ :=
      (sort_of_tame 0 (fun _ _ => throw .exhausted) sharedLists ⟨3⟩ hmixed).1
        ⟨⟨0, by decide⟩, ⟨1, by decide⟩, by decide, by decide +kernel⟩
    exact ⟨_, hresult⟩

end PipeScript
