/-
What calls of the functions of the language leave alone. Without functions among its arguments a call that
fails leaves every list and dictionary as it was. One that succeeds leaves those that were there as they
were, but five functions change their first argument: they put an item on a list or take one off, or put an
entry into a dictionary. Lists that are made are none of those that were there, so that what is done to
them later shows in nothing else.
-/
import PipeScript.Proofs.Builtin.Change

namespace PipeScript

namespace Heap

variable {h : Heap}

/-! ## Changes of one container -/

theorem has_setItems {r : ListRef} {xs : List Value} {c : Container} : (h.setItems r xs).Has c ↔ h.Has c := by
  cases c <;> simp [Has, setItems]

theorem has_setEntries {r : DictRef} {t : Table Value} {c : Container} :
    (h.setEntries r t).Has c ↔ h.Has c := by
  cases c <;> simp [Has, setEntries]

theorem has_newList {xs : List Value} {c : Container} :
    (h.newList xs).2.Has c ↔ h.Has c ∨ c = .list (h.newList xs).1 := by
  cases c with
  | dict r => simp [Has, newList]
  | list r =>
    rcases r with ⟨i⟩
    have hnew : Container.list ⟨i⟩ = .list (h.newList xs).1 ↔ i = h.lists.size := by simp [newList]
    have hhas : (h.newList xs).2.Has (.list ⟨i⟩) ↔ i < h.lists.size + 1 := by simp [Has, newList]
    rw [hnew, hhas, Nat.lt_succ_iff_lt_or_eq]
    rfl

/-- A list that the heap has takes the items it is given, and the others keep theirs. -/
theorem items_setItems {r s : ListRef} (hs : h.Has (.list s)) (xs : List Value) :
    (h.setItems r xs).items s = if r = s then xs else h.items s := by
  split
  · next he =>
    subst he
    have hr : r.index < h.lists.size := hs
    simp [items, setItems, Array.getD_eq_getD_getElem?, hr]
  · next hne => exact items_setItems_of_ne (Ne.symm hne)

/-- A dictionary that the heap has takes the entries it is given, and the others keep theirs. -/
theorem entries_setEntries {r s : DictRef} (hs : h.Has (.dict s)) (t : Table Value) :
    (h.setEntries r t).entries s = if r = s then t else h.entries s := by
  have hindex : r.index = s.index ↔ r = s := ⟨fun he => by cases r; cases s; exact congrArg _ he, congrArg _⟩
  have hsize : s.index < h.dicts.size := hs
  simp only [entries, setEntries, Array.getD_eq_getD_getElem?, Array.getElem?_setIfInBounds, hindex]
  split <;> simp [*]

end Heap

namespace Builtin

/-! ## What is announced -/

/-- The functions that change their first argument. -/
def changing : List Builtin :=
  [push, pop, shift, unshift, set]

/-- The functions of which a list that they give is a new one. -/
def making : List Builtin :=
  [slice, reverse, sort, split, keys, values, forEach]

/-- The items of a list after a call that succeeded. -/
def itemsAfter (h : Heap) (b : Builtin) (args : List Value) (r : ListRef) : List Value :=
  match b, args with
  | push, [.list s, v] => if s = r then h.items r ++ [v] else h.items r
  | unshift, [.list s, v] => if s = r then v :: h.items r else h.items r
  | pop, [.list s] => if s = r then (h.items r).dropLast else h.items r
  | shift, [.list s] => if s = r then (h.items r).tail else h.items r
  | _, _ => h.items r

/-- The entries of a dictionary after a call that succeeded. -/
def entriesAfter (h : Heap) (b : Builtin) (args : List Value) (r : DictRef) : Table Value :=
  match b, args with
  | set, [.dict s, key, v] => if s = r then (h.entries r).insert (h.text key) v else h.entries r
  | _, _ => h.entries r

/-- A call with the value `v` leaves a heap behind in which all containers that were there are as
announced. -/
structure Framed (h : Heap) (b : Builtin) (args : List Value) (v : Value) (h' : Heap) : Prop where
  has : ∀ c, h.Has c → h'.Has c
  items : ∀ r, h.Has (.list r) → h'.items r = b.itemsAfter h args r
  entries : ∀ r, h.Has (.dict r) → h'.entries r = b.entriesAfter h args r
  /-- What something is put into is given back. -/
  first : b ∈ [push, unshift, set] → args.head? = Option.some v
  /-- A list that is made was not there. -/
  fresh : b ∈ making → ∀ r, v = .list r → ¬h.Has (.list r) ∧ h'.Has (.list r)

variable {σ : Type} {h h' : Heap} {b : Builtin} {args : List Value} {v : Value}

theorem itemsAfter_eq (hb : b ∉ changing) (r : ListRef) : b.itemsAfter h args r = h.items r := by
  unfold itemsAfter
  split <;> first | rfl | exact absurd (by decide) hb

theorem entriesAfter_eq (hb : b ≠ set) (r : DictRef) : b.entriesAfter h args r = h.entries r := by
  unfold entriesAfter
  split
  · exact absurd rfl hb
  · rfl

/-! ## All other functions -/

/-- A call that leaves the heap as it is, and announces no more. -/
theorem Framed.refl (hitems : ∀ r, b.itemsAfter h args r = h.items r)
    (hentries : ∀ r, b.entriesAfter h args r = h.entries r)
    (hfirst : b ∉ [push, unshift, set] ∨ args.head? = Option.some v)
    (hmaking : b ∉ making ∨ ∀ r, v ≠ .list r) : b.Framed h args v h where
  has _ := id
  items r _ := (hitems r).symm
  entries r _ := (hentries r).symm
  first hb := hfirst.resolve_left (absurd hb)
  fresh hb r hv := absurd hv (hmaking.resolve_left (absurd hb) r)

/-- Functions other than the five leave the containers as they are, and add a new list at most. -/
theorem Change.framed (hc : b.Change h args v h') (hb : b ∉ changing) : b.Framed h args v h' := by
  have hset : b ≠ set := fun he => hb (he ▸ by decide)
  have hfirst : b ∉ [push, unshift, set] := fun hin =>
    hb ((by decide : ∀ b ∈ [push, unshift, set], b ∈ changing) b hin)
  cases hc with
  | leaf hv =>
    refine .refl (itemsAfter_eq hb) (entriesAfter_eq hset) (.inl hfirst) (.inr ?_)
    rintro r rfl
    exact hv
  | found hfound _ =>
    have hmaking := (by decide : ∀ b ∈ [max, min, get, tonumber, ifElse], b ∉ making) b hfound
    exact .refl (itemsAfter_eq hb) (entriesAfter_eq hset) (.inl hfirst) (.inl hmaking)
  | @made _ _ xs _ _ =>
    have hnew : ¬h.Has (.list (h.newList xs).1) := Nat.lt_irrefl _
    refine ⟨fun c hc => Heap.has_newList.2 (.inl hc), fun r hr => ?_, fun r _ => ?_,
      fun hin => absurd hin hfirst, ?_⟩
    · rw [itemsAfter_eq hb, Heap.items_newList, if_neg]
      rintro rfl
      exact hnew hr
    · rw [entriesAfter_eq hset]
      rfl
    · rintro - r ⟨⟩
      exact ⟨hnew, Heap.has_newList.2 (.inr rfl)⟩
  | pushed | unshifted | popped | shifted | entered | refused => exact absurd (by decide) hb

/-! ## The five functions -/

/-- A call that makes other items of those of one list. -/
theorem framed_setItems {r : ListRef} (f : List Value → List Value)
    (hitems : ∀ s, b.itemsAfter h args s = if r = s then f (h.items s) else h.items s) (hset : b ≠ set)
    (hfirst : b ∉ [push, unshift, set] ∨ args.head? = Option.some v) (hmaking : b ∉ making) :
    b.Framed h args v (h.setItems r (f (h.items r))) where
  has _ := Heap.has_setItems.2
  items s hs := by
    rw [hitems, Heap.items_setItems hs]
    split
    · next he => rw [he]
    · rfl
  entries s _ := (entriesAfter_eq (h := h) hset s).symm
  first hb := hfirst.resolve_left (absurd hb)
  fresh hb := absurd hb hmaking

theorem push_framed : Yields (fun p => push.Framed h args p.1 p.2) (Lists.push h args) := by
  refine .bind (Arguments.two_yields args) fun (target, v) hargs => ?_
  refine .bind (Arguments.list_yields target) fun r htarget => .ok ?_
  obtain rfl : args = [.list r, v] := htarget ▸ hargs
  obtain rfl : target = .list r := htarget
  exact framed_setItems (· ++ [v]) (fun _ => rfl) (by decide) (.inr rfl) (by decide)

theorem unshift_framed : Yields (fun p => unshift.Framed h args p.1 p.2) (Lists.unshift h args) := by
  refine .bind (Arguments.two_yields args) fun (target, v) hargs => ?_
  refine .bind (Arguments.list_yields target) fun r htarget => .ok ?_
  obtain rfl : args = [.list r, v] := htarget ▸ hargs
  obtain rfl : target = .list r := htarget
  exact framed_setItems (v :: ·) (fun _ => rfl) (by decide) (.inr rfl) (by decide)

/-- Nothing is taken off what is not true: a list that is not true is empty. -/
theorem itemsAfter_of_not_truthy (hb : b ∈ [pop, shift]) {target : Value} (ht : h.truthy target = false)
    (s : ListRef) : b.itemsAfter h [target] s = h.items s := by
  cases target with
  | list r =>
    have hempty : h.items r = [] := by simpa [Heap.truthy] using ht
    simp only [List.mem_cons, List.not_mem_nil, or_false] at hb
    rcases hb with rfl | rfl <;> simp only [itemsAfter] <;> split
    all_goals first | rfl | next he => rw [← he, hempty]; rfl
  | _ =>
    simp only [List.mem_cons, List.not_mem_nil, or_false] at hb
    rcases hb with rfl | rfl <;> rfl

/-- A function that takes an item off a list. -/
theorem taken_framed (hb : b ∈ [pop, shift]) {f : List Value → List Value} (item : List Value → Value)
    (hitems : ∀ r s, b.itemsAfter h [.list r] s = if r = s then f (h.items s) else h.items s) :
    Yields (fun p => b.Framed h args p.1 p.2) (do
      let target ← Arguments.one args
      if !h.truthy target then return (.null, h)
      let r ← Arguments.list target
      return (item (h.items r), h.setItems r (f (h.items r)))) := by
  obtain ⟨hset, hfirst, hmaking⟩ :=
    (by decide : ∀ b ∈ [pop, shift], b ≠ set ∧ b ∉ [push, unshift, set] ∧ b ∉ making) b hb
  refine .bind (Arguments.one_yields args) fun target hargs => ?_
  obtain rfl : args = [target] := hargs
  split
  · next ht =>
    have hsame := itemsAfter_of_not_truthy hb (by simpa using ht)
    exact .ok (.refl hsame (entriesAfter_eq hset) (.inl hfirst) (.inl hmaking))
  · refine .bind (Arguments.list_yields target) fun r htarget => .ok ?_
    obtain rfl : target = .list r := htarget
    exact framed_setItems f (hitems r) hset (.inl hfirst) hmaking

theorem pop_framed : Yields (fun p => pop.Framed h args p.1 p.2) (Lists.pop h args) :=
  taken_framed (by decide) (fun xs => xs.getLast?.getD .null) fun _ _ => rfl

theorem shift_framed : Yields (fun p => shift.Framed h args p.1 p.2) (Lists.shift h args) :=
  taken_framed (by decide) (fun xs => xs.head?.getD .null) fun _ _ => rfl

theorem set_framed : Yields (fun p => set.Framed h args p.1 p.2) (Dicts.set h args) := by
  refine .bind (Arguments.three_yields args) fun (target, key, v) hargs => ?_
  obtain rfl : args = [target, key, v] := hargs
  cases target with
  | dict r =>
    refine .ok ⟨fun _ => Heap.has_setEntries.2, fun _ _ => rfl, fun s hs => ?_, fun _ => rfl,
      fun hin => absurd hin (by decide)⟩
    rw [Heap.entries_setEntries hs]
    simp only [entriesAfter]
    split
    · next he => rw [he]
    · rfl
  | _ => exact .ok (.refl (fun _ => rfl) (fun _ => rfl) (.inr rfl) (.inl (by decide)))

/-! ## All functions -/

theorem run_within_framed (hargs : NoFunction args) (b : Builtin) (fuel : Nat) (call : Caller σ) (h : Heap) :
    Run.Within h (b.Framed h args) (b.run fuel call args) := by
  cases b with
  | push => exact .changing push_framed
  | unshift => exact .changing unshift_framed
  | pop => exact .changing pop_framed
  | shift => exact .changing shift_framed
  | set => exact .changing set_framed
  | _ => exact (run_within hargs _ fuel call h).imp fun _ _ hc => hc.framed (by decide)

/-- A call without functions among its arguments comes to an end. If it fails, all containers are as they
were; if it gives a value, those that were there are as announced: only the five functions change one, which
is their first argument, what something is put into is given back, and lists that are made were not there. -/
theorem run_framed (hargs : NoFunction args) (b : Builtin) (fuel : Nat) (call : Caller σ) (w : World σ) :
    (∃ e w', (b.run fuel call args).run.run w = (.error (.failed e), w') ∧ w'.heap = w.heap) ∨
      ∃ v w', (b.run fuel call args).run.run w = (.ok v, w') ∧ b.Framed w.heap args v w'.heap := by
  have hends := run_within_framed hargs b fuel call w.heap w rfl
  rcases hrun : (b.run fuel call args).run.run w with ⟨(_ | e) | v, w'⟩ <;> rw [hrun] at hends
  · exact absurd hends id
  · exact .inl ⟨e, w', rfl, hends⟩
  · exact .inr ⟨v, w', rfl, hends⟩

/-- A world with a list of a number and a dictionary. -/
def listAndDict : World Unit where
  heap := { lists := #[[.int 1]], dicts := #[.empty] }
  context := { draws := ⟨fun _ => 0.5, 0⟩, clock := ⟨fun _ => 0, 0⟩ }
  host := ()

/-- A list that is put on itself holds itself after the number, and a dictionary that is its own key has
an entry under the text it had before; the other container stays as it is. -/
theorem run_framed_intoItself :
    NoFunction [.list ⟨0⟩, .list ⟨0⟩] ∧ NoFunction [.dict ⟨0⟩, .dict ⟨0⟩, .list ⟨0⟩] ∧
      (∃ w', (push.run 0 (fun _ _ => throw .exhausted) [.list ⟨0⟩, .list ⟨0⟩]).run.run listAndDict =
          (.ok (.list ⟨0⟩), w') ∧ w'.heap.items ⟨0⟩ = [.int 1, .list ⟨0⟩] ∧
        (w'.heap.entries ⟨0⟩).entries = []) ∧
      ∃ w', (set.run 0 (fun _ _ => throw .exhausted) [.dict ⟨0⟩, .dict ⟨0⟩, .list ⟨0⟩]).run.run listAndDict =
          (.ok (.dict ⟨0⟩), w') ∧ w'.heap.items ⟨0⟩ = [.int 1] ∧
        (w'.heap.entries ⟨0⟩).entries = [("\x7b\x7d", .list ⟨0⟩)] := by
  have hpush : NoFunction [.list ⟨0⟩, .list ⟨0⟩] := by simp [NoFunction]
  have hset : NoFunction [.dict ⟨0⟩, .dict ⟨0⟩, .list ⟨0⟩] := by simp [NoFunction]
  have hlist : listAndDict.heap.Has (.list ⟨0⟩) := by decide
  have hdict : listAndDict.heap.Has (.dict ⟨0⟩) := by decide
  refine ⟨hpush, hset, ?_, ?_⟩
  · rcases run_framed hpush push 0 (fun _ _ => throw .exhausted) listAndDict with ⟨e, w', hrun, -⟩ | ⟨v, w', hrun, hw⟩
    · cases hrun
    · obtain rfl := Option.some.inj (hw.first (by decide))
      refine ⟨w', hrun, ?_, ?_⟩
      · rw [hw.items _ hlist]; rfl
      · rw [hw.entries _ hdict]; rfl
  · rcases run_framed hset set 0 (fun _ _ => throw .exhausted) listAndDict with ⟨e, w', hrun, -⟩ | ⟨v, w', hrun, hw⟩
    · cases hrun
    · obtain rfl := Option.some.inj (hw.first (by decide))
      refine ⟨w', hrun, ?_, ?_⟩
      · rw [hw.items _ hlist]; rfl
      · rw [hw.entries _ hdict]; decide +kernel

end Builtin

end PipeScript
