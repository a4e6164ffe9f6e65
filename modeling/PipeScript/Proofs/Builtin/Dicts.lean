/-
Dictionaries as finite maps. Whatever else is done in between, calls that put entries into a dictionary and
look into it are answered as by a finite map from texts, where each key is the text that it has at the moment
of the call. The dictionary can be its own key or lie in its own entries, and what was a key once can have
another text later on; none of this shows in the entries that are there.
-/
import Mathlib.Data.Finmap
import Mathlib.Data.Finset.Sort
import Mathlib.Data.String.Basic
import PipeScript.Proofs.Builtin.Frame

namespace PipeScript

/-! ## Tables as finite maps -/

namespace Table

variable {α : Type}

/-- The finite map of a table, which does not have its keys in any order. -/
def toFinmap (t : Table α) : Finmap fun _ : String => α :=
  (t.entries.map fun e => (⟨e.1, e.2⟩ : Σ _ : String, α)).toFinmap

theorem lookup_toFinmap (t : Table α) (key : String) : t.toFinmap.lookup key = t.get? key := by
  have hentries (es : List (String × α)) :
      (es.map fun e => (⟨e.1, e.2⟩ : Σ _ : String, α)).dlookup key = lookup key es := by
    induction es with
    | nil => rfl
    | cons e es ih =>
      rw [List.map_cons, lookup_cons]
      split
      · next he => subst he; exact List.dlookup_cons_eq ..
      · next hne => rw [List.dlookup_cons_ne _ _ (Ne.symm hne), ih]
  rw [toFinmap, Finmap.dlookup_list_toFinmap, hentries]
  rfl

theorem toFinmap_insert (t : Table α) (key : String) (a : α) :
    (t.insert key a).toFinmap = t.toFinmap.insert key a := by
  refine Finmap.ext_lookup fun k => ?_
  rw [lookup_toFinmap, get?_insert]
  split
  · next he => rw [he, Finmap.lookup_insert]
  · next hne => rw [Finmap.lookup_insert_of_ne _ (Ne.symm hne), lookup_toFinmap]

theorem pairwise_keys (t : Table α) : t.keys.Pairwise (· < ·) :=
  List.pairwise_map.2 t.ascending

theorem toFinset_keys (t : Table α) : t.keys.toFinset = t.toFinmap.keys := by
  ext key
  rw [List.mem_toFinset, Finmap.mem_keys, toFinmap, Finmap.mem_list_toFinmap]
  simp [keys]

/-- The keys are those of the finite map, put in order. -/
theorem sort_keys_toFinmap (t : Table α) : t.toFinmap.keys.sort = t.keys := by
  rw [← toFinset_keys]
  have hnodup : t.keys.Nodup := t.pairwise_keys.imp fun hlt => ne_of_lt hlt
  exact (List.toFinset_sort _ hnodup).2 (t.pairwise_keys.imp fun hlt => le_of_lt hlt)

theorem card_keys_toFinmap (t : Table α) : t.toFinmap.keys.card = t.size := by
  rw [← Finset.length_sort (· ≤ ·), sort_keys_toFinmap]
  exact List.length_map _

theorem get?_of_mem {t : Table α} {key : String} {a : α} (h : (key, a) ∈ t.entries) : t.get? key = some a := by
  have hfind : t.entries.find? (·.1 == key) = some (key, a) := by
    obtain ⟨before, after, he⟩ := List.append_of_mem h
    refine List.find?_eq_some_iff_append.2 ⟨beq_self_eq_true key, before, after, he, fun b hb => ?_⟩
    have hlt := (List.pairwise_append.1 (he ▸ t.ascending)).2.2 b hb _ List.mem_cons_self
    simpa using fun he : b.1 = key => String.lt_irrefl key (he ▸ hlt)
  rw [get?, hfind]
  rfl

/-- The values are what the finite map has for the keys, in their order. -/
theorem filterMap_lookup_keys (t : Table α) : t.keys.filterMap t.toFinmap.lookup = t.values := by
  rw [keys, values, List.filterMap_map, ← List.filterMap_eq_map]
  exact List.filterMap_congr fun e he => (lookup_toFinmap t e.1).trans (get?_of_mem he)

end Table

namespace Dicts

/-! ## Calls, and what a finite map answers -/

/-- What a dictionary holds, without regard to the order of its keys. -/
abbrev Contents := Finmap fun _ : String => Value

/-- A call on a dictionary. Its key is a value, or the text of one. -/
inductive Call (κ : Type) where
  | set (key : κ) (v : Value)
  | get (key : κ)
  | keys
  | values
  | length
deriving DecidableEq

/-- What is given for a call: a value, or a new list. -/
inductive Answer where
  | value (v : Value)
  | list (items : List Value)
deriving DecidableEq

namespace Call

variable {κ : Type}

/-- The call with its key as a text. -/
def withText (text : Value → String) : Call Value → Call String
  | .set key v => .set (text key) v
  | .get key => .get (text key)
  | .keys => .keys
  | .values => .values
  | .length => .length

/-- The function that is called. -/
def builtin : Call κ → Builtin
  | .set _ _ => .set
  | .get _ => .get
  | .keys => .keys
  | .values => .values
  | .length => .length

/-- The arguments of the call on a dictionary. -/
def arguments (d : DictRef) : Call Value → List Value
  | .set key v => [.dict d, key, v]
  | .get key => [.dict d, key]
  | .keys | .values | .length => [.dict d]

/-- What a finite map makes of a call. -/
def change (m : Contents) : Call String → Contents
  | .set key v => m.insert key v
  | .get _ | .keys | .values | .length => m

/-- What a finite map answers to a call: what something is put into, the value of a key or null, the keys once
each and ascending by code points, the values in the order of the keys, and how many keys there are. -/
def answer (d : DictRef) (m : Contents) : Call String → Answer
  | .set _ _ => .value (.dict d)
  | .get key => .value ((m.lookup key).getD .null)
  | .keys => .list (m.keys.sort.map .str)
  | .values => .list (m.keys.sort.filterMap m.lookup)
  | .length => .value (.int (Int64.ofNat m.keys.card))

end Call

/-- What a finite map answers to calls, one after the other. -/
def answers (d : DictRef) : Contents → List (Call String) → List Answer
  | _, [] => []
  | m, c :: cs => c.answer d m :: answers d (c.change m) cs

/-- What calls make of a finite map. -/
def changes (m : Contents) (cs : List (Call String)) : Contents :=
  cs.foldl (fun m c => c.change m) m

/-- The value that was last set under a text. -/
def lastSet (key : String) (cs : List (Call String)) : Option Value :=
  cs.reverse.findSome? fun
    | .set k v => if k = key then some v else none
    | _ => none

/-- A finite map keeps what was last set. -/
theorem lookup_changes (m : Contents) (cs : List (Call String)) (key : String) :
    (changes m cs).lookup key = (lastSet key cs).or (m.lookup key) := by
  induction cs generalizing m with
  | nil => rfl
  | cons c cs ih =>
    rw [lastSet, List.reverse_cons, List.findSome?_append, Option.or_assoc]
    refine (ih (c.change m)).trans (congrArg (Option.or (lastSet key cs)) ?_)
    cases c with
    | set k v =>
      rw [Call.change]
      by_cases hk : k = key
      · simp [hk, Finmap.lookup_insert]
      · simp [hk, Finmap.lookup_insert_of_ne _ (Ne.symm hk)]
    | _ => simp [Call.change]

/-! ## Sessions -/

/-- A step of a session: a call on the dictionary, or anything else. -/
inductive Step (σ : Type) where
  | call (c : Call Value)
  | other (r : Run σ Value)

/-- A call that was made: the heap before it, what came of it, and the heap after it. -/
structure Moment where
  call : Call Value
  before : Heap
  result : Except Fault Value
  after : Heap

namespace Moment

/-- The call, with the text that its key had at that moment. -/
def asked (μ : Moment) : Call String :=
  μ.call.withText μ.before.text

/-- The answer is what came of the call. A list was not there before. -/
def Gives (μ : Moment) : Answer → Prop
  | .value v => μ.result = .ok v
  | .list items => ∃ r, μ.result = .ok (.list r) ∧ ¬μ.before.Has (.list r) ∧ μ.after.Has (.list r) ∧
      μ.after.items r = items

end Moment

section

variable {σ : Type} (d : DictRef) (fuel : Nat) (call : Caller σ)

/-- What a step does. -/
def Step.run : Step σ → Run σ Value
  | .call c => c.builtin.run fuel call (c.arguments d)
  | .other r => r

/-- The world after a session. -/
def after (w : World σ) (steps : List (Step σ)) : World σ :=
  steps.foldl (fun w s => ((s.run d fuel call).run.run w).2) w

/-- The calls that a session makes on the dictionary. -/
def moments : World σ → List (Step σ) → List Moment
  | _, [] => []
  | w, s :: steps =>
    let (result, w') := (s.run d fuel call).run.run w
    match s with
    | .call c => ⟨c, w.heap, result, w'.heap⟩ :: moments w' steps
    | .other _ => moments w' steps

end

/-- Whatever it does, it leaves the entries of the dictionary as they are. -/
def Spares {σ : Type} (d : DictRef) (r : Run σ Value) : Prop :=
  ∀ w : World σ, w.heap.Has (.dict d) →
    (r.run.run w).2.heap.Has (.dict d) ∧ (r.run.run w).2.heap.entries d = w.heap.entries d

section

variable {σ : Type} {d : DictRef} (fuel : Nat) (call : Caller σ) {w : World σ}

/-- So does a call without functions among its arguments, if it puts nothing into the dictionary. -/
theorem spares_of_noFunction {b : Builtin} {args : List Value} (hargs : NoFunction args)
    (hset : b = .set → args.head? ≠ some (.dict d)) : Spares d (b.run fuel call args) := by
  intro w hd
  have hafter : b.entriesAfter w.heap args d = w.heap.entries d := by
    unfold Builtin.entriesAfter
    split
    · next s key v =>
      refine if_neg fun he => hset rfl ?_
      rw [List.head?_cons, he]
    · rfl
  have hends := Builtin.run_within_framed hargs b fuel call w.heap w rfl
  rcases hrun : (b.run fuel call args).run.run w with ⟨(_ | e) | v, w'⟩ <;> rw [hrun] at hends
  · exact hends.elim
  · have hheap : w'.heap = w.heap := hends
    rw [hheap]
    exact ⟨hd, rfl⟩
  · exact ⟨hends.has _ hd, (hends.entries d hd).trans hafter⟩

/-- A new list is given as what it is made of, and nothing else is changed. -/
theorem gives_made {c : Call Value} {f : Heap → Except CallError (Value × Heap)} {xs : List Value}
    {result : Except Fault Value} {w' : World σ} (hd : w.heap.Has (.dict d))
    (hf : f w.heap = .ok (Lists.made w.heap xs)) (hrun : (Run.changing f).run.run w = (result, w')) :
    Moment.Gives ⟨c, w.heap, result, w'.heap⟩ (.list xs) ∧ w'.heap.Has (.dict d) ∧
      w'.heap.entries d = w.heap.entries d := by
  rw [Run.run_changing, hf] at hrun
  cases hrun
  refine ⟨⟨_, rfl, Nat.lt_irrefl _, Heap.has_newList.2 (.inr rfl), ?_⟩, Heap.has_newList.2 (.inl hd), rfl⟩
  exact (Heap.items_newList ..).trans (if_pos rfl)

/-- A call is answered as by the finite map, and makes of the dictionary what it makes of the map. -/
theorem call_step (hd : w.heap.Has (.dict d)) (c : Call Value) {result : Except Fault Value} {w' : World σ}
    (hrun : (c.builtin.run fuel call (c.arguments d)).run.run w = (result, w')) :
    Moment.Gives ⟨c, w.heap, result, w'.heap⟩
        ((c.withText w.heap.text).answer d (w.heap.entries d).toFinmap) ∧
      w'.heap.Has (.dict d) ∧
        (w'.heap.entries d).toFinmap = (c.withText w.heap.text).change (w.heap.entries d).toFinmap := by
  cases c with
  | set key v =>
    cases (Run.run_changing _ w).symm.trans hrun
    refine ⟨rfl, Heap.has_setEntries.2 hd, ?_⟩
    show ((w.heap.setEntries d _).entries d).toFinmap = _
    rw [Heap.entries_setEntries hd, if_pos rfl]
    exact Table.toFinmap_insert ..
  | get key =>
    cases (Run.run_reading _ w).symm.trans hrun
    refine ⟨?_, hd, rfl⟩
    show _ = Except.ok (((w.heap.entries d).toFinmap.lookup (w.heap.text key)).getD .null)
    rw [Table.lookup_toFinmap]
    rfl
  | keys =>
    obtain ⟨hgives, hhas, hentries⟩ := gives_made hd rfl hrun
    refine ⟨?_, hhas, congrArg Table.toFinmap hentries⟩
    show Moment.Gives _ (.list ((w.heap.entries d).toFinmap.keys.sort.map .str))
    rw [Table.sort_keys_toFinmap]
    exact hgives
  | values =>
    obtain ⟨hgives, hhas, hentries⟩ := gives_made hd rfl hrun
    refine ⟨?_, hhas, congrArg Table.toFinmap hentries⟩
    show Moment.Gives _ (.list ((w.heap.entries d).toFinmap.keys.sort.filterMap _))
    rw [Table.sort_keys_toFinmap, Table.filterMap_lookup_keys]
    exact hgives
  | length =>
    cases (Run.run_reading _ w).symm.trans hrun
    refine ⟨?_, hd, rfl⟩
    show _ = Except.ok (Value.int (Int64.ofNat (w.heap.entries d).toFinmap.keys.card))
    rw [Table.card_keys_toFinmap]
    rfl

/-- A session is answered as by the finite map, which becomes what the dictionary does. -/
theorem session_run (hd : w.heap.Has (.dict d)) {steps : List (Step σ)}
    (hothers : ∀ r, .other r ∈ steps → Spares d r) :
    List.Forall₂ Moment.Gives (moments d fuel call w steps)
        (answers d (w.heap.entries d).toFinmap ((moments d fuel call w steps).map Moment.asked)) ∧
      ((after d fuel call w steps).heap.entries d).toFinmap =
        changes (w.heap.entries d).toFinmap ((moments d fuel call w steps).map Moment.asked) := by
  -- on the steps; the dictionary stays there, and the finite map goes along with its entries
  induction steps generalizing w with
  | nil => exact ⟨.nil, rfl⟩
  | cons s steps ih =>
    have hlater : ∀ r, .other r ∈ steps → Spares d r := fun r hr => hothers r (List.mem_cons_of_mem _ hr)
    cases s with
    | call c =>
      obtain ⟨hgives, hhas, hentries⟩ := call_step fuel call hd c rfl
      have hrest := ih hhas hlater
      rw [hentries] at hrest
      exact ⟨.cons hgives hrest.1, hrest.2⟩
    | other r =>
      obtain ⟨hhas, hentries⟩ := hothers r List.mem_cons_self w hd
      have hrest := ih hhas hlater
      rw [hentries] at hrest
      exact hrest

/-- As long as nothing else that is done in between changes its entries, the calls of a session on a dictionary
are answered as by the finite map that it is at first, where each key is the text that it has at the moment of
the call. After a session there is under each text the value that was last set under it, or the one that was
there before. -/
theorem session_answered (hd : w.heap.Has (.dict d)) {steps : List (Step σ)}
    (hothers : ∀ r, .other r ∈ steps → Spares d r) :
    List.Forall₂ Moment.Gives (moments d fuel call w steps)
        (answers d (w.heap.entries d).toFinmap ((moments d fuel call w steps).map Moment.asked)) ∧
      ∀ key, ((after d fuel call w steps).heap.entries d).get? key =
        (lastSet key ((moments d fuel call w steps).map Moment.asked)).or ((w.heap.entries d).get? key) := by
  obtain ⟨hgives, hafter⟩ := session_run fuel call hd hothers
  refine ⟨hgives, fun key => ?_⟩
  rw [← Table.lookup_toFinmap, ← Table.lookup_toFinmap, hafter, lookup_changes]

end

/-- Steps on a dictionary that is its own key and is put into itself, with a list as a key that holds the
dictionary later on. -/
def ownKey : List (Step Unit) :=
  [.call (.set (.dict ⟨0⟩) (.int 1)), .call (.get (.dict ⟨0⟩)), .call (.set (.str "me") (.dict ⟨0⟩)),
    .call (.set (.list ⟨0⟩) (.int 2)),
    .other (Builtin.push.run 0 (fun _ _ => throw .exhausted) [.list ⟨0⟩, .dict ⟨0⟩]), .call (.get (.list ⟨0⟩)),
    .call (.get (.str "[1]")), .call .keys, .call .values, .call .length]

/-- The calls among them, with the texts of their keys. -/
def ownTexts : List (Call String) :=
  [.set "\x7b\x7d" (.int 1), .get "\x7b\"\x7b\x7d\": 1\x7d", .set "me" (.dict ⟨0⟩), .set "[1]" (.int 2),
    .get "[1, \x7b\"[1]\": 2, \"me\": \x7b...\x7d, \"\x7b\x7d\": 1\x7d]", .get "[1]", .keys, .values, .length]

theorem session_answered_ownKey :
    Builtin.listAndDict.heap.Has (.dict ⟨0⟩) ∧ (∀ r, .other r ∈ ownKey → Spares ⟨0⟩ r) ∧
      (moments ⟨0⟩ 0 (fun _ _ => throw .exhausted) Builtin.listAndDict ownKey).map Moment.asked = ownTexts ∧
      List.Forall₂ Moment.Gives (moments ⟨0⟩ 0 (fun _ _ => throw .exhausted) Builtin.listAndDict ownKey)
        (answers ⟨0⟩ ∅ ownTexts) ∧
      ((after ⟨0⟩ 0 (fun _ _ => throw .exhausted) Builtin.listAndDict ownKey).heap.entries ⟨0⟩).get? "me" =
        some (.dict ⟨0⟩) := by
  have hd : Builtin.listAndDict.heap.Has (.dict ⟨0⟩) := by decide
  have hothers : ∀ r, .other r ∈ ownKey → Spares ⟨0⟩ r := by
    intro r hr
    obtain rfl : r = Builtin.push.run 0 (fun _ _ => throw .exhausted) [.list ⟨0⟩, .dict ⟨0⟩] := by
      simpa [ownKey] using hr
    exact spares_of_noFunction _ _ (by simp [NoFunction]) nofun
  have hasked : (moments ⟨0⟩ 0 (fun _ _ => throw .exhausted) Builtin.listAndDict ownKey).map Moment.asked =
      ownTexts := by decide +kernel
  obtain ⟨hgives, hafter⟩ := session_answered 0 (fun _ _ => throw .exhausted) hd hothers
  rw [hasked] at hgives
  refine ⟨hd, hothers, hasked, hgives, (hafter "me").trans ?_⟩
  rw [hasked]
  rfl

example : (moments ⟨0⟩ 0 (fun _ _ => throw .exhausted) Builtin.listAndDict ownKey).map (·.result) =
    [.ok (.dict ⟨0⟩), .ok .null, .ok (.dict ⟨0⟩), .ok (.dict ⟨0⟩), .ok .null, .ok (.int 2), .ok (.list ⟨1⟩),
      .ok (.list ⟨2⟩), .ok (.int 3)] := by decide +kernel

end Dicts

end PipeScript
