/-
What the functions that apply others to the items of a list do. They go through the items in one and the
same way: each item that the list has at the beginning is given to the function alone, in the world that the
call before left behind, until a call fails or an answer shows that the others are not needed. A function may
change the list, the context or the state of the host meanwhile. It is left open what calls do, so that all
this holds of every function.
-/
import PipeScript.Builtin.Call
import PipeScript.Proofs.Run

namespace PipeScript

variable {σ : Type} {call : Caller σ} {f : Callable}

namespace Iteration

/-! ## Going through the items -/

/-- An answer of the function to an item, and whether it was true when it was given. -/
structure Reply where
  item : Value
  answer : Value
  truth : Bool

/-- How going through items can end: with a fault, with the item to which the answer put an end to it, or
with none. -/
abbrev Ending := Except Fault (Option Value)

/-- The function is called with the items, one after the other, each time in the world that the call before
left behind. It is called with no more of them once it fails, or once the truth of an answer is such as to
stop. -/
inductive Consults (call : Caller σ) (f : Callable) (stop : Bool → Bool) :
    (items : List Value) → World σ → (called : List Value) → List Reply → Ending → World σ → Prop
  | all {w} : Consults call f stop [] w [] [] (.ok none) w
  | failed {v vs w e w'} : (call f [v]).run.run w = (.error e, w') →
      Consults call f stop (v :: vs) w [v] [] (.error e) w'
  | stopped {v vs w a w'} : (call f [v]).run.run w = (.ok a, w') → stop (w'.heap.truthy a) = true →
      Consults call f stop (v :: vs) w [v] [⟨v, a, w'.heap.truthy a⟩] (.ok (.some v)) w'
  | next {v vs w a w₁ called replies ending w'} : (call f [v]).run.run w = (.ok a, w₁) →
      stop (w₁.heap.truthy a) = false → Consults call f stop vs w₁ called replies ending w' →
      Consults call f stop (v :: vs) w (v :: called) (⟨v, a, w₁.heap.truthy a⟩ :: replies) ending w'

variable {stop : Bool → Bool} {items called : List Value} {replies : List Reply} {ending : Ending}
  {w w' : World σ}

/-- Whatever the function does, going through the items comes to an end. -/
theorem exists_consults (call : Caller σ) (f : Callable) (stop : Bool → Bool) (items : List Value) (w : World σ) :
    ∃ called replies ending w', Consults call f stop items w called replies ending w' := by
  induction items generalizing w with
  | nil => exact ⟨[], [], .ok none, w, .all⟩
  | cons v vs ih =>
    rcases hrun : (call f [v]).run.run w with ⟨e | a, w₁⟩
    · exact ⟨[v], [], .error e, w₁, .failed hrun⟩
    · cases hstop : stop (w₁.heap.truthy a) with
      | true => exact ⟨[v], _, .ok (.some v), w₁, .stopped hrun hstop⟩
      | false =>
        obtain ⟨called, replies, ending, w', hrest⟩ := ih w₁
        exact ⟨v :: called, _, ending, w', .next hrun hstop hrest⟩

namespace Consults

theorem called_prefix (h : Consults call f stop items w called replies ending w') : called <+: items := by
  induction h with
  | all => exact List.prefix_rfl
  | failed | stopped => exact ⟨_, rfl⟩
  | next _ _ _ ih => exact List.prefix_cons_inj _ |>.2 ih

theorem called_eq_items (h : Consults call f stop items w called replies ending w') (hend : ending = .ok none) :
    called = items := by
  induction h with
  | all => rfl
  | failed | stopped => cases hend
  | next _ _ _ ih => rw [ih hend]

/-- Unless one fails, all calls are answered. -/
theorem called_eq (h : Consults call f stop items w called replies ending w') {found : Option Value}
    (hend : ending = .ok found) : called = replies.map (·.item) := by
  induction h with
  | all | stopped => rfl
  | failed => cases hend
  | next _ _ _ ih => rw [ih hend, List.map_cons]

/-- A call that fails is the last one, and the others are answered. -/
theorem called_eq_append (h : Consults call f stop items w called replies ending w') {e : Fault}
    (hend : ending = .error e) : ∃ v, called = replies.map (·.item) ++ [v] := by
  induction h with
  | all | stopped => cases hend
  | @failed v => exact ⟨v, rfl⟩
  | next _ _ _ ih =>
    obtain ⟨u, rfl⟩ := ih hend
    exact ⟨u, rfl⟩

/-- An answer that stops is the last one. -/
theorem of_stop (h : Consults call f stop items w called replies ending w') {r : Reply} (hr : r ∈ replies)
    (hstop : stop r.truth = true) : ending = .ok (.some r.item) ∧ ∃ before, replies = before ++ [r] := by
  induction h with
  | all | failed => cases hr
  | stopped =>
    obtain rfl := List.mem_singleton.1 hr
    exact ⟨rfl, [], rfl⟩
  | next _ hgo _ ih =>
    rcases List.mem_cons.1 hr with rfl | hr
    · rw [hstop] at hgo
      cases hgo
    · obtain ⟨hend, before, rfl⟩ := ih hr
      exact ⟨hend, _ :: before, rfl⟩

/-- Where it ends with an item, the answer to that one stops. -/
theorem exists_stop (h : Consults call f stop items w called replies ending w') {v : Value}
    (hend : ending = .ok (.some v)) : ∃ r ∈ replies, r.item = v ∧ stop r.truth = true := by
  induction h with
  | all | failed => cases hend
  | stopped _ hstop =>
    obtain rfl := Option.some.inj (Except.ok.inj hend)
    exact ⟨_, List.mem_singleton_self _, rfl, hstop⟩
  | next _ _ _ ih =>
    obtain ⟨r, hr, hfound⟩ := ih hend
    exact ⟨r, List.mem_cons_of_mem _ hr, hfound⟩

end Consults

/-- Every call is noted in the world, with the function and its arguments. -/
def Notes (call : Caller σ) (notes : World σ → List (Callable × List Value)) : Prop :=
  ∀ f args w, notes ((call f args).run.run w).2 = notes w ++ [(f, args)]

theorem Notes.eq_append {notes : World σ → List (Callable × List Value)} (hnotes : Notes call notes) {args : List Value}
    {r : Except Fault Value} (hrun : (call f args).run.run w = (r, w')) : notes w' = notes w ++ [(f, args)] := by
  rw [← hnotes f args w, hrun]

/-- The calls that are noted are those that are spoken of here, and no others. -/
theorem Consults.notes_eq {notes : World σ → List (Callable × List Value)} (hnotes : Notes call notes)
    (h : Consults call f stop items w called replies ending w') :
    notes w' = notes w ++ called.map fun v => (f, [v]) := by
  induction h with
  | all => exact (List.append_nil _).symm
  | failed hrun | stopped hrun => exact hnotes.eq_append hrun
  | next hrun _ _ ih => rw [ih, hnotes.eq_append hrun, List.append_assoc, List.map_cons, List.singleton_append]

/-- A function that puts what it is called with at the end of the first list, and notes its calls. -/
def growing : Caller (List (Callable × List Value)) := fun f args => do
  let w ← get
  set { w with heap := w.heap.setItems ⟨0⟩ (w.heap.items ⟨0⟩ ++ args), host := w.host ++ [(f, args)] }
  return .null

theorem notes_growing : Notes growing (·.host) := fun _ _ _ => rfl

/-! ## Runs -/

namespace Consults

theorem run_test {v a : Value} {w w' : World σ} (hrun : (call f [v]).run.run w = (.ok a, w')) :
    (test call f v).run.run w = (.ok (w'.heap.truthy a), w') := by
  unfold test
  rw [Run.run_bind_of_ok hrun]
  rfl

theorem run_answers (h : Consults call f (fun _ => false) items w called replies ending w') :
    (answers call f items).run.run w = (ending.map fun _ => replies.map (·.answer), w') := by
  induction h with
  | all => rfl
  | failed hrun => exact Run.run_bind_of_error hrun _
  | stopped _ hstop => cases hstop
  | @next _ _ _ _ _ _ _ ending _ hrun _ _ ih =>
    unfold answers
    rw [Run.run_bind_of_ok hrun]
    cases ending with
    | ok _ =>
      rw [Run.run_bind_of_ok ih]
      rfl
    | error _ => exact Run.run_bind_of_error ih _

theorem run_accepted (h : Consults call f (fun _ => false) items w called replies ending w') :
    (accepted call f items).run.run w =
      (ending.map fun _ => (replies.filter (·.truth)).map (·.item), w') := by
  induction h with
  | all => rfl
  | failed hrun => exact Run.run_bind_of_error (Run.run_bind_of_error hrun _) _
  | stopped _ hstop => cases hstop
  | @next _ _ _ a w₁ _ _ ending _ hrun _ _ ih =>
    unfold accepted
    rw [Run.run_bind_of_ok (run_test hrun)]
    cases htruth : w₁.heap.truthy a with
    | false =>
      rw [List.filter_cons_of_neg (by simp)]
      exact ih
    | true =>
      rw [List.filter_cons_of_pos (by simp), if_pos rfl]
      cases ending with
      | ok _ =>
        rw [Run.run_bind_of_ok ih]
        rfl
      | error _ => exact Run.run_bind_of_error ih _

theorem run_firstWith {wanted : Bool} (h : Consults call f (· == wanted) items w called replies ending w') :
    (firstWith wanted call f items).run.run w = (ending.map id, w') := by
  induction h with
  | all => rfl
  | failed hrun => exact Run.run_bind_of_error (Run.run_bind_of_error hrun _) _
  | stopped hrun hstop =>
    unfold firstWith
    rw [Run.run_bind_of_ok (run_test hrun), if_pos (beq_iff_eq.1 hstop)]
    rfl
  | next hrun hgo _ ih =>
    unfold firstWith
    rw [Run.run_bind_of_ok (run_test hrun), if_neg (beq_eq_false_iff_ne.1 hgo)]
    exact ih

end Consults

/-- The arguments are a list and a function, and the items are those that the list has now. -/
theorem run_subject (r : ListRef) (f : Callable) (w : World σ) :
    (subject [.list r, .function f]).run.run w = (.ok (w.heap.items r, f), w) := rfl

/-- What is done with what the items came to. A fault is that of the whole. -/
def Ending.conclude (ending : Ending) (k : Option Value → Run σ Value) : Run σ Value :=
  match ending with
  | .ok found => k found
  | .error e => throw e

/-- So it goes on wherever something was made of what the items came to. -/
theorem Ending.run_bind {α : Type} {r : Run σ α} {g : Option Value → α} (hr : r.run.run w = (ending.map g, w'))
    (k : α → Run σ Value) : (r >>= k).run.run w = (ending.conclude fun found => k (g found)).run.run w' := by
  cases ending with
  | ok _ => exact Run.run_bind_of_ok hr k
  | error _ => exact Run.run_bind_of_error hr k

/-- What it takes to go through the items of a list in order. -/
structure InOrder (call : Caller σ) (f : Callable) (stop : Bool → Bool) (items : List Value) (w : World σ)
    (called : List Value) (replies : List Reply) (ending : Ending) (w' : World σ) : Prop where
  consults : Consults call f stop items w called replies ending w'
  /-- The items are called with from the first on, and each one once. -/
  called_prefix : called <+: items
  /-- None is left out unless there is a reason to end. -/
  called_all : ending = .ok none → called = items
  /-- Every call is answered, but one that fails. No call is made after that one. -/
  answered : ∀ found, ending = .ok found → called = replies.map (·.item)
  failed : ∀ e, ending = .error e → ∃ v, called = replies.map (·.item) ++ [v]
  /-- An answer that stops is the last one, and its item is what was looked for. -/
  stops : ∀ r ∈ replies, stop r.truth = true → ending = .ok (.some r.item) ∧ ∃ before, replies = before ++ [r]
  found : ∀ v, ending = .ok (.some v) → ∃ r ∈ replies, r.item = v ∧ stop r.truth = true
  /-- A function that notes its calls notes these, each with one argument, and no others. -/
  noted : ∀ notes, Notes call notes → notes w' = notes w ++ called.map fun v => (f, [v])

theorem Consults.inOrder (h : Consults call f stop items w called replies ending w') :
    InOrder call f stop items w called replies ending w' where
  consults := h
  called_prefix := h.called_prefix
  called_all := h.called_eq_items
  answered _ := h.called_eq
  failed _ := h.called_eq_append
  stops _ := h.of_stop
  found _ := h.exists_stop
  noted _ hnotes := h.notes_eq hnotes

theorem exists_inOrder (call : Caller σ) (f : Callable) (stop : Bool → Bool) (items : List Value) (w : World σ) :
    ∃ called replies ending w', InOrder call f stop items w called replies ending w' := by
  obtain ⟨called, replies, ending, w', h⟩ := exists_consults call f stop items w
  exact ⟨called, replies, ending, w', h.inOrder⟩

end Iteration

namespace Builtin

open Iteration

/-- Mapping, looping and filtering go through all items; looping comes to the same as mapping. Searching and
asking for some item go on until an answer is true, and asking for every item until one is not. -/
theorem run_onItems (fuel : Nat) (call : Caller σ) (f : Callable) (r : ListRef) (w : World σ) :
    (∃ called replies ending w',
      InOrder call f (fun _ => false) (w.heap.items r) w called replies ending w' ∧
      (map.run fuel call [.list r, .function f]).run.run w =
        (ending.conclude fun _ => Run.newList (replies.map (·.answer))).run.run w' ∧
      (forEach.run fuel call [.list r, .function f]).run.run w =
        (map.run fuel call [.list r, .function f]).run.run w ∧
      (filter.run fuel call [.list r, .function f]).run.run w =
        (ending.conclude fun _ => Run.newList ((replies.filter (·.truth)).map (·.item))).run.run w') ∧
    (∃ called replies ending w',
      InOrder call f (· == true) (w.heap.items r) w called replies ending w' ∧
      (find.run fuel call [.list r, .function f]).run.run w =
        (ending.conclude fun found => pure (found.getD .null)).run.run w' ∧
      (some.run fuel call [.list r, .function f]).run.run w =
        (ending.conclude fun found => pure (.bool found.isSome)).run.run w') ∧
    (∃ called replies ending w',
      InOrder call f (· == false) (w.heap.items r) w called replies ending w' ∧
      (every.run fuel call [.list r, .function f]).run.run w =
        (ending.conclude fun found => pure (.bool found.isNone)).run.run w') := by
  refine ⟨?_, ?_, ?_⟩
  · obtain ⟨called, replies, ending, w', h⟩ := exists_inOrder call f (fun _ => false) (w.heap.items r) w
    exact ⟨called, replies, ending, w', h,
      (Run.run_bind_of_ok (run_subject r f w) _).trans (Ending.run_bind h.consults.run_answers _), rfl,
      (Run.run_bind_of_ok (run_subject r f w) _).trans (Ending.run_bind h.consults.run_accepted _)⟩
  · obtain ⟨called, replies, ending, w', h⟩ := exists_inOrder call f (· == true) (w.heap.items r) w
    exact ⟨called, replies, ending, w', h,
      (Run.run_bind_of_ok (run_subject r f w) _).trans (Ending.run_bind h.consults.run_firstWith _),
      (Run.run_bind_of_ok (run_subject r f w) _).trans (Ending.run_bind h.consults.run_firstWith _)⟩
  · obtain ⟨called, replies, ending, w', h⟩ := exists_inOrder call f (· == false) (w.heap.items r) w
    exact ⟨called, replies, ending, w', h,
      (Run.run_bind_of_ok (run_subject r f w) _).trans (Ending.run_bind h.consults.run_firstWith _)⟩

/-- The list has grown to four items, but two calls are noted. -/
example (f : Callable) (context : Context) :
    let w : World (List (Callable × List Value)) := ⟨{ lists := #[[.int 1, .int 2]] }, context, []⟩
    let (_, w') := (map.run 0 growing [.list ⟨0⟩, .function f]).run.run w
    w'.heap.lists = #[[.int 1, .int 2, .int 1, .int 2], [.null, .null]] ∧
      w'.host = w.host ++ [(f, [.int 1]), (f, [.int 2])] := by
  intro w
  have hcalls : Consults growing f (fun _ => false) (w.heap.items ⟨0⟩) w _ _ (.ok none) _ :=
    .next rfl rfl (.next rfl rfl .all)
  exact ⟨rfl, hcalls.inOrder.noted (·.host) notes_growing⟩

end Builtin

end PipeScript
