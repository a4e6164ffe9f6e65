/-
Runs that do not tell containers apart by which they are. Begun in two worlds that are the same but for the
containers, such runs do the same in both: they fail in the same way, or give values that are again the same
but for the containers, and what they write, read and draw is the same. Moreover, in the first world they
touch only containers that stand for one of the second, and new ones. All functions of the language are of
this kind if the way functions are called is, and so are all calls if the functions of the host are.
-/
import PipeScript.Proofs.Builtin.Alike

namespace PipeScript

open List (Forall₂)

variable {σ α β γ δ : Type}

/-- How what a host keeps for its functions takes part in renaming: which values it holds, and when two
states of it are the same but for the containers. -/
structure Memory (σ : Type) where
  holds : σ → Value → Prop
  alike : Renaming → σ → σ → Prop
  mono : ∀ {ρ ρ' : Renaming} {s s' : σ}, ρ ≤ ρ' → alike ρ s s' → alike ρ' s s'
  refl : ∀ {ρ : Renaming} {s : σ}, (∀ v, holds s v → ρ.Like v v) → alike ρ s s

namespace World

/-- The worlds are the same but for the containers. -/
structure Alike (M : Memory σ) (ρ : Renaming) (w w' : World σ) : Prop where
  heap : Heap.Alike ρ w.heap w'.heap
  context : w.context = w'.context
  host : M.alike ρ w.host w'.host

/-- Two worlds that are alike become two that are alike. -/
structure Moves (M : Memory σ) (ρ : Renaming) (w w' : World σ) (ρ₁ : Renaming) (w₁ w₁' : World σ) : Prop where
  heap : Heap.Moves ρ w.heap w'.heap ρ₁ w₁.heap w₁'.heap
  context : w₁.context = w₁'.context
  host : M.alike ρ₁ w₁.host w₁'.host

variable {M : Memory σ} {ρ ρ₁ ρ₂ : Renaming} {w w' w₁ w₁' w₂ w₂' : World σ}

theorem Alike.moves_refl (hw : Alike M ρ w w') : Moves M ρ w w' ρ w w' :=
  ⟨hw.heap.moves_refl, hw.context, hw.host⟩

/-- Changes of the heaps that leave these alike leave the worlds alike. -/
theorem Alike.moves_heap (hw : Alike M ρ w w') {h h' : Heap} (hh : Heap.Moves ρ w.heap w'.heap ρ₁ h h') :
    Moves M ρ w w' ρ₁ { w with heap := h } { w' with heap := h' } :=
  ⟨hh, hw.context, M.mono hh.le hw.host⟩

theorem Moves.alike (hm : Moves M ρ w w' ρ₁ w₁ w₁') : Alike M ρ₁ w₁ w₁' :=
  ⟨hm.heap.alike, hm.context, hm.host⟩

theorem Moves.trans (hm : Moves M ρ w w' ρ₁ w₁ w₁') (hm' : Moves M ρ₁ w₁ w₁' ρ₂ w₂ w₂') :
    Moves M ρ w w' ρ₂ w₂ w₂' :=
  ⟨hm.heap.trans hm'.heap, hm'.context, hm'.host⟩

end World

namespace Run

/-- In worlds that are alike both runs do the same, and what they give is related. -/
def Blind (M : Memory σ) (ρ : Renaming) (Q : Renaming → α → β → Prop) (r : Run σ α) (r' : Run σ β) : Prop :=
  ∀ w w', World.Alike M ρ w w' → ∃ ρ₁, World.Moves M ρ w w' ρ₁ (r.run.run w).2 (r'.run.run w').2 ∧
    Agree (Q ρ₁) (r.run.run w).1 (r'.run.run w').1

variable {M : Memory σ} {ρ : Renaming} {P : Renaming → α → β → Prop} {Q : Renaming → γ → δ → Prop}

theorem Blind.pure {a : α} {b : β} (hab : P ρ a b) : Blind M ρ P (Pure.pure a : Run σ α) (Pure.pure b) :=
  fun _ _ hw => ⟨ρ, hw.moves_refl, .ok hab⟩

theorem Blind.throw (e : Fault) : Blind M ρ P (MonadExcept.throw e : Run σ α) (MonadExcept.throw e) :=
  fun _ _ hw => ⟨ρ, hw.moves_refl, .error e⟩

theorem Blind.fail (e : CallError) : Blind M ρ P (Run.fail e : Run σ α) (Run.fail e) := .throw _

theorem Blind.bind {r : Run σ α} {r' : Run σ β} {f : α → Run σ γ} {f' : β → Run σ δ} (hr : Blind M ρ P r r')
    (hf : ∀ ρ₁, ρ ≤ ρ₁ → ∀ a b, P ρ₁ a b → Blind M ρ₁ Q (f a) (f' b)) : Blind M ρ Q (r >>= f) (r' >>= f') := by
  intro w w' hw
  obtain ⟨ρ₁, hmoves, hagree⟩ := hr w w' hw
  rw [ExceptT.run_bind, StateT.run_bind, ExceptT.run_bind, StateT.run_bind]
  rcases hrun : r.run.run w with ⟨x, w₁⟩
  rcases hrun' : r'.run.run w' with ⟨x', w₁'⟩
  rw [hrun, hrun'] at hmoves hagree
  cases hagree with
  | error e => exact ⟨ρ₁, hmoves, .error e⟩
  | @ok a b hab =>
    obtain ⟨ρ₂, hmoves', hagree'⟩ := hf ρ₁ hmoves.heap.le a b hab w₁ w₁' hmoves.alike
    exact ⟨ρ₂, hmoves.trans hmoves', hagree'⟩

theorem Blind.ofExcept {e : Except CallError α} {e' : Except CallError β} (he : Agree (P ρ) e e') :
    Blind M ρ P (Run.ofExcept e : Run σ α) (Run.ofExcept e') := by
  cases he with
  | ok hab => exact .pure hab
  | error e => exact .fail e

/-- What is taken apart first may be used at once. -/
theorem Blind.ofExcept_bind {R : α → β → Prop} {e : Except CallError α} {e' : Except CallError β} {f : α → Run σ γ}
    {f' : β → Run σ δ} (he : Agree R e e') (hf : ∀ a b, R a b → Blind M ρ Q (f a) (f' b)) :
    Blind M ρ Q (Run.ofExcept e >>= f) (Run.ofExcept e' >>= f') := by
  cases he with
  | ok hab => exact hf _ _ hab
  | error e => exact .fail e

/-- What is found in heaps that are alike may be used at once. -/
theorem Blind.heap_bind {f : Heap → Run σ γ} {f' : Heap → Run σ δ}
    (hf : ∀ h h', Heap.Alike ρ h h' → Blind M ρ Q (f h) (f' h')) : Blind M ρ Q (Run.heap >>= f) (Run.heap >>= f') :=
  fun w w' hw => hf w.heap w'.heap hw.heap w w' hw

theorem Blind.reading {f : Heap → Except CallError α} {f' : Heap → Except CallError β}
    (hf : ∀ h h', Heap.Alike ρ h h' → Agree (P ρ) (f h) (f' h')) :
    Blind M ρ P (Run.reading f : Run σ α) (Run.reading f') :=
  .heap_bind fun h h' hh => .ofExcept (hf h h' hh)

theorem Blind.changing {f f' : Heap → Except CallError (Value × Heap)}
    (hf : ∀ h h', Heap.Alike ρ h h' → Agree (Heap.Moved ρ h h') (f h) (f' h')) :
    Blind M ρ Renaming.Like (Run.changing f : Run σ Value) (Run.changing f') := by
  intro w w' hw
  have hagree := hf w.heap w'.heap hw.heap
  rw [run_changing, run_changing]
  generalize f w.heap = e, f' w'.heap = e' at hagree
  cases hagree with
  | error e => exact ⟨ρ, hw.moves_refl, .error _⟩
  | ok hmoved =>
    obtain ⟨ρ₁, hmoves, hlike⟩ := hmoved
    exact ⟨ρ₁, hw.moves_heap hmoves, .ok hlike⟩

theorem Blind.newList {vs ws : List Value} (hvs : Forall₂ ρ.Like vs ws) :
    Blind M ρ Renaming.Like (Run.newList vs : Run σ Value) (Run.newList ws) :=
  .changing fun _ _ hh => .ok (hh.moved_made hvs)

/-- What is done outside is the same in both worlds. -/
theorem Blind.outside {r : Run σ α} (hr : ∀ c : Context, ∃ result c',
    ∀ w : World σ, w.context = c → r.run.run w = (result, { w with context := c' })) :
    Blind M ρ (fun _ a b => a = b) r r := by
  intro w w' hw
  obtain ⟨result, c', hrun⟩ := hr w.context
  rw [hrun w rfl, hrun w' hw.context.symm]
  exact ⟨ρ, ⟨hw.heap.moves_refl, rfl, hw.host⟩, .of_eq rfl⟩

theorem write_blind (text : String) :
    Blind M ρ (fun _ a b => a = b) (Run.write text : Run σ Unit) (Run.write text) := by
  refine .outside fun c => ?_
  cases hwrite : c.output.write (Text.utf8 text) with
  | ok output =>
    refine ⟨.ok (), { c with output }, fun w hw => ?_⟩
    rw [run_write, hw, hwrite]
  | error e =>
    refine ⟨.error (.failed (.io e)), c, fun w hw => ?_⟩
    rw [run_write, hw, hwrite, ← hw]

theorem flush_blind : Blind M ρ (fun _ a b => a = b) (Run.flush : Run σ Unit) Run.flush := by
  refine .outside fun c => ?_
  cases hflush : c.output.flush with
  | ok _ =>
    refine ⟨.ok (), c, fun w hw => ?_⟩
    rw [run_flush, hw, hflush, ← hw]
  | error e =>
    refine ⟨.error (.failed (.io e)), c, fun w hw => ?_⟩
    rw [run_flush, hw, hflush, ← hw]

theorem readLine_blind : Blind M ρ (fun _ a b => a = b) (Run.readLine : Run σ (Option String)) Run.readLine := by
  refine .outside fun c => ?_
  rcases hread : c.input.readLine with ⟨e | line, input⟩
  · refine ⟨.error (.failed (.io e)), { c with input }, fun w hw => ?_⟩
    rw [run_readLine, hw, hread]
  · refine ⟨.ok line, { c with input }, fun w hw => ?_⟩
    rw [run_readLine, hw, hread]

theorem draw_blind : Blind M ρ (fun _ a b => a = b) (Run.draw : Run σ Float) Run.draw :=
  .outside fun c => ⟨.ok c.draws.next, { c with draws := c.draws.advance }, fun _ hw => hw ▸ rfl⟩

theorem now_blind : Blind M ρ (fun _ a b => a = b) (Run.now : Run σ Int64) Run.now :=
  .outside fun c => ⟨.ok c.clock.next, { c with clock := c.clock.advance }, fun _ hw => hw ▸ rfl⟩

end Run

open Arguments Run

variable {M : Memory σ} {ρ : Renaming} {args args' : List Value}

/-! ## The outside -/

theorem Console.print_blind (hargs : Forall₂ ρ.Like args args') :
    Blind M ρ Renaming.Like (Console.print args : Run σ Value) (Console.print args') := by
  refine .heap_bind fun h h' hh => ?_
  rw [Heap.map_eq_of_forall₂ hargs fun _ _ => hh.text_eq]
  exact (write_blind _).bind fun _ _ _ _ _ => .pure .null

theorem Console.answer_blind {f : Option String → Run σ Value} (hnone : f none = pure .null)
    (hsome : ∀ line, f (some line) = pure (.str line)) :
    Blind M ρ Renaming.Like (readLine >>= f) (readLine >>= f) := by
  refine readLine_blind.bind fun _ _ line _ he => ?_
  cases he
  cases line with
  | none =>
    rw [hnone]
    exact .pure .null
  | some line =>
    rw [hsome]
    exact .pure (.str line)

theorem Console.input_blind (hargs : Forall₂ ρ.Like args args') :
    Blind M ρ Renaming.Like (Console.input args : Run σ Value) (Console.input args') := by
  refine .ofExcept_bind (atMostOne_agree hargs) fun prompt prompt' hprompt => ?_
  cases hprompt with
  | none => exact answer_blind rfl fun _ => rfl
  | some hprompt =>
    refine .heap_bind fun h h' hh => ?_
    rw [hh.text_eq hprompt]
    refine (write_blind _).bind fun _ _ _ _ _ => ?_
    exact flush_blind.bind fun _ _ _ _ _ => answer_blind rfl fun _ => rfl

theorem Console.time_blind (args args' : List Value) :
    Blind M ρ Renaming.Like (Console.time args : Run σ Value) (Console.time args') :=
  now_blind.bind fun _ _ n _ he => he ▸ .pure (.int n)

theorem Console.random_blind (hargs : Forall₂ ρ.Like args args') :
    Blind M ρ Renaming.Like (Console.random args : Run σ Value) (Console.random args') := by
  refine draw_blind.bind fun ρ₁ hle r _ he => ?_
  cases he
  rcases Renaming.likes_mono hle hargs with _ | ⟨hlow, _ | ⟨hhigh, _ | ⟨_, _⟩⟩⟩
  · exact .pure (.float _)
  · exact .pure (.float _)
  · refine .ofExcept_bind (.of_eq (number_eq hlow)) fun low _ hlow => ?_
    cases hlow
    refine .ofExcept_bind (.of_eq (number_eq hhigh)) fun high _ hhigh => ?_
    cases hhigh
    exact .pure (.float _)
  · exact .pure (.float _)

/-! ## Functions that call functions -/

/-- Calls of a function with arguments that are alike do the same in worlds that are alike. -/
def Caller.Blind (M : Memory σ) (call : Caller σ) : Prop :=
  ∀ ρ f args args', Forall₂ ρ.Like args args' → Run.Blind M ρ Renaming.Like (call f args) (call f args')

namespace Iteration

variable {call : Caller σ} {vs ws : List Value}

/-- What comes after a list and a function are taken is done with these. -/
theorem subject_blind {Q : Renaming → γ → δ → Prop} {k : List Value × Callable → Run σ γ}
    {k' : List Value × Callable → Run σ δ} (hargs : Forall₂ ρ.Like args args')
    (hk : ∀ ρ₁ items items' f, Forall₂ ρ₁.Like items items' → Blind M ρ₁ Q (k (items, f)) (k' (items', f))) :
    Blind M ρ Q (subject args >>= k) (subject args' >>= k') := by
  have hsubject : Blind M ρ (fun ρ p q => Forall₂ ρ.Like p.1 q.1 ∧ p.2 = q.2)
      (subject args : Run σ (List Value × Callable)) (subject args') := by
    refine .reading fun h h' hh => (two_agree hargs).bind fun ⟨items, f⟩ ⟨items', f'⟩ ⟨hitems, hf⟩ => ?_
    dsimp only
    rw [function_eq hf]
    exact .after _ fun f => (list_agree hitems).bind fun r s hrs => .ok ⟨hh.items hrs, rfl⟩
  refine hsubject.bind fun ρ₁ _ ⟨items, f⟩ ⟨items', f'⟩ ⟨hitems, hf⟩ => ?_
  cases hf
  exact hk ρ₁ items items' f hitems

theorem test_blind (hcall : call.Blind M) (f : Callable) {v w : Value} (hv : ρ.Like v w) :
    Blind M ρ (fun _ a b => a = b) (test call f v) (test call f w) :=
  (hcall ρ f _ _ (.cons hv .nil)).bind fun _ _ _ _ hanswer => .heap_bind fun _ _ hh => .pure (hh.truthy_eq hanswer)

theorem answers_blind (hcall : call.Blind M) (f : Callable) (hvs : Forall₂ ρ.Like vs ws) :
    Blind M ρ (fun ρ => Forall₂ ρ.Like) (answers call f vs) (answers call f ws) := by
  induction vs generalizing ρ ws with
  | nil =>
    cases hvs
    exact .pure .nil
  | cons v vs ih =>
    obtain _ | ⟨hv, hvs⟩ := hvs
    refine (hcall ρ f _ _ (.cons hv .nil)).bind fun ρ₁ hle answer answer' hanswer => ?_
    refine (ih (Renaming.likes_mono hle hvs)).bind fun ρ₂ hle' rest rest' hrest => ?_
    exact .pure (.cons (hanswer.mono hle') hrest)

theorem accepted_blind (hcall : call.Blind M) (f : Callable) (hvs : Forall₂ ρ.Like vs ws) :
    Blind M ρ (fun ρ => Forall₂ ρ.Like) (accepted call f vs) (accepted call f ws) := by
  induction vs generalizing ρ ws with
  | nil =>
    cases hvs
    exact .pure .nil
  | cons v vs ih =>
    obtain _ | ⟨hv, hvs⟩ := hvs
    refine (test_blind hcall f hv).bind fun ρ₁ hle answer _ he => ?_
    cases he
    have hrest := ih (Renaming.likes_mono hle hvs)
    cases answer with
    | false => exact hrest
    | true => exact hrest.bind fun ρ₂ hle' rest rest' hrest => .pure (.cons (hv.mono (hle.trans hle')) hrest)

theorem firstWith_blind (hcall : call.Blind M) (wanted : Bool) (f : Callable) (hvs : Forall₂ ρ.Like vs ws) :
    Blind M ρ (fun ρ => Option.Rel ρ.Like) (firstWith wanted call f vs) (firstWith wanted call f ws) := by
  induction vs generalizing ρ ws with
  | nil =>
    cases hvs
    exact .pure .none
  | cons v vs ih =>
    obtain _ | ⟨hv, hvs⟩ := hvs
    refine (test_blind hcall f hv).bind fun ρ₁ hle answer _ he => ?_
    cases he
    split
    · exact .pure (.some (hv.mono hle))
    · exact ih (Renaming.likes_mono hle hvs)

theorem map_blind (hcall : call.Blind M) (hargs : Forall₂ ρ.Like args args') :
    Blind M ρ Renaming.Like (map call args) (map call args') :=
  subject_blind hargs fun _ _ _ f hitems =>
    (answers_blind hcall f hitems).bind fun _ _ _ _ hanswers => .newList hanswers

theorem filter_blind (hcall : call.Blind M) (hargs : Forall₂ ρ.Like args args') :
    Blind M ρ Renaming.Like (filter call args) (filter call args') :=
  subject_blind hargs fun _ _ _ f hitems =>
    (accepted_blind hcall f hitems).bind fun _ _ _ _ haccepted => .newList haccepted

theorem find_blind (hcall : call.Blind M) (hargs : Forall₂ ρ.Like args args') :
    Blind M ρ Renaming.Like (find call args) (find call args') :=
  subject_blind hargs fun _ _ _ f hitems =>
    (firstWith_blind hcall true f hitems).bind fun _ _ _ _ hfirst => .pure (Renaming.getD_like hfirst)

theorem some_blind (hcall : call.Blind M) (hargs : Forall₂ ρ.Like args args') :
    Blind M ρ Renaming.Like (Iteration.some call args) (Iteration.some call args') := by
  refine subject_blind hargs fun _ _ _ f hitems => ?_
  refine (firstWith_blind hcall true f hitems).bind fun _ _ _ _ hfirst => .pure ?_
  cases hfirst <;> exact .bool _

theorem every_blind (hcall : call.Blind M) (hargs : Forall₂ ρ.Like args args') :
    Blind M ρ Renaming.Like (every call args) (every call args') := by
  refine subject_blind hargs fun _ _ _ f hitems => ?_
  refine (firstWith_blind hcall false f hitems).bind fun _ _ _ _ hfirst => .pure ?_
  cases hfirst <;> exact .bool _

end Iteration

namespace Branching

variable {call : Caller σ} {v w : Value}

theorem force_blind (hcall : call.Blind M) (hv : ρ.Like v w) :
    Blind M ρ Renaming.Like (force call v) (force call w) := by
  cases hv with
  | function f => exact hcall ρ f _ _ .nil
  | list hrs => exact .pure (.list hrs)
  | dict hrs => exact .pure (.dict hrs)
  | _ => exact .pure (by constructor)

theorem ifElse_blind (hcall : call.Blind M) (hargs : Forall₂ ρ.Like args args') :
    Blind M ρ Renaming.Like (ifElse call args) (ifElse call args') := by
  refine .ofExcept_bind (twoOrThree_agree hargs) fun ⟨condition, yes, no⟩ ⟨condition', yes', no'⟩ h => ?_
  obtain ⟨hcondition, hyes, hno⟩ := h
  refine .heap_bind fun h h' hh => ?_
  rw [hh.truthy_eq hcondition]
  split
  · exact force_blind hcall hyes
  · exact force_blind hcall hno

theorem range_like {h h' : Heap} (hh : Heap.Alike ρ h h') (hv : ρ.Like v w) :
    Forall₂ ρ.Like (range h v) (range h' w) := by
  cases hv with
  | list hrs => exact hh.items hrs
  | dict hrs => exact .cons (.dict hrs) .nil
  | _ => exact .cons (by constructor) .nil

theorem forEach_blind (hcall : call.Blind M) (hargs : Forall₂ ρ.Like args args') :
    Blind M ρ Renaming.Like (forEach call args) (forEach call args') := by
  refine .ofExcept_bind (two_agree hargs) fun ⟨subject, body⟩ ⟨subject', body'⟩ ⟨hsubject, hbody⟩ => ?_
  refine .heap_bind fun h h' hh => ?_
  have hitems := range_like hh hsubject
  have hnulls : Forall₂ ρ.Like ((range h subject).map fun _ => Value.null) ((range h' subject').map fun _ => .null) :=
    List.forall₂_map_left_iff.2 (List.forall₂_map_right_iff.2 (hitems.imp fun _ _ _ => .null))
  cases hbody with
  | function f => exact (Iteration.answers_blind hcall f hitems).bind fun ρ₂ _ _ _ hanswers => .newList hanswers
  | _ => exact .newList hnulls

theorem round_blind (hcall : call.Blind M) (hv : ρ.Like v w) :
    Blind M ρ Renaming.Like (round call v) (round call w) := by
  cases hv with
  | function f => exact hcall ρ f _ _ .nil
  | _ => exact .pure .null

theorem rounds_blind (hcall : call.Blind M) (condition : Callable) {body body' : Value} (fuel : Nat)
    (hbody : ρ.Like body body') (hv : ρ.Like v w) :
    Blind M ρ Renaming.Like (rounds call condition body fuel v) (rounds call condition body' fuel w) := by
  induction fuel generalizing ρ v w with
  | zero => exact .throw _
  | succ fuel ih =>
    refine (hcall ρ condition _ _ .nil).bind fun ρ₁ hle answer answer' hanswer => .heap_bind fun h h' hh => ?_
    rw [hh.truthy_eq hanswer]
    split
    · refine (round_blind hcall (hbody.mono hle)).bind fun ρ₂ hle' last last' hlast => ?_
      exact ih (hbody.mono (hle.trans hle')) hlast
    · exact .pure (hv.mono hle)

theorem whileTrue_blind (hcall : call.Blind M) (fuel : Nat) (hargs : Forall₂ ρ.Like args args') :
    Blind M ρ Renaming.Like (whileTrue fuel call args) (whileTrue fuel call args') := by
  refine .ofExcept_bind (two_agree hargs) fun ⟨condition, body⟩ ⟨condition', body'⟩ ⟨hcondition, hbody⟩ => ?_
  have hfixed : Blind M ρ Renaming.Like
      (do if (← Run.heap).truthy condition then Run.fail (.value .endless) else return .null : Run σ Value)
      (do if (← Run.heap).truthy condition' then Run.fail (.value .endless) else return .null) := by
    refine .heap_bind fun h h' hh => ?_
    rw [hh.truthy_eq hcondition]
    split
    · exact .fail _
    · exact .pure .null
  cases hcondition with
  | function f => exact rounds_blind hcall f fuel hbody .null
  | _ => exact hfixed

end Branching

/-! ## All functions -/

theorem Builtin.run_blind {call : Caller σ} (hcall : call.Blind M) (b : Builtin) (fuel : Nat)
    (hargs : Forall₂ ρ.Like args args') :
    Blind M ρ Renaming.Like (b.run fuel call args) (b.run fuel call args') := by
  cases b with
  | print | log => exact Console.print_blind hargs
  | input => exact Console.input_blind hargs
  | time => exact Console.time_blind args args'
  | random => exact Console.random_blind hargs
  | add => exact .ofExcept (Arithmetic.add_agree hargs)
  | sub => exact .ofExcept (Arithmetic.sub_agree hargs)
  | mul => exact .ofExcept (Arithmetic.mul_agree hargs)
  | div => exact .ofExcept (Arithmetic.div_agree hargs)
  | mod => exact .ofExcept (Arithmetic.mod_agree hargs)
  | abs => exact .ofExcept (Arithmetic.abs_agree hargs)
  | sqrt => exact .ofExcept (Arithmetic.sqrt_agree hargs)
  | pow => exact .ofExcept (Arithmetic.pow_agree hargs)
  | round | floor | ceil => exact .ofExcept (Arithmetic.rounded_agree _ hargs)
  | max | min => exact .reading fun _ _ hh => Comparison.extreme_agree hh hargs _
  | eq => exact .reading fun _ _ hh => Comparison.eq_agree hh hargs
  | ne => exact .reading fun _ _ hh => Comparison.ne_agree hh hargs
  | gt | lt | gte | lte => exact .reading fun _ _ hh => Comparison.ordered_agree hh hargs _
  | concat => exact .reading fun _ _ hh => Words.concat_agree hh hargs
  | uppercase => exact .reading fun _ _ hh => Words.uppercase_agree hh hargs
  | lowercase => exact .reading fun _ _ hh => Words.lowercase_agree hh hargs
  | split => exact .changing fun _ _ hh => Lists.split_agree hh hargs
  | join => exact .reading fun _ _ hh => Words.join_agree hh hargs
  | length => exact .reading fun _ _ hh => Words.length_agree hh hargs
  | substring => exact .reading fun _ _ hh => Words.substring_agree hh hargs
  | trim => exact .reading fun _ _ hh => Words.trim_agree hh hargs
  | replace => exact .reading fun _ _ hh => Words.replace_agree hh hargs
  | push => exact .changing fun _ _ hh => Lists.push_agree hh hargs
  | pop => exact .changing fun _ _ hh => Lists.pop_agree hh hargs
  | shift => exact .changing fun _ _ hh => Lists.shift_agree hh hargs
  | unshift => exact .changing fun _ _ hh => Lists.unshift_agree hh hargs
  | slice => exact .changing fun _ _ hh => Lists.slice_agree hh hargs
  | reverse => exact .changing fun _ _ hh => Lists.reverse_agree hh hargs
  | sort => exact .changing fun _ _ hh => Lists.sort_agree hh hargs
  | map => exact Iteration.map_blind hcall hargs
  | filter => exact Iteration.filter_blind hcall hargs
  | find => exact Iteration.find_blind hcall hargs
  | some => exact Iteration.some_blind hcall hargs
  | every => exact Iteration.every_blind hcall hargs
  | keys => exact .changing fun _ _ hh => Dicts.keys_agree hh hargs
  | values => exact .changing fun _ _ hh => Dicts.values_agree hh hargs
  | get => exact .reading fun _ _ hh => Dicts.get_agree hh hargs
  | set => exact .changing fun _ _ hh => Dicts.set_agree hh hargs
  | typeof => exact .ofExcept (Kinds.typeof_agree hargs)
  | tostring => exact .reading fun _ _ hh => Kinds.tostring_agree hh hargs
  | tonumber => exact .ofExcept (Kinds.tonumber_agree hargs)
  | tobool => exact .reading fun _ _ hh => Kinds.tobool_agree hh hargs
  | isnull => exact .ofExcept (Kinds.isnull_agree hargs)
  | and => exact .reading fun _ _ hh => Kinds.and_agree hh hargs
  | or => exact .reading fun _ _ hh => Kinds.or_agree hh hargs
  | not => exact .reading fun _ _ hh => Kinds.not_agree hh hargs
  | ifElse => exact Branching.ifElse_blind hcall hargs
  | forEach => exact Branching.forEach_blind hcall hargs
  | whileTrue => exact Branching.whileTrue_blind hcall fuel hargs

/-- The functions of a host do not tell containers apart by which they are, and touch none but those that they
are given, hold or make, as long as the functions that they call do not. -/
def Host.Blind (M : Memory σ) (host : Host σ) : Prop :=
  ∀ id call, Caller.Blind M call → ∀ ρ args args', Forall₂ ρ.Like args args' →
    Run.Blind M ρ Renaming.Like (host id call args) (host id call args')

/-- No call tells containers apart by which they are. -/
theorem Host.call_blind {host : Host σ} (hhost : host.Blind M) (fuel : Nat) : Caller.Blind M (host.call fuel) := by
  induction fuel with
  | zero => exact fun ρ f args args' hargs => .throw _
  | succ fuel ih =>
    rintro ρ ⟨name, b | id⟩ args args' hargs
    · exact b.run_blind ih fuel hargs
    · exact hhost id _ ih ρ args args' hargs

end PipeScript
