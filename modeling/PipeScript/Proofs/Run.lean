/-
What comes of running, one part at a time. A result is described by what holds of it if it is no failure.
A run is described by what holds of its value and of the heap that it leaves behind, where a run that fails
leaves the heap as it is. Both descriptions are put together from those of the parts.
-/
import PipeScript.Run

namespace PipeScript

variable {σ α β : Type}

/-! ## Results -/

/-- What comes of it, if it is no failure, is as described. -/
def Yields (P : α → Prop) (e : Except CallError α) : Prop :=
  ∀ a, e = .ok a → P a

namespace Yields

variable {P Q : α → Prop} {R : β → Prop} {e : Except CallError α} {f : α → Except CallError β}

theorem ok {a : α} (ha : P a) : Yields P (.ok a) := by
  rintro _ ⟨⟩
  exact ha

theorem error (e : CallError) : Yields P (.error e) := nofun

theorem imp (h : ∀ a, P a → Q a) (he : Yields P e) : Yields Q e := fun a ha => h a (he a ha)

theorem bind (he : Yields P e) (hf : ∀ a, P a → Yields R (f a)) : Yields R (e >>= f) := by
  intro b hb
  rcases e with _ | a
  · cases hb
  · exact hf a (he a rfl) b hb

/-- Where the second part is as described whatever the first one gives, the whole is. -/
theorem after (hf : ∀ a, Yields R (f a)) : Yields R (e >>= f) :=
  .bind (P := fun _ => True) (fun _ _ => trivial) fun a _ => hf a

theorem ite {c : Prop} [Decidable c] {e e' : Except CallError α} (he : Yields P e) (he' : Yields P e') :
    Yields P (if c then e else e') := by
  split
  · exact he
  · exact he'

theorem foldlM {f : β → α → Except CallError β} {b : β} {as : List α} (hb : R b)
    (hf : ∀ b, ∀ a ∈ as, R b → Yields R (f b a)) : Yields R (as.foldlM f b) := by
  induction as generalizing b with
  | nil => exact .ok hb
  | cons a as ih =>
    rw [List.foldlM_cons]
    refine .bind (hf b a List.mem_cons_self hb) fun b' hb' => ih hb' fun b a ha => ?_
    exact hf b a (List.mem_cons_of_mem _ ha)

end Yields

/-! ## Runs -/

namespace Run

/-- What comes of the arguments alone leaves the world as it is. -/
theorem run_ofExcept (e : Except CallError α) (w : World σ) :
    (ofExcept e : Run σ α).run.run w = (e.mapError .failed, w) := by
  cases e <;> rfl

theorem run_ofExcept_eq_ok_iff {e : Except CallError α} {a : α} {w : World σ} :
    (ofExcept e : Run σ α).run.run w = (.ok a, w) ↔ e = .ok a := by
  rw [run_ofExcept]
  cases e with
  | error e => exact ⟨nofun, nofun⟩
  | ok b =>
    constructor <;>
    · intro h
      cases h
      rfl

/-- So does what is only found in the heap. -/
theorem run_reading (f : Heap → Except CallError α) (w : World σ) :
    (reading f : Run σ α).run.run w = ((f w.heap).mapError .failed, w) :=
  run_ofExcept (f w.heap) w

/-- What is made of the heap takes its place, and a failure leaves all as it is. -/
theorem run_changing (f : Heap → Except CallError (α × Heap)) (w : World σ) :
    (Run.changing f).run.run w =
      match f w.heap with
      | .ok (a, h) => (.ok a, { w with heap := h })
      | .error e => (.error (.failed e), w) := by
  have hreading : (Run.reading f).run.run w = (ofExcept (f w.heap) : Run σ _).run.run w := rfl
  simp only [changing, ExceptT.run_bind, StateT.run_bind, hreading]
  cases f w.heap <;> rfl

theorem run_newList (items : List Value) (w : World σ) : (newList items).run.run w =
    (.ok (.list (w.heap.newList items).1), { w with heap := (w.heap.newList items).2 }) :=
  run_changing _ w

/-- Where the first part gives a value, the second goes on from there. -/
theorem run_bind_of_ok {r : Run σ α} {w w' : World σ} {a : α} (hr : r.run.run w = (.ok a, w')) (f : α → Run σ β) :
    (r >>= f).run.run w = (f a).run.run w' := by
  rw [ExceptT.run_bind, StateT.run_bind, hr]
  rfl

/-- Where the first part fails, the whole does. -/
theorem run_bind_of_error {r : Run σ α} {w w' : World σ} {e : Fault} (hr : r.run.run w = (.error e, w'))
    (f : α → Run σ β) : (r >>= f).run.run w = (.error e, w') := by
  rw [ExceptT.run_bind, StateT.run_bind, hr]
  rfl

/-- There is a value, which with the heap left behind is as described, or a failure, with the heap as it
was. -/
def Ends (h : Heap) (P : α → Heap → Prop) : Except Fault α × World σ → Prop
  | (.ok a, w) => P a w.heap
  | (.error (.failed _), w) => w.heap = h
  | (.error .exhausted, _) => False

/-- So the run ends in any world with the heap. -/
def Within (h : Heap) (P : α → Heap → Prop) (r : Run σ α) : Prop :=
  ∀ w : World σ, w.heap = h → Ends h P (r.run.run w)

/-- The run leaves the heap as it is in any case, and comes to a value as described. -/
def Reads (h : Heap) (P : α → Prop) (r : Run σ α) : Prop :=
  Within h (fun a h' => h' = h ∧ P a) r

variable {h : Heap} {P P' : α → Heap → Prop} {Q : α → Prop} {R : β → Heap → Prop}

theorem Within.imp {r : Run σ α} (himp : ∀ a h', P a h' → P' a h') (hr : Within h P r) : Within h P' r := by
  intro w hw
  have hends := hr w hw
  rcases hrun : r.run.run w with ⟨(_ | e) | a, w'⟩ <;> rw [hrun] at hends
  · exact hends
  · exact hends
  · exact himp a w'.heap hends

theorem Within.pure {a : α} (ha : P a h) : Within h P (pure a : Run σ α) := by
  rintro w rfl
  exact ha

theorem Within.fail (e : CallError) : Within h P (fail e : Run σ α) := fun _ hw => hw

theorem Within.ofExcept {e : Except CallError α} (he : Yields (P · h) e) :
    Within h P (ofExcept e : Run σ α) := by
  rcases e with e | a
  · exact .fail e
  · exact .pure (he a rfl)

theorem Within.reading {f : Heap → Except CallError α} (hf : Yields (P · h) (f h)) :
    Within h P (reading f : Run σ α) := by
  rintro w rfl
  exact Within.ofExcept hf w rfl

theorem Within.changing {f : Heap → Except CallError (α × Heap)} (hf : Yields (fun p => P p.1 p.2) (f h)) :
    Within h P (changing f : Run σ α) := by
  rintro w rfl
  rw [run_changing]
  cases hr : f w.heap with
  | error e => rfl
  | ok p => exact hf p hr

/-- What is done first leaves the heap as it is, so that the second part begins with the same heap. -/
theorem Within.bind {r : Run σ α} {f : α → Run σ β} (hr : Reads h Q r) (hf : ∀ a, Q a → Within h R (f a)) :
    Within h R (r >>= f) := by
  intro w hw
  have hfirst := hr w hw
  rw [ExceptT.run_bind, StateT.run_bind]
  rcases hrun : r.run.run w with ⟨(_ | e) | a, w'⟩ <;> rw [hrun] at hfirst
  · exact hfirst
  · exact hfirst
  · exact hf a hfirst.2 w' hfirst.1

theorem Reads.pure {a : α} (ha : Q a) : Reads h Q (pure a : Run σ α) := Within.pure ⟨rfl, ha⟩

theorem Reads.ofExcept {e : Except CallError α} (he : Yields Q e) : Reads h Q (ofExcept e : Run σ α) :=
  Within.ofExcept (he.imp fun _ ha => ⟨rfl, ha⟩)

theorem reads_ofExcept (e : Except CallError α) : Reads h (fun _ => True) (Run.ofExcept e : Run σ α) :=
  .ofExcept fun _ _ => trivial

theorem Reads.reading {f : Heap → Except CallError α} (hf : Yields Q (f h)) : Reads h Q (reading f : Run σ α) :=
  Within.reading (hf.imp fun _ ha => ⟨rfl, ha⟩)

theorem reads_get : Reads h (·.heap = h) (get : Run σ (World σ)) := fun _ hw => ⟨hw, hw⟩

theorem reads_set {w : World σ} (hw : w.heap = h) : Reads h (fun _ => True) (set w : Run σ PUnit) :=
  fun _ _ => ⟨hw, trivial⟩

theorem reads_heap : Reads h (· = h) (Run.heap : Run σ Heap) := fun _ hw => ⟨hw, hw⟩

/-! ## The outside -/

theorem run_get (w : World σ) : (get : Run σ (World σ)).run.run w = (.ok w, w) := rfl

theorem run_heap (w : World σ) : (Run.heap : Run σ Heap).run.run w = (.ok w.heap, w) := rfl

theorem run_write (text : String) (w : World σ) : (write text : Run σ Unit).run.run w =
    match w.context.output.write (Text.utf8 text) with
    | .ok output => (.ok (), { w with context := { w.context with output } })
    | .error e => (.error (.failed (.io e)), w) := by
  refine (run_bind_of_ok (run_get w) _).trans ?_
  cases w.context.output.write (Text.utf8 text) <;> rfl

theorem run_flush (w : World σ) : (flush : Run σ Unit).run.run w =
    match w.context.output.flush with
    | .ok () => (.ok (), w)
    | .error e => (.error (.failed (.io e)), w) := by
  refine (run_bind_of_ok (run_get w) _).trans ?_
  cases w.context.output.flush <;> rfl

theorem run_readLine (w : World σ) : (readLine : Run σ (Option String)).run.run w =
    match w.context.input.readLine with
    | (.ok line, input) => (.ok line, { w with context := { w.context with input } })
    | (.error e, input) => (.error (.failed (.io e)), { w with context := { w.context with input } }) := by
  refine (run_bind_of_ok (run_get w) _).trans ?_
  rcases w.context.input.readLine with ⟨_ | _, _⟩ <;> rfl

theorem reads_write (text : String) : Reads h (fun _ => True) (write text : Run σ Unit) := by
  refine .bind reads_get fun w hw => ?_
  split
  · exact reads_set hw
  · exact .fail _

theorem reads_flush : Reads h (fun _ => True) (flush : Run σ Unit) := by
  refine .bind reads_get fun w _ => ?_
  split
  · exact Reads.pure trivial
  · exact .fail _

theorem reads_readLine : Reads h (fun _ => True) (readLine : Run σ (Option String)) := by
  refine .bind reads_get fun w hw => .bind (reads_set hw) fun _ _ => ?_
  split
  · exact Reads.pure trivial
  · exact .fail _

theorem reads_draw : Reads h (fun _ => True) (draw : Run σ Float) := fun _ hw => ⟨hw, trivial⟩

theorem reads_now : Reads h (fun _ => True) (now : Run σ Int64) := fun _ hw => ⟨hw, trivial⟩

end Run

namespace Builtin

/-- A world with nothing in it. -/
def emptyWorld : World Unit :=
  ⟨.empty, { draws := ⟨fun _ => 0, 0⟩, clock := ⟨fun _ => 0, 0⟩ }, ()⟩

end Builtin

end PipeScript
