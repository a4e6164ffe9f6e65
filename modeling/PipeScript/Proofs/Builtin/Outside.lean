/-
What calls of the functions of the language do outside. All but five of them do nothing there. Of these,
two write a line, one takes a random draw and one a reading of the clock. Only the fifth reads a line, and
the line that it reads is what it gives. Where nothing that is written is refused and all lines spell texts,
a call that fails has written and read nothing.
-/
import PipeScript.Proofs.Builtin.Change
import PipeScript.Proofs.Input

namespace PipeScript

variable {σ α β : Type}

/-! ## Contexts -/

namespace Context

/-- The context with more written to its output. -/
def wrote (c : Context) (bytes : ByteArray) : Context :=
  { c with output := { c.output with bytes := c.output.bytes ++ bytes } }

/-- The output accepts what is written to it, and the input holds the lines. -/
structure Ready (c : Context) (ls : List String) : Prop where
  accepting : c.output.mode = .accepting
  holds : c.input.Holds ls

/-- On the way from a context that holds the lines to another one the first of them are taken, the other
lines are left, and what is written comes after what was written before. -/
structure Takes (c : Context) (ls taken : List String) (c' : Context) : Prop where
  lines : ∃ rest, ls = taken ++ rest ∧ c'.input.Holds rest
  written : ∃ bytes, c'.output = { c.output with bytes := c.output.bytes ++ bytes }

variable {c c' c'' : Context} {ls taken taken' : List String}

theorem Ready.wrote (hc : c.Ready ls) (bytes : ByteArray) : (c.wrote bytes).Ready ls := ⟨hc.accepting, hc.holds⟩

theorem Takes.ready (hc : c.Ready ls) (h : c.Takes ls taken c') : ∃ rest, ls = taken ++ rest ∧ c'.Ready rest := by
  obtain ⟨⟨rest, hls, hrest⟩, bytes, hbytes⟩ := h
  refine ⟨rest, hls, ?_, hrest⟩
  rw [hbytes]
  exact hc.accepting

theorem Ready.takes_refl (hc : c.Ready ls) : c.Takes ls [] c :=
  ⟨⟨ls, rfl, hc.holds⟩, .empty, by simp⟩

theorem Ready.takes_wrote (hc : c.Ready ls) (bytes : ByteArray) : c.Takes ls [] (c.wrote bytes) :=
  ⟨⟨ls, rfl, hc.holds⟩, bytes, rfl⟩

theorem Takes.trans (hc : c.Ready ls) (h : c.Takes ls taken c')
    (h' : ∀ rest, c'.Ready rest → c'.Takes rest taken' c'') : c.Takes ls (taken ++ taken') c'' := by
  obtain ⟨rest, rfl, hrest⟩ := h.ready hc
  obtain ⟨⟨rest', rfl, hrest'⟩, more, hmore⟩ := h' rest hrest
  obtain ⟨bytes, hbytes⟩ := h.written
  refine ⟨⟨rest', by simp, hrest'⟩, bytes ++ more, ?_⟩
  rw [hmore, hbytes, ByteArray.append_assoc]

end Context

/-! ## Runs -/

namespace Run

/-- The outside stays as it is, whatever comes of the run. -/
def Inner (r : Run σ α) : Prop :=
  ∀ w, (r.run.run w).2.context = w.context

theorem Inner.pure (a : α) : Inner (pure a : Run σ α) := fun _ => rfl

theorem Inner.fail (e : CallError) : Inner (fail e : Run σ α) := fun _ => rfl

theorem Inner.heap : Inner (Run.heap : Run σ Heap) := fun _ => rfl

theorem Inner.ofExcept (e : Except CallError α) : Inner (ofExcept e : Run σ α) := by
  cases e with
  | error e => exact .fail e
  | ok a => exact .pure a

theorem Inner.reading (f : Heap → Except CallError α) : Inner (reading f : Run σ α) :=
  fun w => Inner.ofExcept (f w.heap) w

theorem Inner.changing (f : Heap → Except CallError (α × Heap)) : Inner (changing f : Run σ α) := by
  intro w
  rw [run_changing]
  cases f w.heap <;> rfl

theorem Inner.bind {r : Run σ α} {f : α → Run σ β} (hr : Inner r) (hf : ∀ a, Inner (f a)) : Inner (r >>= f) := by
  intro w
  have hfirst := hr w
  rw [ExceptT.run_bind, StateT.run_bind]
  rcases hrun : r.run.run w with ⟨e | a, w'⟩ <;> rw [hrun] at hfirst
  · exact hfirst
  · exact (hf a w').trans hfirst

variable {w : World σ} {ls : List String}

theorem run_write_accepting (hw : w.context.output.mode = .accepting) (text : String) :
    (write text : Run σ Unit).run.run w = (.ok (), { w with context := w.context.wrote (Text.utf8 text) }) := by
  have hwrite : w.context.output.write (Text.utf8 text) = .ok (w.context.wrote (Text.utf8 text)).output := by
    unfold Sink.write
    split
    · next hempty =>
      have hnone : Text.utf8 text = .empty := ByteArray.size_eq_zero_iff.1 (by simpa [ByteArray.isEmpty] using hempty)
      simp [Context.wrote, hnone]
    · simp [Context.wrote, hw]
  rw [run_write, hwrite]
  rfl

theorem run_flush_accepting (hw : w.context.output.mode = .accepting) :
    (flush : Run σ Unit).run.run w = (.ok (), w) := by
  rw [run_flush, Sink.flush, hw]
  rfl

end Run

/-! ## All functions -/

namespace Builtin

open Run

/-- The functions that do something outside. -/
def outward : List Builtin :=
  [print, log, input, time, random]

/-- The lines that a call of a function takes, by what comes of it. -/
def taken (b : Builtin) : Except Fault Value → List String
  | .ok (.str s) => if b = input then [s] else []
  | _ => []

/-- What comes of a call that takes the lines where all of these are held. After a failure nothing is written
or read, although draws may have been taken. -/
structure Calls (b : Builtin) (ls : List String) (c : Context) (result : Except Fault Value) (c' : Context) : Prop where
  takes : c.Takes ls (b.taken result) c'
  failed : ∀ e, result = .error e → c' = { c with draws := c'.draws }

/-- So it is with the call in a world. -/
def CallsIn (b : Builtin) (ls : List String) (w : World σ) (r : Run σ Value) : Prop :=
  b.Calls ls w.context (r.run.run w).1 (r.run.run w).2.context

variable {b : Builtin} {ls : List String} {c c' : Context} {v : Value} {w : World σ} {args : List Value}

theorem taken_of_ne (hb : b ≠ input) (result : Except Fault Value) : b.taken result = [] := by
  unfold taken
  split
  · exact if_neg hb
  · rfl

theorem CallsIn.of_ok {r : Run σ Value} {w' : World σ} (hr : r.run.run w = (.ok v, w'))
    (htakes : w.context.Takes ls (b.taken (.ok v)) w'.context) : b.CallsIn ls w r := by
  rw [CallsIn, hr]
  exact ⟨htakes, nofun⟩

theorem CallsIn.of_inner {r : Run σ Value} (hr : Inner r) (hb : b ≠ input) (hw : w.context.Ready ls) :
    b.CallsIn ls w r := by
  rw [CallsIn, hr w]
  exact ⟨(taken_of_ne hb _).symm ▸ hw.takes_refl, fun _ _ => rfl⟩

end Builtin

namespace Console

open Run

variable {b : Builtin} {ls : List String} {w : World σ}

theorem print_calls (hb : b ≠ .input) (hw : w.context.Ready ls) (args : List Value) :
    b.CallsIn ls w (Console.print args) := by
  have hwrite := run_write_accepting hw.accepting (" ".intercalate (args.map w.heap.text) ++ "\n")
  refine .of_ok ((run_bind_of_ok (run_heap w) _).trans (run_bind_of_ok hwrite _)) ?_
  rw [Builtin.taken_of_ne hb]
  exact hw.takes_wrote _

/-- What comes of the line that was read. -/
def answer : Option String → Run σ Value
  | some line => pure (.str line)
  | none => pure .null

/-- After the prompt is written the first line is read, and at the end of the input it is null. -/
theorem answer_calls (hw : w.context.Ready ls) {r : Run σ Value} {w' : World σ} {bytes : ByteArray}
    (hw' : w'.context = w.context.wrote bytes) (hr : r.run.run w = (readLine >>= answer).run.run w') :
    Builtin.input.CallsIn ls w r := by
  have hready : w'.context.Ready ls := hw' ▸ hw.wrote bytes
  have hread := run_readLine w'
  cases ls with
  | nil =>
    rw [(Input.readLine_of_holds_nil hready.holds).1] at hread
    have hrun : r.run.run w = (.ok .null, w') := hr.trans (run_bind_of_ok hread answer)
    exact .of_ok hrun (hw' ▸ hw.takes_wrote bytes)
  | cons l ls =>
    obtain ⟨rest, hrest, hls⟩ := Input.readLine_of_holds_cons hready.holds
    rw [hrest] at hread
    have hrun : r.run.run w = (.ok (.str l), { w' with context := { w'.context with input := rest } }) :=
      hr.trans (run_bind_of_ok hread answer)
    exact .of_ok hrun ⟨⟨ls, rfl, hls⟩, bytes, congrArg Context.output hw'⟩

theorem input_calls (hw : w.context.Ready ls) (args : List Value) :
    Builtin.input.CallsIn ls w (Console.input args) := by
  cases hp : Arguments.atMostOne args with
  | error e =>
    have hfails : (Console.input args : Run σ Value).run.run w = (.error (.failed e), w) := by
      unfold Console.input
      rw [hp]
      rfl
    rw [Builtin.CallsIn, hfails]
    exact ⟨hw.takes_refl, fun _ _ => rfl⟩
  | ok prompt =>
    have hreads : (fun line => match line with | some line => return .str line | none => return .null :
        Option String → Run σ Value) = answer := by
      funext line
      cases line <;> rfl
    cases prompt with
    | none =>
      have hnone : w.context = w.context.wrote .empty := by simp [Context.wrote]
      refine answer_calls hw hnone ?_
      unfold Console.input
      rw [hp, ← hreads]
      rfl
    | some v =>
      have hwrites : (Console.input args : Run σ Value) = (do
          let h ← Run.heap
          Run.write (h.text v)
          Run.flush
          Run.readLine >>= answer) := by
        unfold Console.input
        rw [hp, ← hreads]
        rfl
      have hwrite := run_write_accepting hw.accepting (w.heap.text v)
      have hwrote : ({ w with context := w.context.wrote (Text.utf8 (w.heap.text v)) } : World σ).context = _ := rfl
      have hflush :=
        run_flush_accepting (w := { w with context := w.context.wrote (Text.utf8 (w.heap.text v)) }) hw.accepting
      rw [hwrites]
      refine answer_calls hw hwrote ?_
      refine (run_bind_of_ok hwrite fun _ => Run.flush >>= fun _ => Run.readLine >>= answer).trans ?_
      exact run_bind_of_ok hflush fun _ => Run.readLine >>= answer

theorem random_calls (hw : w.context.Ready ls) (args : List Value) :
    Builtin.random.CallsIn ls w (Console.random args) := by
  have hinner (k : Float → Run σ Value) (hk : ∀ r, Inner (k r)) :
      ((Run.draw >>= k).run.run w).2.context = { w.context with draws := w.context.draws.advance } := hk _ _
  have hcontext : ((Console.random args : Run σ Value).run.run w).2.context =
      { w.context with draws := w.context.draws.advance } := by
    refine hinner _ fun r => ?_
    split
    · exact .bind (.ofExcept _) fun low => .bind (.ofExcept _) fun high => .pure _
    · exact .pure _
  rw [Builtin.CallsIn, hcontext]
  refine ⟨?_, fun _ _ => rfl⟩
  rw [Builtin.taken_of_ne (by decide)]
  exact ⟨⟨ls, rfl, hw.holds⟩, .empty, by simp⟩

end Console

namespace Builtin

open Run

variable {b : Builtin} {ls : List String} {w : World σ} {args : List Value}

theorem run_inner (hargs : NoFunction args) (hb : b ∉ outward) (fuel : Nat) (call : Caller σ) :
    Inner (b.run fuel call args) := by
  cases b with
  | print | log | input | time | random => exact absurd (by decide) hb
  | map | filter | find | some | every =>
    obtain ⟨e, he⟩ := hargs.subject_fails (σ := σ)
    intro w
    exact congrArg (fun r : Run σ Value => (r.run.run w).2.context) (he _)
  | ifElse =>
    show Inner (Branching.ifElse call args)
    rw [hargs.ifElse_eq]
    refine .bind (.ofExcept _) fun p => .bind .heap fun h => ?_
    split
    · exact .pure _
    · exact .pure _
  | forEach =>
    show Inner (Branching.forEach call args)
    rw [hargs.forEach_eq]
    exact .bind (.ofExcept _) fun p => .bind .heap fun h => .changing _
  | whileTrue =>
    show Inner (Branching.whileTrue fuel call args)
    rw [hargs.whileTrue_eq]
    refine .bind (.ofExcept _) fun p => .bind .heap fun h => ?_
    split
    · exact .fail _
    · exact .pure _
  | add | sub | mul | div | mod | abs | sqrt | pow | round | floor | ceil | typeof | tonumber | isnull =>
    exact .ofExcept _
  | split | push | pop | shift | unshift | slice | reverse | sort | keys | values | set => exact .changing _
  | max | min | eq | ne | gt | lt | gte | lte | concat | uppercase | lowercase | join | length | substring | trim
    | replace | get | tostring | tobool | and | or | not => exact .reading _

/-- A call without functions among its arguments takes at most the first line that the input holds, and it
takes just what it gives. -/
theorem run_calls (hargs : NoFunction args) (b : Builtin) (fuel : Nat) (call : Caller σ) (hw : w.context.Ready ls) :
    b.CallsIn ls w (b.run fuel call args) := by
  by_cases hb : b ∈ outward
  · simp only [outward, List.mem_cons, List.not_mem_nil, or_false] at hb
    rcases hb with rfl | rfl | rfl | rfl | rfl
    · exact Console.print_calls (by decide) hw args
    · exact Console.print_calls (by decide) hw args
    · exact Console.input_calls hw args
    · exact .of_ok rfl ⟨⟨ls, rfl, hw.holds⟩, .empty, by rw [ByteArray.append_empty]⟩
    · exact Console.random_calls hw args
  · exact .of_inner (run_inner hargs hb fuel call) (fun he => hb (he ▸ by decide)) hw

end Builtin

end PipeScript
