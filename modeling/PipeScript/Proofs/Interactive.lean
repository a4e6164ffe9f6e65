/-
The lines of an interactive session. A session is a row of rounds. Each of them takes a line and runs it,
and the calls in it that ask for a line take the lines after that. So no line is lost and none is taken
twice. A line that fails is reported once, and the session goes on from where the failure left it.
-/
import PipeScript.CommandLine
import PipeScript.Proofs.Evaluator.Reading

namespace PipeScript

variable {σ : Type}

namespace Machine

/-- The machine with a text written to its output. -/
def wrote (m : Machine σ) (text : String) : Machine σ :=
  { m with world := { m.world with context := m.world.context.wrote (Text.utf8 text) } }

/-- The machine with something else as what it is left to read. -/
def withInput (m : Machine σ) (input : Input) : Machine σ :=
  { m with world := { m.world with context := { m.world.context with input } } }

/-- All that was written. -/
def written (m : Machine σ) : ByteArray :=
  m.world.context.output.bytes

variable {m : Machine σ} {ls : List String}

theorem Ready.wrote (hm : m.Ready ls) (text : String) : (m.wrote text).Ready ls :=
  ⟨⟨hm.plain.functions, hm.plain.bindings⟩, hm.context.wrote _⟩

end Machine

namespace Interactive

open Machine

/-- A round of a session: the line that is run, the machine right before it and right after it, what is
written on the way, and the failure if there is one. -/
structure Round (σ : Type) where
  line : String
  before : Machine σ
  after : Machine σ
  output : ByteArray
  error : Option String

/-- What is written of a value. -/
def reported (manner : Manner) (h : Heap) (v : Value) : String :=
  if !manner.quiet && !h.eq v .null then h.text v ++ "\n" else ""

section

variable (host : Host σ) (fuel : Nat) (manner : Manner)

/-- What a line does in a round. -/
inductive Round.Runs : Round σ → Prop
  /-- The line is no script, and nothing is done. -/
  | refused {line : String} {m : Machine σ} {d : Diagnostic} : compile manner.strict line = .error d →
      Runs ⟨line, m, m, .empty, some (ScriptError.malformed d).message⟩
  /-- A statement halts. What those before it did is kept, and it leaves nothing behind itself. -/
  | halted {line : String} {m m₁ m' : Machine σ} {done rest : Program} {s : Node} {v : Value} {e : ScriptError}
      {output : ByteArray} : compile manner.strict line = .ok (done ++ s :: rest) →
      m.perform (Eval.program host fuel done) = (.ok v, m₁) →
      m₁.perform (Eval.node host fuel s) = (.error (.failed e), m') → m₁.Retains m' →
      Runs ⟨line, m, m', output, some e.message⟩
  /-- The script comes to a value, which is reported. -/
  | valued {line : String} {m m₁ : Machine σ} {p : Program} {v : Value} {output : ByteArray} :
      compile manner.strict line = .ok p → m.perform (Eval.program host fuel p) = (.ok v, m₁) →
      Runs ⟨line, m, m₁.wrote (reported manner m₁.world.heap v), output, none⟩

/-- The lines that calls take in the course of a round, in the order of the calls. -/
def Round.taken (r : Round σ) : List String :=
  match compile manner.strict r.line with
  | .ok p => (Eval.nodesCalls host fuel r.before p).flatMap (Call.lines host fuel)
  | .error _ => []

/-- A session goes through the rounds, from the one machine to the other: each round begins with a prompt and
a line of the input, and goes on from where the one before ended. At the end of the input there is a last
prompt, and nothing else. -/
inductive Goes : Machine σ → List (Round σ) → Machine σ → Prop
  | ended {m : Machine σ} : m.world.context.input.unread = [] → Goes m [] ((m.wrote "> ").wrote "\n")
  | round {m last : Machine σ} {r : Round σ} {rs : List (Round σ)} {input : Input} :
      m.world.context.input.readLine = (.ok (some r.line), input) → r.before = (m.wrote "> ").withInput input →
      r.Runs host fuel manner → r.after.written = r.before.written ++ r.output → Goes r.after rs last →
      Goes m (r :: rs) last

end

/-- All that is written in the course of rounds: a prompt and the output of each, and a last prompt. -/
def transcript : List (Round σ) → ByteArray
  | [] => Text.utf8 "> " ++ Text.utf8 "\n"
  | r :: rs => Text.utf8 "> " ++ r.output ++ transcript rs

/-! ## Rounds -/

variable {host : Host σ} {fuel : Nat} {manner : Manner} {m m' : Machine σ} {ls rest : List String} {w : World σ}

theorem run_prompt (hw : w.context.output.mode = .accepting) : (prompt : Run σ _).run.run w =
    (Run.readLine : Run σ _).run.run { w with context := w.context.wrote (Text.utf8 "> ") } := by
  have hflush : (Run.flush : Run σ Unit).run.run { w with context := w.context.wrote (Text.utf8 "> ") } =
      (.ok (), { w with context := w.context.wrote (Text.utf8 "> ") }) := Run.run_flush_accepting hw
  exact (Run.run_bind_of_ok (Run.run_write_accepting hw "> ") _).trans (Run.run_bind_of_ok hflush _)

theorem run_report (hw : w.context.output.mode = .accepting) (v : Value) : (report manner v : Run σ Unit).run.run w =
    (.ok (), { w with context := w.context.wrote (Text.utf8 (reported manner w.heap v)) }) := by
  refine (Run.run_bind_of_ok (Run.run_heap w) _).trans ?_
  unfold reported
  split
  · exact Run.run_write_accepting hw _
  · have hnone : w.context.wrote (Text.utf8 "") = w.context := by simp [Context.wrote, Text.utf8]
    rw [hnone]
    rfl

theorem line_of_compile {strict : Bool} {text : String} {p : Program} (h : compile strict text = .ok p) :
    ∀ s ∈ p, s.Line (Names ((lex text).tokens.takeWhile (·.kind != .eof))) := by
  unfold compile at h
  split at h
  · cases h
  · cases h
    exact parse_line _

/-- To run a line is a round, which takes the lines that calls give, and notes at most one failure. -/
theorem run_runs (hm : m.Ready ls) (hfuel : 0 < fuel) (line : String) (errors : List String) : ∃ r : Round σ,
    r.line = line ∧ r.before = m ∧ run host fuel manner line ⟨m, errors⟩ = ⟨r.after, r.error.toList ++ errors⟩ ∧
      r.Runs host fuel manner ∧ r.after.written = m.written ++ r.output ∧ r.after.Plain ∧
      m.Takes ls (r.taken host fuel manner) r.after := by
  unfold run Eval.compiled
  cases hcompile : compile manner.strict line with
  | error d =>
    refine ⟨⟨line, m, m, .empty, some (ScriptError.malformed d).message⟩, rfl, rfl, rfl, .refused hcompile, ?_,
      hm.plain, ?_⟩
    · simp
    · simp only [Round.taken, hcompile]
      exact hm.context.takes_refl
  | ok p =>
    have hnull : m.world.heap.Plain .null := Heap.plain_of_isLeaf trivial
    obtain ⟨result, m₁, hsettles⟩ := Eval.statements_settles hm.plain p hnull
    have hperform : m.perform (Eval.program host fuel p) = (result, m₁) := hsettles.perform host fuel hfuel
    have htakes : m.Takes ls ((Eval.nodesCalls host fuel m p).flatMap (Call.lines host fuel)) m₁ := by
      have h : m.Takes ls _ (m.perform (Eval.statements host fuel .null p)).2 :=
        Eval.statements_takes hm hfuel .null p
      rwa [hsettles.perform host fuel hfuel] at h
    obtain ⟨bytes, hbytes⟩ := htakes.written
    have hwritten : m₁.written = m.written ++ bytes := congrArg Sink.bytes hbytes
    simp only [hperform]
    cases result with
    | error h =>
      cases h with
      | exhausted => exact absurd rfl hsettles.ends
      | failed e =>
        obtain ⟨done, s, after, v, m₂, rfl, hdone, hs, hretains⟩ :=
          Eval.program_retains hm hfuel (line_of_compile hcompile) hperform
        refine ⟨⟨line, m, m₁, bytes, some e.message⟩, rfl, rfl, rfl, .halted hcompile hdone hs hretains, hwritten,
          hsettles.plain, ?_⟩
        simp only [Round.taken, hcompile]
        exact htakes
    | ok v =>
      obtain ⟨rest, -, hrest⟩ := htakes.ready hm.context
      refine ⟨⟨line, m, m₁.wrote (reported manner m₁.world.heap v),
        bytes ++ Text.utf8 (reported manner m₁.world.heap v), none⟩,
        rfl, rfl, ?_, .valued hcompile hperform, ?_, ?_, ?_⟩
      · simp only [State.perform, run_report hrest.accepting]
        rfl
      · show m₁.written ++ _ = _
        rw [hwritten, ByteArray.append_assoc]
      · exact ⟨hsettles.plain.functions, hsettles.plain.bindings⟩
      · simp only [Round.taken, hcompile]
        have hreport := htakes.trans hm.context fun rest hrest =>
          hrest.takes_wrote (Text.utf8 (reported manner m₁.world.heap v))
        rwa [List.append_nil] at hreport

/-! ## Sessions -/

variable (host manner) in
/-- As many rounds as there are lines, and one more, take all of these to the end. -/
theorem rounds_goes (hfuel : 0 < fuel) (bound : Nat) {m : Machine σ} {ls : List String} (hm : m.Ready ls)
    (hbound : ls.length < bound) (errors : List String) : ∃ rs last,
    rounds host fuel manner bound ⟨m, errors⟩ = (true, ⟨last, (rs.filterMap (·.error)).reverse ++ errors⟩) ∧
      Goes host fuel manner m rs last ∧ ls = rs.flatMap (fun r => r.line :: r.taken host fuel manner) ∧
      last.world.context.input.unread = [] ∧ last.written = m.written ++ transcript rs := by
  induction bound generalizing m ls errors with
  | zero => exact absurd hbound (Nat.not_lt_zero _)
  | succ bound ih =>
    have hprompt : (⟨m, errors⟩ : State σ).perform prompt =
        (⟨m.wrote "> ", errors⟩ : State σ).perform Run.readLine := by
      simp only [State.perform, run_prompt hm.context.accepting]
      rfl
    have hready := hm.wrote "> "
    have hread := Run.run_readLine (m.wrote "> ").world
    rw [rounds, hprompt]
    simp only [State.perform]
    cases ls with
    | nil =>
      obtain ⟨hnone, hunread⟩ := Input.readLine_of_holds_nil hready.context.holds
      rw [hnone] at hread
      rw [hread]
      have hwrite := Run.run_write_accepting hready.context.accepting "\n"
      refine ⟨[], (m.wrote "> ").wrote "\n", ?_, .ended hunread, rfl, hunread, ByteArray.append_assoc⟩
      exact congrArg (fun out : Except Fault Unit × World σ => (true, (⟨⟨m.env, out.2⟩, errors⟩ : State σ))) hwrite
    | cons l ls =>
      obtain ⟨input, hline, hrest⟩ := Input.readLine_of_holds_cons hready.context.holds
      rw [hline] at hread
      rw [hread]
      have hready' : ((m.wrote "> ").withInput input).Ready ls :=
        ⟨⟨hm.plain.functions, hm.plain.bindings⟩, hm.context.accepting, hrest⟩
      obtain ⟨r, rfl, hbefore, hrun, hruns, hwritten, hplain, htakes⟩ := run_runs hready' hfuel l errors
      obtain ⟨rest, hls, hcontext⟩ := htakes.ready hready'.context
      have hshorter : rest.length < bound := by
        rw [hls, List.length_cons, List.length_append] at hbound
        omega
      obtain ⟨rs, last, hrounds, hgoes, hrest', hunread, hlast⟩ :=
        ih ⟨hplain, hcontext⟩ hshorter (r.error.toList ++ errors)
      refine ⟨r :: rs, last, ?_, .round hline hbefore hruns (hbefore ▸ hwritten) hgoes, ?_, hunread, ?_⟩
      · refine (congrArg (rounds host fuel manner bound) hrun).trans (hrounds.trans ?_)
        cases herror : r.error <;> simp [herror]
      · rw [List.flatMap_cons, ← hrest', List.cons_append, ← hls]
      · rw [hlast, hwritten, transcript]
        simp only [← ByteArray.append_assoc]
        rfl

end Interactive

namespace CommandLine

open Interactive

/-- The machine that a session begins with. -/
def freshMachine (context : Context) : Machine Unit :=
  { env := {}, world := { heap := .empty, context, host := () } }

/-- An interactive session on an input that spells a text, with an output that accepts what is written to it,
goes on to the end of the input and is a success. The lines of its rounds, each followed by those that the
calls in the round take, are the lines of the text. What is written are the prompts and what the rounds write,
and the errors are those of the rounds, one for each round that fails. -/
theorem run_interactive {o : Options} (ho : o.has .interactive = true) (file : String → Except IoError (List UInt8))
    {context : Context} {text : String} (htext : Text.ofUtf8? context.input.unread = some text)
    (houtput : context.output.mode = .accepting) : ∃ rs last,
    Goes noHost fuel ⟨o.has .strict, o.has .quiet⟩ (freshMachine context) rs last ∧
      Text.lines text = rs.flatMap (fun r => r.line :: r.taken noHost fuel ⟨o.has .strict, o.has .quiet⟩) ∧
      last.world.context.input.unread = [] ∧
      run o file context =
        ⟨0, context.output.bytes ++ transcript rs, (rs.filterMap (·.error)).map ("error: " ++ ·)⟩ := by
  have hready : (freshMachine context).Ready (Text.lines text) :=
    ⟨⟨fun _ => rfl, nofun⟩, houtput, Input.holds_of_text htext⟩
  have hbound : (Text.lines text).length < context.input.unread.length + 1 :=
    Nat.lt_succ_of_le hready.context.holds.length_le
  obtain ⟨rs, last, hrounds, hgoes, hlines, hunread, hwritten⟩ :=
    rounds_goes noHost ⟨o.has .strict, o.has .quiet⟩ Nat.one_pos _ hready hbound []
  refine ⟨rs, last, hgoes, hlines, hunread, ?_⟩
  have hsession : session noHost fuel ⟨o.has .strict, o.has .quiet⟩ (freshMachine context) = _ := hrounds
  rw [run, if_pos ho]
  show Outcome.ofState (session noHost fuel _ (freshMachine context)).1
    (session noHost fuel _ (freshMachine context)).2 = _
  rw [hsession]
  simp only [Outcome.ofState, if_true, List.append_nil, List.reverse_reverse]
  exact congrArg (Outcome.mk 0 · _) hwritten

/-- A line that asks for one, the line that it is given, a line that fails, and one that has the answer. -/
def askingText : String :=
  "&x:|input\nhello\n|nope\n!x"

def askingContext : Context where
  input := ⟨askingText.toList.flatMap String.utf8EncodeChar⟩
  draws := ⟨fun _ => 0, 0⟩
  clock := ⟨fun _ => 0, 0⟩

def interactiveOptions : Options :=
  { switches := [.interactive] }

/-- The second line is no round of its own, and what the first one bound is there after the failure. -/
theorem run_interactive_asking : interactiveOptions.has .interactive = true ∧
    Text.ofUtf8? askingContext.input.unread = some askingText ∧ askingContext.output.mode = .accepting ∧ ∃ rs last,
      Goes noHost fuel ⟨false, false⟩ (freshMachine askingContext) rs last ∧
      ["&x:|input", "hello", "|nope", "!x"] = rs.flatMap (fun r => r.line :: r.taken noHost fuel ⟨false, false⟩) ∧
      last.world.context.input.unread = [] ∧
      (rs.filterMap (·.error)).map ("error: " ++ ·) = ["error: function not found: nope"] ∧
      (ByteArray.empty ++ transcript rs).data = (Text.utf8 "> hello\n> > hello\n> \n").data := by
  have htext : Text.ofUtf8? askingContext.input.unread = some askingText :=
    (Text.ofUtf8?_flatMap _).trans (congrArg some String.ofList_toList)
  have hlines : Text.lines askingText = ["&x:|input", "hello", "|nope", "!x"] := by decide +kernel
  have herrors : (run interactiveOptions (fun _ => .error .fileNotFound) askingContext).errors =
      ["error: function not found: nope"] := by decide +kernel
  have houtput : (run interactiveOptions (fun _ => .error .fileNotFound) askingContext).output.data =
      (Text.utf8 "> hello\n> > hello\n> \n").data := by decide +kernel
  obtain ⟨rs, last, hgoes, htaken, hunread, hrun⟩ :=
    run_interactive (o := interactiveOptions) (by decide) (fun _ => .error .fileNotFound) htext rfl
  rw [hrun] at herrors houtput
  exact ⟨by decide, htext, rfl, rs, last, hgoes, hlines.symm.trans htaken, hunread, herrors, houtput⟩

end CommandLine

end PipeScript
