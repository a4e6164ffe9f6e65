/-
What a loop does. The condition and the body are called in turns, the condition first, each of them without
arguments and in the world that the call before left behind, until an answer of the condition is not true or
a call fails. What comes of the loop is what came of the last round. Nothing bounds the number of rounds, so
the loop is told with more fuel than they are. It is left open what calls do, so that all this holds of every
condition and every body, also where each of them changes what the other one answers.
-/
import PipeScript.Proofs.Builtin.Iteration

namespace PipeScript

variable {σ : Type} {call : Caller σ} {f : Callable} {body : Value}

namespace Branching

open Iteration (Notes)

/-! ## Turns -/

/-- The calls that are made for the body in a round. -/
def bodyCalls : Value → List (Callable × List Value)
  | .function g => [(g, [])]
  | _ => []

/-- The calls of a round: that of the condition, and then that of the body. -/
def turn (f : Callable) (body : Value) : List (Callable × List Value) :=
  (f, []) :: bodyCalls body

/-- What is done with the body: a function is called without arguments. Anything else is called by nobody, and
answers null. -/
inductive Performs (call : Caller σ) : Value → World σ → Except Fault Value → World σ → Prop
  | called {g w r w'} : (call g []).run.run w = (r, w') → Performs call (.function g) w r w'
  | idle {v w} : (∀ g, v ≠ .function g) → Performs call v w (.ok .null) w

/-- The condition and the body take turns, each in the world that the other left behind. No more calls are made
once the condition gives an answer that is not true, or one of the two fails. The results are those of the body
in the rounds that were finished. -/
inductive Alternates (call : Caller σ) (f : Callable) (body : Value) :
    World σ → (calls : List (Callable × List Value)) → (results : List Value) → Except Fault Unit → World σ → Prop
  | ended {w a w'} : (call f []).run.run w = (.ok a, w') → w'.heap.truthy a = false →
      Alternates call f body w [(f, [])] [] (.ok ()) w'
  | conditionFailed {w e w'} : (call f []).run.run w = (.error e, w') →
      Alternates call f body w [(f, [])] [] (.error e) w'
  | bodyFailed {w a w₁ e w'} : (call f []).run.run w = (.ok a, w₁) → w₁.heap.truthy a = true →
      Performs call body w₁ (.error e) w' → Alternates call f body w (turn f body) [] (.error e) w'
  | round {w a w₁ v w₂ calls results ending w'} : (call f []).run.run w = (.ok a, w₁) →
      w₁.heap.truthy a = true → Performs call body w₁ (.ok v) w₂ →
      Alternates call f body w₂ calls results ending w' →
      Alternates call f body w (turn f body ++ calls) (v :: results) ending w'

variable {calls : List (Callable × List Value)} {results : List Value} {ending : Except Fault Unit} {w w' : World σ}
  {r : Except Fault Value}

theorem performs_iff : Performs call body w r w' ↔ (round call body).run.run w = (r, w') := by
  constructor
  · rintro (hrun | hbody)
    · exact hrun
    · cases body with
      | function g => exact absurd rfl (hbody g)
      | _ => rfl
  · intro hrun
    cases body with
    | function g => exact .called hrun
    | _ =>
      cases hrun
      exact .idle nofun

theorem Performs.notes_eq {notes : World σ → List (Callable × List Value)} (hnotes : Notes call notes)
    (h : Performs call body w r w') : notes w' = notes w ++ bodyCalls body := by
  rcases h with hrun | hbody
  · exact hnotes.eq_append hrun
  · cases body with
    | function g => exact absurd rfl (hbody g)
    | _ => exact (List.append_nil _).symm

namespace Alternates

/-- The condition is called once more than there are rounds that are finished. -/
theorem calls_eq (h : Alternates call f body w calls results ending w') (hend : ending = .ok ()) :
    calls = (List.replicate results.length (turn f body)).flatten ++ [(f, [])] := by
  induction h with
  | ended => rfl
  | conditionFailed | bodyFailed => cases hend
  | round _ _ _ _ ih => rw [ih hend, List.length_cons, List.replicate_succ, List.flatten_cons, List.append_assoc]

/-- The call that fails comes after the rounds that are finished, and it is the last one. -/
theorem calls_eq_of_error (h : Alternates call f body w calls results ending w') {e : Fault}
    (hend : ending = .error e) : ∃ u, ((call f []).run.run u = (.error e, w') ∧
        calls = (List.replicate results.length (turn f body)).flatten ++ [(f, [])] ∨
      ∃ g, body = .function g ∧ (call g []).run.run u = (.error e, w') ∧
        calls = (List.replicate results.length (turn f body)).flatten ++ [(f, []), (g, [])]) := by
  induction h with
  | ended => cases hend
  | @conditionFailed w _ _ hrun =>
    cases hend
    exact ⟨w, .inl ⟨hrun, rfl⟩⟩
  | @bodyFailed _ _ w₁ _ _ _ _ hbody =>
    cases hend
    rcases hbody with @⟨g, _, _, _, hrun⟩
    exact ⟨w₁, .inr ⟨g, rfl, hrun, rfl⟩⟩
  | round _ _ _ _ ih =>
    obtain ⟨u, ⟨hrun, hcalls⟩ | ⟨g, hg, hrun, hcalls⟩⟩ := ih hend
    · exact ⟨u, .inl ⟨hrun, by simp [hcalls, List.replicate_succ]⟩⟩
    · exact ⟨u, .inr ⟨g, hg, hrun, by simp [hcalls, List.replicate_succ]⟩⟩

/-- The calls that are noted are those that are spoken of here, and no others. -/
theorem notes_eq {notes : World σ → List (Callable × List Value)} (hnotes : Notes call notes)
    (h : Alternates call f body w calls results ending w') : notes w' = notes w ++ calls := by
  induction h with
  | ended hrun | conditionFailed hrun => exact hnotes.eq_append hrun
  | bodyFailed hrun _ hbody => simp [hbody.notes_eq hnotes, hnotes.eq_append hrun, turn]
  | round hrun _ hbody _ ih => simp [ih, hbody.notes_eq hnotes, hnotes.eq_append hrun, turn]

/-- Where the body is no function, it has no results but null. -/
theorem eq_null_of_mem_results (h : Alternates call f body w calls results ending w')
    (hbody : ∀ g, body ≠ .function g) : ∀ v ∈ results, v = .null := by
  induction h with
  | ended | conditionFailed | bodyFailed => nofun
  | round _ _ hperforms _ ih =>
    refine List.forall_mem_cons.2 ⟨?_, ih⟩
    rcases hperforms with - | -
    · exact absurd rfl (hbody _)
    · rfl

end Alternates

/-- What it takes for a condition and a body to alternate. -/
structure InTurns (call : Caller σ) (f : Callable) (body : Value) (w : World σ)
    (calls : List (Callable × List Value)) (results : List Value) (ending : Except Fault Unit) (w' : World σ) :
    Prop where
  alternates : Alternates call f body w calls results ending w'
  /-- The condition is called in each round, before the body, and then once more. -/
  ended : ending = .ok () → calls = (List.replicate results.length (turn f body)).flatten ++ [(f, [])]
  /-- A call that fails is the last one. It is one of the condition or of the body, each at its turn. -/
  failed : ∀ e, ending = .error e → ∃ u, ((call f []).run.run u = (.error e, w') ∧
      calls = (List.replicate results.length (turn f body)).flatten ++ [(f, [])]) ∨
    ∃ g, body = .function g ∧ (call g []).run.run u = (.error e, w') ∧
      calls = (List.replicate results.length (turn f body)).flatten ++ [(f, []), (g, [])]
  /-- A body that is no function has no results but null. -/
  idle : (∀ g, body ≠ .function g) → ∀ v ∈ results, v = .null
  /-- A function that notes its calls notes these, and no others. -/
  noted : ∀ notes, Notes call notes → notes w' = notes w ++ calls

theorem Alternates.inTurns (h : Alternates call f body w calls results ending w') :
    InTurns call f body w calls results ending w' where
  alternates := h
  ended := h.calls_eq
  failed _ := h.calls_eq_of_error
  idle := h.eq_null_of_mem_results
  noted _ hnotes := h.notes_eq hnotes

/-! ## Runs -/

/-- One round of the loop in a world where the condition gives a true answer. -/
theorem run_rounds_of_truthy {a : Value} {w₁ : World σ} (hrun : (call f []).run.run w = (.ok a, w₁))
    (htruth : w₁.heap.truthy a = true) (fuel : Nat) (last : Value) : (rounds call f body (fuel + 1) last).run.run w =
      (round call body >>= rounds call f body fuel).run.run w₁ := by
  rw [rounds, Run.run_bind_of_ok hrun, Run.run_bind_of_ok (Run.run_heap w₁), if_pos htruth]

theorem run_rounds_of_not_truthy {a : Value} {w₁ : World σ} (hrun : (call f []).run.run w = (.ok a, w₁))
    (htruth : w₁.heap.truthy a = false) (fuel : Nat) (last : Value) :
    (rounds call f body (fuel + 1) last).run.run w = (.ok last, w₁) := by
  rw [rounds, Run.run_bind_of_ok hrun, Run.run_bind_of_ok (Run.run_heap w₁), if_neg (Bool.eq_false_iff.1 htruth)]
  rfl

theorem run_rounds_of_error {e : Fault} (hrun : (call f []).run.run w = (.error e, w')) (fuel : Nat) (last : Value) :
    (rounds call f body (fuel + 1) last).run.run w = (.error e, w') := by
  rw [rounds]
  exact Run.run_bind_of_error hrun _

/-- With more fuel than rounds, what comes of the loop is what came of the last round. -/
theorem Alternates.run_rounds (h : Alternates call f body w calls results ending w') {fuel : Nat}
    (hfuel : results.length < fuel) (last : Value) :
    (rounds call f body fuel last).run.run w = (ending.map fun _ => results.getLastD last, w') := by
  obtain ⟨fuel, rfl⟩ := Nat.exists_eq_add_one_of_ne_zero (Nat.ne_zero_of_lt hfuel)
  induction h generalizing fuel last with
  | ended hrun htruth => exact run_rounds_of_not_truthy hrun htruth fuel last
  | conditionFailed hrun => exact run_rounds_of_error hrun fuel last
  | bodyFailed hrun htruth hbody =>
    rw [run_rounds_of_truthy hrun htruth]
    exact Run.run_bind_of_error (performs_iff.1 hbody) _
  | @round _ _ _ v _ _ results _ _ hrun htruth hbody _ ih =>
    have hmore : results.length < fuel := Nat.lt_of_succ_lt_succ hfuel
    obtain ⟨fuel, rfl⟩ := Nat.exists_eq_add_one_of_ne_zero (Nat.ne_zero_of_lt hmore)
    rw [run_rounds_of_truthy hrun htruth, Run.run_bind_of_ok (performs_iff.1 hbody), ih v fuel hmore,
      List.getLastD_cons]

/-- What comes of the loop comes of turns, unless the fuel did not suffice. -/
theorem exists_alternates {fuel : Nat} {last : Value} (hrun : (rounds call f body fuel last).run.run w = (r, w'))
    (hr : r ≠ .error .exhausted) : ∃ calls results ending, Alternates call f body w calls results ending w' ∧
      r = ending.map fun _ => results.getLastD last := by
  induction fuel generalizing w last with
  | zero =>
    cases hrun
    exact absurd rfl hr
  | succ fuel ih =>
    rcases hasked : (call f []).run.run w with ⟨e | a, w₁⟩
    · rw [run_rounds_of_error hasked] at hrun
      cases hrun
      exact ⟨_, [], .error e, .conditionFailed hasked, rfl⟩
    · cases htruth : w₁.heap.truthy a with
      | false =>
        rw [run_rounds_of_not_truthy hasked htruth] at hrun
        cases hrun
        exact ⟨_, [], .ok (), .ended hasked htruth, rfl⟩
      | true =>
        rw [run_rounds_of_truthy hasked htruth] at hrun
        rcases hbody : (round call body).run.run w₁ with ⟨e | v, w₂⟩
        · rw [Run.run_bind_of_error hbody] at hrun
          cases hrun
          exact ⟨_, [], .error e, .bodyFailed hasked htruth (performs_iff.2 hbody), rfl⟩
        · rw [Run.run_bind_of_ok hbody] at hrun
          obtain ⟨calls, results, ending, hturns, rfl⟩ := ih hrun
          exact ⟨_, v :: results, ending, .round hasked htruth (performs_iff.2 hbody) hturns, by
            rw [List.getLastD_cons]⟩

/-- A condition that is no function is the same from round to round, so there is at most an answer to it. -/
theorem run_whileTrue_of_not_function {condition : Value} (hcondition : ∀ f, condition ≠ .function f) (fuel : Nat)
    (body : Value) (w : World σ) : (whileTrue fuel call [condition, body]).run.run w =
      (if w.heap.truthy condition then .error (.failed (.value .endless)) else .ok .null, w) := by
  have htwo : (Run.ofExcept (Arguments.two [condition, body]) : Run σ _).run.run w = (.ok (condition, body), w) := rfl
  unfold whileTrue
  rw [Run.run_bind_of_ok htwo]
  cases condition with
  | function f => exact absurd rfl (hcondition f)
  | _ =>
    refine (Run.run_bind_of_ok (Run.run_heap w) _).trans ?_
    split <;> rfl

/-- A condition that is true as long as a number is not zero, and a body that makes the number less by one. All
calls are noted. -/
def countingDown : Caller (List (Callable × List Value) × Nat) := fun f args => do
  let w ← get
  if f.name = "more" then
    set { w with host := (w.host.1 ++ [(f, args)], w.host.2) }
    return .bool (decide (0 < w.host.2))
  else
    set { w with host := (w.host.1 ++ [(f, args)], w.host.2 - 1) }
    return .int (Int64.ofNat (w.host.2 - 1))

theorem notes_countingDown : Notes countingDown (·.host.1) := by
  intro f args w
  unfold countingDown
  rw [Run.run_bind_of_ok (Run.run_get w)]
  split <;> rfl

end Branching

namespace Builtin

open Branching

/-- A loop with a function as its condition makes the calls of the condition and the body in turns, and comes to
what the last round came to, or to the failure of a call. It comes to nothing else, with however much fuel. A
loop with any other condition makes no call at all: it fails if the condition is true, and else it is null. -/
theorem run_whileTrue (call : Caller σ) (condition body : Value) (w : World σ) :
    (∀ f, condition = .function f →
      (∀ calls results ending w', Alternates call f body w calls results ending w' →
        InTurns call f body w calls results ending w' ∧ ∀ fuel, results.length < fuel →
          (whileTrue.run fuel call [condition, body]).run.run w =
            (ending.map fun _ => results.getLastD .null, w')) ∧
      ∀ fuel r w', (whileTrue.run fuel call [condition, body]).run.run w = (r, w') → r ≠ .error .exhausted →
        ∃ calls results ending, Alternates call f body w calls results ending w' ∧
          r = ending.map fun _ => results.getLastD .null) ∧
    ((∀ f, condition ≠ .function f) → ∀ fuel, (whileTrue.run fuel call [condition, body]).run.run w =
      (if w.heap.truthy condition then .error (.failed (.value .endless)) else .ok .null, w)) := by
  refine ⟨?_, fun hcondition fuel => run_whileTrue_of_not_function hcondition fuel body w⟩
  rintro f rfl
  exact ⟨fun _ _ _ _ h => ⟨h.inTurns, fun _ hfuel => h.run_rounds hfuel .null⟩,
    fun _ _ _ hrun hr => exists_alternates hrun hr⟩

/-- Two rounds, the second of which makes the condition false. -/
theorem run_whileTrue_countingDown :
    let more : Callable := ⟨"more", .host 0⟩
    let less : Callable := ⟨"less", .host 1⟩
    let calls := [(more, []), (less, []), (more, []), (less, []), (more, [])]
    let w (noted : List (Callable × List Value)) (n : Nat) : World (List (Callable × List Value) × Nat) :=
      ⟨.empty, emptyWorld.context, (noted, n)⟩
    Alternates countingDown more (.function less) (w [] 2) calls [.int 1, .int 0] (.ok ()) (w calls 0) ∧
      (w calls 0).host.1 = (w [] 2).host.1 ++ calls ∧ ∀ fuel, 2 < fuel →
        (whileTrue.run fuel countingDown [.function more, .function less]).run.run (w [] 2) =
          (.ok (.int 0), w calls 0) := by
  intro more less calls w
  have hturns : Alternates countingDown more (.function less) (w [] 2) calls [.int 1, .int 0] (.ok ()) (w calls 0) :=
    .round rfl rfl (.called rfl) (.round rfl rfl (.called rfl) (.ended rfl rfl))
  obtain ⟨hin, hrun⟩ :=
    ((run_whileTrue countingDown (.function more) (.function less) (w [] 2)).1 more rfl).1 _ _ _ _ hturns
  exact ⟨hturns, hin.noted _ notes_countingDown, hrun⟩

end Builtin

end PipeScript
