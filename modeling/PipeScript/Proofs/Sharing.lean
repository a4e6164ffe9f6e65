/-
Evaluators that share what the language gives them, and the heap. Apart from that each has its own names,
its own outside and a host of its own. As long as no container is reached from two of them, none is seen by
another: whatever steps are done to all of them, each is left as if only its own steps had been done, but
for which container is which.
-/
import PipeScript.Proofs.Evaluator.Blind
import PipeScript.Proofs.Heap.Nesting

namespace PipeScript.Sharing

open List (Forall₂)
open Relation (ReflTransGen)

/-! ## Steps -/

/-- What a step gave to the program that had it done. Not every step gives a value. -/
abbrev Answer := Except Halt (Option Value)

/-- A value that a program passes in: one that it has from the start or that a step gave it, or what it finds
in a list or a dictionary that it has in this way. -/
inductive Source where
  | given (v : Value)
  /-- The value of an answer, counted from the first one that the evaluator gave. -/
  | answer (n : Nat)
  | item (s : Source) (n : Nat)
  | entry (s : Source) (key : String)

/-- What a program may do to an evaluator. -/
inductive Action where
  /-- Runs a source. -/
  | run (text : String)
  /-- Binds a variable. -/
  | set (name : String) (s : Source)
  /-- Gives a name to a function of the host. -/
  | define (name : String) (id : Nat)
  /-- Asks for the value of a variable. -/
  | get (name : String)
  /-- Makes a list, to be passed in later. -/
  | list (items : List Source)
  /-- Makes a dictionary, to be passed in later. -/
  | dict (entries : List (String × Source))

/-- The values from the start of which a value is had. -/
def Source.givens : Source → List Value
  | .given v => [v]
  | .answer _ => []
  | .item s _ | .entry s _ => s.givens

/-- The value that is passed in, after the answers so far. Where there is none it is null. -/
def Source.value (answers : List Answer) (h : Heap) : Source → Value
  | .given v => v
  | .answer n =>
    match answers[n]? with
    | some (.ok v) => v.getD .null
    | _ => .null
  | .item s n =>
    match s.value answers h with
    | .list r => (h.items r)[n]?.getD .null
    | _ => .null
  | .entry s key =>
    match s.value answers h with
    | .dict r => ((h.entries r).get? key).getD .null
    | _ => .null

/-- The values from the start that are passed in. -/
def Action.givens : Action → List Value
  | .set _ s => s.givens
  | .list items => items.flatMap Source.givens
  | .dict entries => entries.flatMap (·.2.givens)
  | _ => []

/-- What is done to the evaluator, after the answers so far. -/
def act {σ : Type} (host : Host σ) (fuel : Nat) (answers : List Answer) : Action → Eval σ (Option Value)
  | .run text => do return some (← Eval.source host fuel text)
  | .set name s => do
    let v := s.value answers (← get).world.heap
    modify fun m => { m with env := m.env.set name v }
    return none
  | .define name id => do
    modify fun m => { m with env := m.env.define name ⟨name, .host id⟩ }
    return none
  | .get name => do return (← get).env.get? name
  | .list items => do
    let m ← get
    let (r, heap) := m.world.heap.newList (items.map (·.value answers m.world.heap))
    set { m with world := { m.world with heap } }
    return some (.list r)
  | .dict entries => do
    let m ← get
    let (r, heap) := m.world.heap.newDict
      (entries.foldl (fun t e => t.insert e.1 (e.2.value answers m.world.heap)) .empty)
    set { m with world := { m.world with heap } }
    return some (.dict r)

/-! ## Evaluators side by side -/

/-- An evaluator without the heap: its names, its outside, what its host keeps, and the answers so far. -/
structure Seat (σ : Type) where
  env : Environment := {}
  context : Context
  host : σ
  answers : List Answer := []

/-- The evaluator with the heap. -/
def Seat.machine {σ : Type} (s : Seat σ) (h : Heap) : Machine σ :=
  ⟨s.env, ⟨h, s.context, s.host⟩⟩

/-- Evaluators side by side, and the heap that all of them use. -/
structure Shared {ι : Type} (σ : ι → Type) where
  heap : Heap
  seats : ∀ i, Seat (σ i)

variable {ι : Type} [DecidableEq ι] {σ : ι → Type}

namespace Shared

variable (hosts : ∀ i, Host (σ i)) (fuel : Nat)

/-- Does something to one of the evaluators. -/
def step (T : Shared σ) (s : ι × Action) : Shared σ :=
  let seat := T.seats s.1
  let (answer, m) := (seat.machine T.heap).perform (act (hosts s.1) fuel seat.answers s.2)
  { heap := m.world.heap
    seats := Function.update T.seats s.1 ⟨m.env, m.world.context, m.world.host, seat.answers ++ [answer]⟩ }

/-- Does one thing after the other. -/
def run (T : Shared σ) (steps : List (ι × Action)) : Shared σ :=
  steps.foldl (step hosts fuel) T

end Shared

/-- The steps of one of the evaluators, in the same order. -/
def alone (i : ι) (steps : List (ι × Action)) : List (ι × Action) :=
  steps.filter (·.1 = i)

/-! ## What is the same but for the containers -/

section

variable {σ : Type} {M : Memory σ} {ρ ρ₁ : Renaming} {answers answers' : List Answer} {h h' : Heap}

/-- The answers are the same but for the containers. -/
def LikeAnswers (ρ : Renaming) : List Answer → List Answer → Prop :=
  Forall₂ (Agree (Option.Rel ρ.Like))

theorem LikeAnswers.mono (hρ : ρ ≤ ρ₁) (h : LikeAnswers ρ answers answers') : LikeAnswers ρ₁ answers answers' :=
  h.imp fun _ _ ha => ha.imp fun _ _ => Renaming.rel_mono hρ

/-- The evaluators are the same but for the containers. -/
structure Seat.Alike (M : Memory σ) (ρ : Renaming) (s s' : Seat σ) : Prop where
  bindings : ρ.LikeEntries s.env.bindings s'.env.bindings
  functions : s.env.functions = s'.env.functions
  context : s.context = s'.context
  host : M.alike ρ s.host s'.host
  answers : LikeAnswers ρ s.answers s'.answers

theorem Seat.Alike.machine {s s' : Seat σ} (hs : s.Alike M ρ s') (hh : Heap.Alike ρ h h') :
    Machine.Alike M ρ (s.machine h) (s'.machine h') :=
  ⟨hs.bindings, hs.functions, hh, hs.context, hs.host⟩

theorem getElem?_rel {α β : Type} {R : α → β → Prop} {xs : List α} {ys : List β} (hxs : Forall₂ R xs ys) (n : Nat) :
    Option.Rel R xs[n]? ys[n]? := by
  induction hxs generalizing n with
  | nil => exact .none
  | cons hxy _ ih =>
    cases n with
    | zero => exact .some hxy
    | succ n => exact ih n

/-- What is passed in is the same but for the containers. -/
theorem Source.value_like (hanswers : LikeAnswers ρ answers answers') (hh : Heap.Alike ρ h h') (s : Source)
    (hgivens : ∀ v ∈ s.givens, ρ.Like v v) : ρ.Like (s.value answers h) (s.value answers' h') := by
  induction s with
  | given v => exact hgivens v (List.mem_singleton_self v)
  | answer n =>
    have hanswer := getElem?_rel hanswers n
    rw [value, value]
    generalize answers[n]? = a, answers'[n]? = a' at hanswer
    cases hanswer with
    | none => exact .null
    | some hanswer =>
      cases hanswer with
      | error e => exact .null
      | ok hv => exact Renaming.getD_like hv
  | item s n ih =>
    have hs := ih hgivens
    rw [value, value]
    generalize s.value answers h = v, s.value answers' h' = w at hs
    cases hs with
    | list hrs => exact Renaming.getD_like (getElem?_rel (hh.items hrs) n)
    | _ => exact .null
  | entry s key ih =>
    have hs := ih hgivens
    rw [value, value]
    generalize s.value answers h = v, s.value answers' h' = w at hs
    cases hs with
    | dict hrs => exact Renaming.getD_like (hh.entries hrs key)
    | _ => exact .null

theorem act_blind {host : Host σ} (hhost : host.Blind M) (fuel : Nat) (hanswers : LikeAnswers ρ answers answers')
    (a : Action) (hgivens : ∀ v ∈ a.givens, ρ.Like v v) :
    Eval.Blind M ρ (fun ρ => Option.Rel ρ.Like) (act host fuel answers a) (act host fuel answers' a) := by
  cases a with
  | run text => exact (Eval.source_blind hhost fuel text).bind fun _ _ _ _ hv => .pure (.some hv)
  | set name s =>
    refine .get_bind fun m m' hm => ?_
    have hv := s.value_like hanswers hm.world.heap hgivens
    exact (Eval.set_blind name hv).bind fun _ _ _ _ _ => .pure .none
  | define name id => exact (Eval.define_blind name _).bind fun _ _ _ _ _ => .pure .none
  | get name => exact .get_bind fun m m' hm => .pure (hm.bindings name)
  | list items =>
    intro m m' hm
    have hitems : Forall₂ ρ.Like (items.map (·.value answers m.world.heap))
        (items.map (·.value answers' m'.world.heap)) :=
      List.forall₂_map_left_iff.2 (List.forall₂_map_right_iff.2 (List.forall₂_same.2 fun s hs =>
        s.value_like hanswers hm.world.heap fun v hv => hgivens v (List.mem_flatMap.2 ⟨s, hs, hv⟩)))
    obtain ⟨ρ₁, hmoves, hmaps⟩ := hm.world.heap.newList hitems
    exact ⟨ρ₁, hm.moves_world (hm.world.moves_heap hmoves), .ok (.some (.list hmaps))⟩
  | dict entries =>
    intro m m' hm
    have hentries : ρ.LikeEntries
        (entries.foldl (fun t e => t.insert e.1 (e.2.value answers m.world.heap)) .empty)
        (entries.foldl (fun t e => t.insert e.1 (e.2.value answers' m'.world.heap)) .empty) := by
      refine List.foldl_rel (fun key => .none) fun e he t u htu => htu.insert e.1 ?_
      exact e.2.value_like hanswers hm.world.heap fun v hv => hgivens v (List.mem_flatMap.2 ⟨e, he, hv⟩)
    obtain ⟨ρ₁, hmoves, hmaps⟩ := hm.world.heap.newDict hentries
    exact ⟨ρ₁, hm.moves_world (hm.world.moves_heap hmoves), .ok (.some (.dict hmaps))⟩

end

/-! ## Side by side and alone -/

variable {hosts : ∀ i, Host (σ i)} {M : ∀ i, Memory (σ i)} {ρ : ι → Renaming} {T : Shared σ} {U : ι → Shared σ}

/-- The system does for each evaluator what another one does that is its own. No container of the system
stands for any in two of these. -/
structure Follows (M : ∀ i, Memory (σ i)) (ρ : ι → Renaming) (T : Shared σ) (U : ι → Shared σ) : Prop where
  heap : ∀ i, Heap.Alike (ρ i) T.heap (U i).heap
  seats : ∀ i, (T.seats i).Alike (M i) (ρ i) ((U i).seats i)
  apart : ∀ {i j c d e}, (ρ i).maps c d → (ρ j).maps c e → i = j

/-- What is done to one of the evaluators leaves the others alone. -/
theorem Follows.step (hT : Follows M ρ T U) (hhosts : ∀ i, (hosts i).Blind (M i)) (fuel : Nat) (i : ι) (a : Action)
    (hgivens : ∀ v ∈ a.givens, (ρ i).Like v v) : ∃ ρ' : ι → Renaming, (∀ j, ρ j ≤ ρ' j) ∧
      Follows M ρ' (T.step hosts fuel (i, a)) fun j => if i = j then (U j).step hosts fuel (i, a) else U j := by
  have hact := act_blind (hhosts i) fuel (hT.seats i).answers a hgivens
  obtain ⟨ρ₁, hmoves, hagree⟩ := hact _ _ ((hT.seats i).machine (hT.heap i))
  have hle := hmoves.heap.le
  -- what comes to stand for something is new, so that it stands for nothing in the others
  have hapart {j : ι} {c d e : Container} (hd : ρ₁.maps c d) (he : (ρ j).maps c e) : j = i := by
    rcases hmoves.heap.fresh hd with hd | ⟨hc, -⟩
    · exact hT.apart he hd
    · exact (hc ((hT.heap j).has he).1).elim
  have hseat : ((T.step hosts fuel (i, a)).seats i).Alike (M i) ρ₁ (((U i).step hosts fuel (i, a)).seats i) := by
    simp only [Shared.step, Function.update_self]
    refine ⟨hmoves.alike.bindings, hmoves.alike.functions, hmoves.alike.world.context, hmoves.alike.world.host, ?_⟩
    exact List.rel_append ((hT.seats i).answers.mono hle) (.cons hagree .nil)
  have hof {j : ι} {c d : Container} (hd : (Function.update ρ i ρ₁ j).maps c d) :
      j = i ∧ ρ₁.maps c d ∨ j ≠ i ∧ (ρ j).maps c d := by
    by_cases hj : j = i
    · subst hj
      exact .inl ⟨rfl, by rwa [Function.update_self] at hd⟩
    · exact .inr ⟨hj, by rwa [Function.update_of_ne hj] at hd⟩
  refine ⟨Function.update ρ i ρ₁, ?_, ?_, ?_, fun {j k c d e} hd he => ?_⟩
  · exact (Function.forall_update_iff ρ fun j r => ρ j ≤ r).2 ⟨hle, fun j _ => le_refl _⟩
  · refine (Function.forall_update_iff ρ fun j r => Heap.Alike r _ (ite (i = j) _ _ : Shared σ).heap).2
      ⟨?_, fun j hj => ?_⟩
    · rw [if_pos rfl]
      exact hmoves.alike.world.heap
    · rw [if_neg hj.symm]
      refine (hT.heap j).of_same hmoves.heap.has fun c d hcd => ?_
      exact hmoves.heap.same c ((hT.heap j).has hcd).1 fun e he => hj (hT.apart hcd he)
  · refine (Function.forall_update_iff ρ fun j r => Seat.Alike (M j) r _ ((ite (i = j) _ _ : Shared σ).seats j)).2
      ⟨?_, fun j hj => ?_⟩
    · rw [if_pos rfl]
      exact hseat
    · have hkept : (T.step hosts fuel (i, a)).seats j = T.seats j := Function.update_of_ne hj ..
      rw [if_neg hj.symm, hkept]
      exact hT.seats j
  · rcases hof hd with ⟨hj, hd⟩ | ⟨hj, hd⟩ <;> rcases hof he with ⟨hk, he⟩ | ⟨hk, he⟩
    · exact hj.trans hk.symm
    · exact (hk (hapart hd he)).elim
    · exact (hj (hapart he hd)).elim
    · exact hT.apart hd he

/-- Whatever is done, each evaluator follows its own steps. -/
theorem Follows.run (hT : Follows M ρ T U) (hhosts : ∀ i, (hosts i).Blind (M i)) (fuel : Nat)
    (steps : List (ι × Action)) (hgivens : ∀ s ∈ steps, ∀ v ∈ s.2.givens, (ρ s.1).Like v v) :
    ∃ ρ' : ι → Renaming, Follows M ρ' (T.run hosts fuel steps) fun i => (U i).run hosts fuel (alone i steps) := by
  induction steps generalizing ρ T U with
  | nil => exact ⟨ρ, hT⟩
  | cons s steps ih =>
    obtain ⟨i, a⟩ := s
    obtain ⟨ρ₁, hle, hstep⟩ := hT.step hhosts fuel i a (hgivens _ List.mem_cons_self)
    have hlater : ∀ s ∈ steps, ∀ v ∈ s.2.givens, (ρ₁ s.1).Like v v :=
      fun s hs v hv => (hgivens s (List.mem_cons_of_mem _ hs) v hv).mono (hle _)
    obtain ⟨ρ₂, hrun⟩ := ih hstep hlater
    have halone (j : ι) : (U j).run hosts fuel (alone j ((i, a) :: steps)) =
        (if i = j then (U j).step hosts fuel (i, a) else U j).run hosts fuel (alone j steps) := by
      by_cases hij : i = j <;> simp [alone, Shared.run, hij]
    refine ⟨ρ₂, ?_⟩
    simp only [halone]
    exact hrun

/-! ## Evaluators that have no container in common -/

/-- The values that one of the evaluators has at first, or is passed by one of the steps. -/
inductive Shared.Root (M : ∀ i, Memory (σ i)) (T : Shared σ) (steps : List (ι × Action)) (i : ι) : Value → Prop
  | bound {name : String} {v : Value} : (T.seats i).env.get? name = some v → Root M T steps i v
  | answered {v : Value} : .ok (some v) ∈ (T.seats i).answers → Root M T steps i v
  | held {v : Value} : (M i).holds (T.seats i).host v → Root M T steps i v
  | passed {a : Action} {v : Value} : (i, a) ∈ steps → v ∈ a.givens → Root M T steps i v

/-- The container is one of these values, or lies in one at any depth. -/
def Shared.Reaches (M : ∀ i, Memory (σ i)) (T : Shared σ) (steps : List (ι × Action)) (i : ι)
    (c : Container) : Prop :=
  ∃ v, T.Root M steps i v ∧ ReflTransGen T.heap.Inside c.value v

/-- Each container that is reached is there, and is reached from one of the evaluators only. -/
structure Shared.Separate (M : ∀ i, Memory (σ i)) (T : Shared σ) (steps : List (ι × Action)) : Prop where
  has : ∀ {i c}, T.Reaches M steps i c → T.heap.Has c
  apart : ∀ {i j c}, T.Reaches M steps i c → T.Reaches M steps j c → i = j

/-- Each container that is reached stands for itself. -/
def Shared.itself (M : ∀ i, Memory (σ i)) (T : Shared σ) (steps : List (ι × Action)) (i : ι) : Renaming where
  maps c d := T.Reaches M steps i c ∧ c = d
  inj := by
    rintro c c' d d' ⟨-, rfl⟩ ⟨-, rfl⟩
    rfl

section

variable {steps : List (ι × Action)}

omit [DecidableEq ι] in
theorem Shared.like_itself {i : ι} {v w : Value} (hw : T.Root M steps i w) (hv : ReflTransGen T.heap.Inside v w) :
    (T.itself M steps i).Like v v := by
  cases v with
  | list r => exact .list ⟨⟨w, hw, hv⟩, rfl⟩
  | dict r => exact .dict ⟨⟨w, hw, hv⟩, rfl⟩
  | _ => constructor

omit [DecidableEq ι] in
/-- A system without common containers begins as one that does for each evaluator what it does itself. -/
theorem Shared.Separate.follows (hT : T.Separate M steps) : Follows M (T.itself M steps) T fun _ => T where
  heap i := {
    has := by
      rintro c _ ⟨hc, rfl⟩
      exact ⟨hT.has hc, hT.has hc⟩
    items := by
      rintro r _ ⟨⟨w, hw, hr⟩, ⟨⟩⟩
      exact List.forall₂_same.2 fun v hv => like_itself hw (.head ⟨.list r, rfl, hv⟩ hr)
    entries := by
      rintro r _ ⟨⟨w, hw, hr⟩, ⟨⟩⟩ key
      cases hkey : (T.heap.entries r).get? key with
      | none => exact .none
      | some v => exact .some (like_itself hw (.head ⟨.dict r, rfl, Table.mem_values_of_get? hkey⟩ hr)) }
  seats i := {
    bindings := fun name => by
      cases hname : (T.seats i).env.bindings.get? name with
      | none => exact .none
      | some v => exact .some (like_itself (.bound hname) .refl)
    functions := rfl
    context := rfl
    host := (M i).refl fun v hv => like_itself (.held hv) .refl
    answers := by
      refine List.forall₂_same.2 fun answer hanswer => ?_
      rcases answer with e | _ | v
      · exact .error e
      · exact .ok .none
      · exact .ok (.some (like_itself (.answered hanswer) .refl)) }
  apart hc hd := hT.apart hc.1 hd.1

/-- Where evaluators have no container in common, each is left, whatever steps are done to all of them, as if
only its own steps had been done: its answers, failures among them, its variables, what was written, read and
drawn, and what its host keeps are the same but for which container is which. -/
theorem alike_alone (hhosts : ∀ i, (hosts i).Blind (M i)) (fuel : Nat) (hT : T.Separate M steps) (i : ι) :
    ∃ ρ : Renaming,
      Heap.Alike ρ (T.run hosts fuel steps).heap (T.run hosts fuel (alone i steps)).heap ∧
        ((T.run hosts fuel steps).seats i).Alike (M i) ρ ((T.run hosts fuel (alone i steps)).seats i) := by
  have hgivens : ∀ s ∈ steps, ∀ v ∈ s.2.givens, (T.itself M steps s.1).Like v v :=
    fun s hs v hv => Shared.like_itself (.passed hs hv) .refl
  obtain ⟨ρ, hρ⟩ := hT.follows.run hhosts fuel steps hgivens
  exact ⟨ρ i, hρ.heap i, hρ.seats i⟩

end

/-! ## Two evaluators -/

/-- What a host keeps that keeps one value. -/
def oneValue : Memory Value where
  holds s v := v = s
  alike ρ := ρ.Like
  mono := Renaming.Like.mono
  refl h := h _ rfl

/-- A host with one function, which gives the value that it kept and keeps its first argument. -/
def keeper : Host Value := fun _ _ args => do
  let w ← get
  set { w with host := args.head?.getD .null }
  return w.host

theorem keeper_blind : keeper.Blind oneValue := by
  intro id call _ ρ args args' hargs w w' hw
  exact ⟨ρ, ⟨hw.heap.moves_refl, hw.context, Lists.head?_like hargs⟩, .ok hw.host⟩

/-- Two evaluators, each of which has a list of its own. -/
def pair : Shared fun _ : Bool => Value where
  heap := { lists := #[[], []] }
  seats i :=
    { env := { bindings := Table.empty.insert "x" (.list ⟨i.toNat⟩) }
      context := { draws := ⟨fun _ => 0, 0⟩, clock := ⟨fun _ => 0, 0⟩ }
      host := .null }

/-- Steps of both in turns. -/
def turns : List (Bool × Action) :=
  [(false, .define "keep" 0), (true, .define "keep" 0), (false, .list [.given (.int 1)]), (true, .list []),
    (false, .set "y" (.answer 1)), (true, .run "|keep:!x"), (false, .run "|push:!y:!x\n|keep:!y"),
    (true, .set "y" (.answer 1)), (true, .run "|push:!y:|keep:!y"), (false, .get "y"), (true, .get "y")]

theorem pair_separate : pair.Separate (fun _ => oneValue) turns := by
  have hempty (v w : Value) : ¬pair.heap.Inside v w := by
    rintro ⟨⟨_ | _ | _⟩ | _, -, hv⟩ <;> cases hv
  have hgivens : turns.flatMap (·.2.givens) = [.int 1] := rfl
  have hreaches {i : Bool} {c : Container} (hc : pair.Reaches (fun _ => oneValue) turns i c) :
      c = .list ⟨i.toNat⟩ := by
    obtain ⟨v, hroot, hv⟩ := hc
    obtain rfl | ⟨w, hinside, -⟩ := hv.cases_head
    · cases hroot with
      | @bound name _ hname =>
        have hname : (Table.empty.insert "x" (.list ⟨i.toNat⟩)).get? name = some c.value := hname
        rw [Table.get?_insert, Table.get?_empty] at hname
        split at hname <;> cases c <;> cases hname
        rfl
      | answered hanswer => cases hanswer
      | held hheld => cases c <;> cases hheld
      | passed hstep hgiven =>
        have hmem : c.value ∈ turns.flatMap (·.2.givens) := List.mem_flatMap.2 ⟨_, hstep, hgiven⟩
        rw [hgivens] at hmem
        cases c <;> cases List.mem_singleton.1 hmem
    · exact (hempty _ _ hinside).elim
  refine ⟨fun {i c} hc => ?_, fun {i j c} hc hd => ?_⟩
  · rw [hreaches hc]
    cases i <;> decide
  · have hij := (hreaches hc).symm.trans (hreaches hd)
    cases i <;> cases j <;> first | rfl | cases hij

theorem alike_alone_keepers : keeper.Blind oneValue ∧ pair.Separate (fun _ => oneValue) turns ∧
    ∃ ρ : Renaming,
      Heap.Alike ρ (pair.run (fun _ => keeper) 100 turns).heap
        (pair.run (fun _ => keeper) 100 (alone true turns)).heap ∧
      ((pair.run (fun _ => keeper) 100 turns).seats true).Alike oneValue ρ
        ((pair.run (fun _ => keeper) 100 (alone true turns)).seats true) :=
  ⟨keeper_blind, pair_separate, alike_alone (fun _ => keeper_blind) 100 pair_separate true⟩

-- the list that the second evaluator is to be passed is another container when the first one has none made
example : ((pair.run (fun _ => keeper) 100 (turns.take 4)).seats true).answers =
    [.ok none, .ok (some (.list ⟨3⟩))] := rfl

example : ((pair.run (fun _ => keeper) 100 (alone true (turns.take 4))).seats true).answers =
    [.ok none, .ok (some (.list ⟨2⟩))] := rfl

end PipeScript.Sharing
