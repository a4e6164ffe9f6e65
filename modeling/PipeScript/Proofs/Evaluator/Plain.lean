/-
Scripts where the host has given no functions. No function of the language makes a function or a
dictionary, so where no variable reaches one, none is ever reached: whatever is evaluated comes to an end
without any function being called but by its name, in the same way for every host and with the least
amount of fuel. That holds of all scripts, nested as they may be, and not only of those that are read.
-/
import PipeScript.Proofs.Builtin.Change
import PipeScript.Proofs.Evaluator.Steps

namespace PipeScript

variable {σ α β : Type}

namespace Heap

variable {h h' : Heap} {b : Builtin} {args : List Value} {v : Value}

theorem AtHand.plain (hv : h.AtHand args v) (hargs : ∀ a ∈ args, h.Plain a) : h.Plain v := by
  cases hv with
  | leaf hv => exact plain_of_isLeaf hv
  | argument hv => exact hargs v hv
  | inside ha hv => exact (hargs _ ha).inside hv

theorem Plain.items {r : ListRef} (hr : h.Plain (.list r)) : ∀ v ∈ h.items r, h.Plain v :=
  fun _ hv => hr.inside (inside_list_iff.2 hv)

theorem plain_getD {o : Option Value} (ho : ∀ v ∈ o, h.Plain v) : h.Plain (o.getD .null) := by
  cases o with
  | none => exact plain_of_isLeaf trivial
  | some v => exact ho v rfl

end Heap

theorem NoFunction.of_plain {h : Heap} {args : List Value} (hargs : ∀ a ∈ args, h.Plain a) : NoFunction args :=
  fun _ hf => (hargs _ hf).isPlain

/-- Of plain arguments a function of the language makes a plain value, and what was plain still is. -/
theorem Builtin.Change.plain {h h' : Heap} {b : Builtin} {args : List Value} {v : Value}
    (hc : b.Change h args v h') (hargs : ∀ a ∈ args, h.Plain a) : h.Keeps h' ∧ h'.Plain v := by
  cases hc with
  | leaf hv => exact ⟨.refl h, Heap.plain_of_isLeaf hv⟩
  | found _ hv => exact ⟨.refl h, hv.plain hargs⟩
  | made _ hxs => exact Heap.plain_newList fun x hx => (hxs x hx).plain hargs
  | @pushed r v =>
    have hr : h.Plain (.list r) := hargs _ (by simp)
    have hv : h.Plain v := hargs _ (by simp)
    have hitems : ∀ x ∈ h.items r ++ [v], h.Plain x :=
      List.forall_mem_append.2 ⟨hr.items, List.forall_mem_singleton.2 hv⟩
    exact ⟨Heap.keeps_setItems r hitems, Heap.keeps_setItems r hitems _ hr⟩
  | @unshifted r v =>
    have hr : h.Plain (.list r) := hargs _ (by simp)
    have hv : h.Plain v := hargs _ (by simp)
    have hitems : ∀ x ∈ v :: h.items r, h.Plain x := List.forall_mem_cons.2 ⟨hv, hr.items⟩
    exact ⟨Heap.keeps_setItems r hitems, Heap.keeps_setItems r hitems _ hr⟩
  | @popped r =>
    have hr : h.Plain (.list r) := hargs _ (by simp)
    have hkeeps := Heap.keeps_setItems r fun x hx => hr.items x (List.mem_of_mem_dropLast hx)
    exact ⟨hkeeps, hkeeps _ (Heap.plain_getD fun v hv => hr.items v (List.mem_of_getLast? hv))⟩
  | @shifted r =>
    have hr : h.Plain (.list r) := hargs _ (by simp)
    have hkeeps := Heap.keeps_setItems r fun x hx => hr.items x (List.mem_of_mem_tail hx)
    exact ⟨hkeeps, hkeeps _ (Heap.plain_getD fun v hv => hr.items v (List.mem_of_head? hv))⟩
  | entered => exact (hargs _ List.mem_cons_self).isPlain.elim
  | refused _ => exact ⟨.refl h, hargs _ List.mem_cons_self⟩

/-! ## Machines -/

namespace Machine

/-- The host has given no functions, and every variable has a plain value. -/
structure Plain (m : Machine σ) : Prop where
  functions : ∀ name, m.env.functions.get? name = none
  bindings : ∀ name v, m.env.get? name = some v → m.world.heap.Plain v

theorem Plain.set {m : Machine σ} (hm : m.Plain) (name : String) {v : Value} (hv : m.world.heap.Plain v) :
    Plain { m with env := m.env.set name v } where
  functions := hm.functions
  bindings other w hw := by
    rw [Environment.get?_set] at hw
    split at hw
    · cases hw
      exact hv
    · exact hm.bindings other w hw

/-- For every host and with any fuel there is the same result and the same machine after it, which is
plain again. What was plain before still is, and a value is as described. -/
structure SettlesTo (m : Machine σ) (e : Host σ → Nat → Eval σ α) (P : Heap → α → Prop)
    (result : Except Halt α) (m' : Machine σ) : Prop where
  perform : ∀ host fuel, 0 < fuel → m.perform (e host fuel) = (result, m')
  plain : m'.Plain
  keeps : m.world.heap.Keeps m'.world.heap
  value : ∀ a, result = .ok a → P m'.world.heap a
  ends : result ≠ .error .exhausted

/-- It comes to an end, whatever the host. -/
def Settles (m : Machine σ) (e : Host σ → Nat → Eval σ α) (P : Heap → α → Prop) : Prop :=
  ∃ result m', m.SettlesTo e P result m'

variable {m : Machine σ} {P : Heap → α → Prop} {R : Heap → β → Prop}

theorem Settles.pure (hm : m.Plain) {a : α} (ha : P m.world.heap a) : m.Settles (fun _ _ => pure a) P := by
  refine ⟨.ok a, m, fun _ _ _ => rfl, hm, .refl _, ?_, nofun⟩
  rintro _ ⟨⟩
  exact ha

theorem Settles.congr {e e' : Host σ → Nat → Eval σ α} (he : m.Settles e P)
    (hee' : ∀ host fuel, 0 < fuel → m.perform (e' host fuel) = m.perform (e host fuel)) : m.Settles e' P := by
  obtain ⟨result, m', hperform, hplain, hkeeps, hvalue, hends⟩ := he
  refine ⟨result, m', fun host fuel hfuel => ?_, hplain, hkeeps, hvalue, hends⟩
  rw [hee' host fuel hfuel, hperform host fuel hfuel]

theorem Settles.bind {e : Host σ → Nat → Eval σ α} {f : Host σ → Nat → α → Eval σ β} (he : m.Settles e P)
    (hf : ∀ m' : Machine σ, m'.Plain → m.world.heap.Keeps m'.world.heap → ∀ a, P m'.world.heap a →
      m'.Settles (fun host fuel => f host fuel a) R) :
    m.Settles (fun host fuel => e host fuel >>= f host fuel) R := by
  obtain ⟨h | a, m', hperform, hplain, hkeeps, hvalue, hends⟩ := he
  · refine ⟨.error h, m', fun host fuel hfuel => ?_, hplain, hkeeps, nofun, ?_⟩
    · rw [perform_bind, hperform host fuel hfuel]
    · rintro ⟨⟩
      exact hends rfl
  · obtain ⟨result, m'', hperform', hplain', hkeeps', hvalue', hends'⟩ := hf m' hplain hkeeps a (hvalue a rfl)
    refine ⟨result, m'', fun host fuel hfuel => ?_, hplain', hkeeps.trans hkeeps', hvalue', hends'⟩
    rw [perform_bind, hperform host fuel hfuel]
    exact hperform' host fuel hfuel

end Machine

namespace Eval

open Machine

variable {m : Machine σ}

theorem calling_settles (hm : m.Plain) (name : String) {r : Run σ Value}
    (hr : r.Within m.world.heap fun v h => m.world.heap.Keeps h ∧ h.Plain v) :
    m.Settles (fun _ _ => calling name r) Heap.Plain := by
  have hends := hr m.world rfl
  have hcalling := perform_calling m name r
  rcases hrun : r.run.run m.world with ⟨(_ | e) | v, world⟩ <;> rw [hrun] at hends hcalling
  · exact hends.elim
  · have hheap : world.heap = m.world.heap := hends
    refine ⟨_, _, fun _ _ _ => hcalling, ⟨hm.functions, fun name v hv => ?_⟩, ?_, nofun, nofun⟩
    · exact hheap ▸ hm.bindings name v hv
    · exact hheap ▸ .refl m.world.heap
  · obtain ⟨hkeeps, hv⟩ : m.world.heap.Keeps world.heap ∧ world.heap.Plain v := hends
    refine ⟨_, _, fun _ _ _ => hcalling, ⟨hm.functions, fun name w hw => ?_⟩, hkeeps, ?_, nofun⟩
    · exact hkeeps w (hm.bindings name w hw)
    · rintro _ ⟨⟩
      exact hv

/-- A function of the language comes to an end, and there is no other. -/
theorem call_settles (hm : m.Plain) (name : String) {args : List Value}
    (hargs : ∀ a ∈ args, m.world.heap.Plain a) :
    m.Settles (fun host fuel => call host fuel name args) Heap.Plain := by
  cases hname : Builtin.ofName? name with
  | none =>
    have hnone : m.env.function? name = none := by
      rw [Environment.function?, hname]
      exact hm.functions name
    refine ⟨.error (.failed (.unresolved name)), m, fun host fuel _ => ?_, hm, .refl _, nofun, nofun⟩
    rw [perform_call, hnone]
  | some b =>
    have hsome : m.env.function? name = some (.ofBuiltin b) := by rw [Environment.function?, hname]
    have hno := NoFunction.of_plain hargs
    -- it is as without any fuel, where no function can be called
    have hrun := calling_settles hm name
      ((b.run_within hno 0 (fun _ _ => throw .exhausted) _).imp fun _ _ hc => hc.plain hargs)
    refine hrun.congr fun host fuel hfuel => ?_
    obtain ⟨fuel, rfl⟩ := Nat.exists_eq_succ_of_ne_zero hfuel.ne'
    rw [perform_call, hsome]
    exact congrArg (fun r => m.perform (calling name r)) (b.run_eq_of_noFunction hno _ _ _ _)

/-! ## Nodes -/

mutual

/-- Every node comes to an end, with a plain value if it has one. -/
theorem node_settles (n : Node) {m : Machine σ} (hm : m.Plain) :
    m.Settles (fun host fuel => node host fuel n) Heap.Plain := by
  cases n with
  | literal l =>
    have hl : m.world.heap.Plain (.ofLiteral l) := Heap.plain_of_isLeaf (by cases l <;> trivial)
    exact (Settles.pure hm hl).congr fun host fuel _ => perform_literal host fuel m l
  | «variable» name =>
    have hv : m.world.heap.Plain ((m.env.get? name).getD .null) :=
      Heap.plain_getD fun v hv => hm.bindings name v hv
    exact (Settles.pure hm hv).congr fun host fuel _ => perform_variable host fuel m name
  | assign name value =>
    simp only [node]
    refine (node_settles value hm).bind fun m' hm' _ v hv => ?_
    refine ⟨.ok v, { m' with env := m'.env.set name v }, fun _ _ _ => rfl, hm'.set name hv, .refl _, ?_, nofun⟩
    rintro _ ⟨⟩
    exact hv
  | call name args =>
    simp only [node]
    exact (nodes_settles args hm).bind fun m' hm' _ vs hvs => call_settles hm' name hvs

theorem nodes_settles (ns : List Node) {m : Machine σ} (hm : m.Plain) :
    m.Settles (fun host fuel => nodes host fuel ns) fun h vs => ∀ v ∈ vs, h.Plain v := by
  cases ns with
  | nil =>
    simp only [nodes]
    exact .pure hm nofun
  | cons n ns =>
    simp only [nodes]
    refine (node_settles n hm).bind fun m' hm' _ v hv => ?_
    refine (nodes_settles ns hm').bind fun m'' hm'' hkeeps vs hvs => ?_
    exact .pure hm'' (List.forall_mem_cons.2 ⟨hkeeps v hv, hvs⟩)

end

theorem statements_settles (hm : m.Plain) (p : Program) {last : Value} (hlast : m.world.heap.Plain last) :
    m.Settles (fun host fuel => statements host fuel last p) Heap.Plain := by
  induction p generalizing m last with
  | nil => exact .pure hm hlast
  | cons s p ih => exact (node_settles s hm).bind fun m' hm' _ v hv => ih hm' hv

/-! ## Calls -/

/-- Somewhere in evaluating the nodes one after the other, a function of the name is called with the
values, and then the machine is `m'`. -/
inductive Calls (host : Host σ) (fuel : Nat) (name : String) (vs : List Value) (m' : Machine σ) :
    Machine σ → List Node → Prop
  | call {m : Machine σ} {args ns : List Node} : m.perform (nodes host fuel args) = (.ok vs, m') →
      Calls host fuel name vs m' m (.call name args :: ns)
  | argument {m : Machine σ} {other : String} {args ns : List Node} :
      Calls host fuel name vs m' m args → Calls host fuel name vs m' m (.call other args :: ns)
  | value {m : Machine σ} {other : String} {value : Node} {ns : List Node} :
      Calls host fuel name vs m' m [value] → Calls host fuel name vs m' m (.assign other value :: ns)
  | later {m m₁ : Machine σ} {n : Node} {v : Value} {ns : List Node} :
      m.perform (node host fuel n) = (.ok v, m₁) → Calls host fuel name vs m' m₁ ns →
      Calls host fuel name vs m' m (n :: ns)

theorem Calls.plain {host : Host σ} {fuel : Nat} (hfuel : 0 < fuel) {name : String} {vs : List Value}
    {m' : Machine σ} {ns : List Node} (hcalls : Calls host fuel name vs m' m ns) (hm : m.Plain) :
    m'.Plain ∧ ∀ v ∈ vs, m'.world.heap.Plain v := by
  induction hcalls with
  | @call _ args _ hargs =>
    obtain ⟨_, _, h⟩ := nodes_settles args hm
    cases (h.perform host fuel hfuel).symm.trans hargs
    exact ⟨h.plain, h.value vs rfl⟩
  | argument _ ih => exact ih hm
  | value _ ih => exact ih hm
  | @later _ _ n v _ hn _ ih =>
    obtain ⟨_, _, h⟩ := node_settles n hm
    cases (h.perform host fuel hfuel).symm.trans hn
    exact ih h.plain

end Eval

/-- Where the host has given no functions and no variable reaches a function or a dictionary, every script
comes to an end, in the same way for every host and with any fuel, and so does every source. Afterwards no
variable reaches a function or a dictionary, and the value reaches none. Nor does any argument of any call
on the way, so what is called calls no function: it does the same in whatever way functions are called, and
with any fuel. -/
theorem program_plain {m : Machine σ} (hm : m.Plain) (p : Program) : ∃ result m',
    (∀ host fuel, 0 < fuel → m.perform (Eval.program host fuel p) = (result, m') ∧
      ∀ text, parseSource text = p → m.perform (Eval.source host fuel text) = (result, m')) ∧
    result ≠ .error .exhausted ∧ m'.Plain ∧ (∀ v, result = .ok v → m'.world.heap.Plain v) ∧
    ∀ host fuel name vs m₁, 0 < fuel → Eval.Calls host fuel name vs m₁ m p →
      m₁.Plain ∧ (∀ v ∈ vs, m₁.world.heap.Plain v) ∧
      ∀ b, Builtin.ofName? name = some b → ∀ (call call' : Caller σ) (fuel fuel' : Nat),
        b.run fuel call vs = b.run fuel' call' vs := by
  obtain ⟨result, m', h⟩ := Eval.statements_settles hm p (Heap.plain_of_isLeaf (v := .null) trivial)
  refine ⟨result, m', fun host fuel hfuel => ⟨h.perform host fuel hfuel, ?_⟩, h.ends, h.plain, h.value,
    fun host fuel name vs m₁ hfuel hcalls => ?_⟩
  · rintro text rfl
    exact h.perform host fuel hfuel
  · obtain ⟨hplain, hvs⟩ := hcalls.plain hfuel hm
    refine ⟨hplain, hvs, fun b _ call call' fuel fuel' => ?_⟩
    exact b.run_eq_of_noFunction (.of_plain hvs) fuel fuel' call call'

/-- A variable that is bound to a list with itself in it, beside a dictionary that no variable reaches. -/
def loopMachine : Machine Unit where
  env := Environment.set {} "x" (.list ⟨0⟩)
  world := {
    heap := { lists := #[[.list ⟨0⟩]], dicts := #[.empty] }
    context := { draws := ⟨fun _ => 0, 0⟩, clock := ⟨fun _ => 0, 0⟩ }
    host := () }

/-- A loop over that list, of which the body is what a loop comes to. -/
def nestedLoop : Program :=
  [.assign "y" (.call "for" [.variable "x", .call "while" [.variable "z", .null]])]

theorem nestedLoop_plain : loopMachine.Plain ∧ (∃ m',
    (∀ host fuel, 0 < fuel → loopMachine.perform (Eval.program host fuel nestedLoop) = (.ok (.list ⟨1⟩), m')) ∧
    m'.Plain ∧ m'.env.get? "y" = some (.list ⟨1⟩) ∧ m'.world.heap.Plain (.list ⟨1⟩)) ∧
    Eval.Calls noHost 1 "while" [.null, .null] loopMachine loopMachine nestedLoop ∧
    ∀ call call' fuel fuel', Builtin.whileTrue.run fuel call [.null, .null] =
      (Builtin.whileTrue.run fuel' call' [.null, .null] : Run Unit Value) := by
  have hloop : loopMachine.world.heap.Plain (.list ⟨0⟩) := by
    refine Heap.plain_of_closed (S := (· = .list ⟨0⟩)) ?_ ?_ rfl
    · rintro v rfl
      trivial
    · rintro v w rfl hw
      exact List.mem_singleton.1 (Heap.inside_list_iff.1 hw)
  have hm : loopMachine.Plain := by
    refine ⟨fun _ => rfl, fun name v hv => ?_⟩
    rw [loopMachine, Environment.get?_set] at hv
    split at hv
    · cases hv
      exact hloop
    · cases hv
  have hwhile : Eval.Calls noHost 1 "while" [.null, .null] loopMachine loopMachine
      nestedLoop := .value (.argument (.later rfl (.call rfl)))
  obtain ⟨result, m', hrun, -, hplain, hvalue, hcalls⟩ := program_plain hm nestedLoop
  -- one host and the least fuel tell the result of all
  have hone : _ = (result, m') := (hrun noHost 1 Nat.one_pos).1
  have hresult : result = .ok (.list ⟨1⟩) := (congrArg Prod.fst hone).symm
  have hafter : _ = m' := congrArg Prod.snd hone
  have hy : m'.env.get? "y" = some (.list ⟨1⟩) := by
    rw [← hafter]
    rfl
  subst hresult
  refine ⟨hm, ⟨m', fun host fuel hfuel => (hrun host fuel hfuel).1, hplain, hy, hvalue _ rfl⟩, hwhile, ?_⟩
  exact (hcalls _ 1 _ _ _ Nat.one_pos hwhile).2.2 .whileTrue (by decide)

end PipeScript
