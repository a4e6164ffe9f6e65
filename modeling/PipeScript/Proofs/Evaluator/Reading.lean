/-
What scripts read. The calls of a script are listed in the order in which they are made. Where the host has
given no functions, no function but these is called on the way. So the lines that are taken from the input
are those that the calls give which ask for one, in the order of the calls. A statement that halts takes none.
-/
import PipeScript.Proofs.Builtin.Outside
import PipeScript.Proofs.Evaluator.Halting
import PipeScript.Proofs.Evaluator.Plain

namespace PipeScript

variable {σ : Type}

/-! ## Calls in their order -/

/-- A call that an evaluator makes: of which name, with which values, and the machine right before it. -/
structure Call (σ : Type) where
  name : String
  args : List Value
  machine : Machine σ

/-- The line that a call gives, if it asks for one and there is one. -/
def Call.lines (host : Host σ) (fuel : Nat) (c : Call σ) : List String :=
  if c.name = "input" then
    match (c.machine.perform (Eval.call host fuel c.name c.args)).1 with
    | .ok (.str line) => [line]
    | _ => []
  else []

namespace Eval

open Machine

section

variable (host : Host σ) (fuel : Nat)

mutual

/-- The calls that are made in evaluating a node, the first one first. -/
def nodeCalls (m : Machine σ) : Node → List (Call σ)
  | .literal _ | .variable _ => []
  | .assign _ value => nodeCalls m value
  | .call name args => nodesCalls m args ++
    match m.perform (nodes host fuel args) with
    | (.ok vs, m') => [⟨name, vs, m'⟩]
    | (.error _, _) => []

/-- The calls that are made in evaluating nodes one after the other until one of them halts. -/
def nodesCalls (m : Machine σ) : List Node → List (Call σ)
  | [] => []
  | n :: ns => nodeCalls m n ++
    match m.perform (node host fuel n) with
    | (.ok _, m') => nodesCalls m' ns
    | (.error _, _) => []

end

end

variable {host : Host σ} {fuel : Nat} {m m' : Machine σ} {name : String} {vs : List Value}

theorem nodesCalls_singleton (n : Node) : nodesCalls host fuel m [n] = nodeCalls host fuel m n := by
  rw [nodesCalls]
  rcases m.perform (node host fuel n) with ⟨_ | _, _⟩ <;> simp [nodesCalls]

theorem mem_nodesCalls_of_calls {ns : List Node} (hcalls : Calls host fuel name vs m' m ns) :
    ⟨name, vs, m'⟩ ∈ nodesCalls host fuel m ns := by
  induction hcalls with
  | call hargs =>
    rw [nodesCalls, nodeCalls, hargs]
    simp
  | argument _ ih =>
    rw [nodesCalls, nodeCalls]
    simp [ih]
  | value _ ih =>
    rw [nodesCalls, nodeCalls, ← nodesCalls_singleton]
    simp [ih]
  | later hn _ ih =>
    rw [nodesCalls, hn]
    simp [ih]

mutual

theorem calls_of_mem_nodeCalls (n : Node) {m : Machine σ} {ns : List Node}
    (hmem : ⟨name, vs, m'⟩ ∈ nodeCalls host fuel m n) : Calls host fuel name vs m' m (n :: ns) := by
  cases n with
  | literal _ | «variable» _ =>
    rw [nodeCalls] at hmem
    cases hmem
  | assign other value =>
    rw [nodeCalls] at hmem
    exact .value (calls_of_mem_nodeCalls value hmem)
  | call other args =>
    rw [nodeCalls, List.mem_append] at hmem
    rcases hmem with hmem | hmem
    · exact .argument (calls_of_mem_nodesCalls args hmem)
    · rcases hargs : m.perform (nodes host fuel args) with ⟨_ | ws, m₁⟩
      · rw [hargs] at hmem
        cases hmem
      · rw [hargs] at hmem
        cases List.mem_singleton.1 hmem
        exact .call hargs

theorem calls_of_mem_nodesCalls (ns : List Node) {m : Machine σ}
    (hmem : ⟨name, vs, m'⟩ ∈ nodesCalls host fuel m ns) : Calls host fuel name vs m' m ns := by
  cases ns with
  | nil =>
    rw [nodesCalls] at hmem
    cases hmem
  | cons n ns =>
    rw [nodesCalls, List.mem_append] at hmem
    rcases hmem with hmem | hmem
    · exact calls_of_mem_nodeCalls n hmem
    · rcases hn : m.perform (node host fuel n) with ⟨_ | v, m₁⟩
      · rw [hn] at hmem
        cases hmem
      · rw [hn] at hmem
        exact .later hn (calls_of_mem_nodesCalls ns hmem)

end

/-- The calls that are listed are those that are made. -/
theorem mem_nodesCalls {ns : List Node} :
    ⟨name, vs, m'⟩ ∈ nodesCalls host fuel m ns ↔ Calls host fuel name vs m' m ns :=
  ⟨calls_of_mem_nodesCalls ns, mem_nodesCalls_of_calls⟩

end Eval

/-! ## Readings -/

/-- The host has given no functions, every variable has a plain value, the output accepts what is written to
it, and the input holds the lines. -/
structure Machine.Ready (m : Machine σ) (ls : List String) : Prop where
  plain : m.Plain
  context : m.world.context.Ready ls

/-- On the way from a machine that holds the lines to another the first of them are taken. -/
abbrev Machine.Takes (m : Machine σ) (ls taken : List String) (m' : Machine σ) : Prop :=
  m.world.context.Takes ls taken m'.world.context

/-- From the one machine to the other all is kept but the random draws. -/
structure Machine.Retains (m m' : Machine σ) : Prop where
  env : m'.env = m.env
  heap : m'.world.heap = m.world.heap
  context : m'.world.context = { m.world.context with draws := m'.world.context.draws }

namespace Eval

open Machine

variable {host : Host σ} {fuel : Nat} {m m' : Machine σ} {ls : List String}

/-- A call takes just the line that it gives, if it asks for one. If it halts it leaves nothing behind. -/
theorem call_takes (hm : m.Ready ls) (hfuel : 0 < fuel) {name : String} {args : List Value}
    (hargs : ∀ a ∈ args, m.world.heap.Plain a) :
    m.Takes ls (Call.lines host fuel ⟨name, args, m⟩) (m.perform (call host fuel name args)).2 ∧
      ∀ h m', m.perform (call host fuel name args) = (.error h, m') → m.Retains m' := by
  cases hname : Builtin.ofName? name with
  | none =>
    have hnone : m.env.function? name = none := by
      rw [Environment.function?, hname]
      exact hm.plain.functions name
    have hcall : m.perform (call host fuel name args) = (.error (.failed (.unresolved name)), m) := by
      rw [perform_call, hnone]
    refine ⟨?_, fun h m' hhalt => ?_⟩
    · simp only [Call.lines, hcall, ite_self]
      exact hm.context.takes_refl
    · cases hcall.symm.trans hhalt
      exact ⟨rfl, rfl, rfl⟩
  | some b =>
    have hinput : name = "input" ↔ b = .input := by
      rw [← Builtin.name_of_ofName? hname]
      cases b <;> decide
    obtain ⟨fuel, rfl⟩ := Nat.exists_eq_succ_of_ne_zero hfuel.ne'
    have hno := NoFunction.of_plain hargs
    have hcalls := Builtin.run_calls hno b fuel (host.call fuel) hm.context
    have hends := b.run_within hno fuel (host.call fuel) m.world.heap m.world rfl
    have hcall : m.perform (call host (fuel + 1) name args) =
        m.perform (calling name (b.run fuel (host.call fuel) args)) := by
      rw [perform_call, Environment.function?, hname]
      rfl
    rw [perform_calling] at hcall
    unfold Builtin.CallsIn at hcalls
    rcases hrun : (b.run fuel (host.call fuel) args).run.run m.world with ⟨(_ | e) | v, w⟩ <;>
      rw [hrun] at hcalls hends hcall
    · exact hends.elim
    · refine ⟨?_, fun h m' hhalt => ?_⟩
      · simp only [Call.lines, hcall, ite_self]
        exact hcalls.takes
      · cases hcall.symm.trans hhalt
        exact ⟨rfl, hends, hcalls.failed _ rfl⟩
    · refine ⟨?_, fun h m' hhalt => ?_⟩
      · have hlines : Call.lines host (fuel + 1) ⟨name, args, m⟩ = b.taken (.ok v) := by
          simp only [Call.lines, hcall, hinput]
          cases v <;> simp [Builtin.taken]
        rw [hlines, hcall]
        exact hcalls.takes
      · cases hcall.symm.trans hhalt

mutual

theorem node_takes (hfuel : 0 < fuel) (n : Node) {m : Machine σ} {ls : List String} (hm : m.Ready ls) :
    m.Takes ls ((nodeCalls host fuel m n).flatMap (Call.lines host fuel)) (m.perform (node host fuel n)).2 := by
  cases n with
  | literal l =>
    rw [perform_literal, nodeCalls]
    exact hm.context.takes_refl
  | «variable» name =>
    rw [perform_variable, nodeCalls]
    exact hm.context.takes_refl
  | assign name value =>
    have hvalue := node_takes hfuel value hm
    rw [perform_assign, nodeCalls]
    rcases hrun : m.perform (node host fuel value) with ⟨_ | v, m'⟩ <;> rw [hrun] at hvalue <;> exact hvalue
  | call name args =>
    have htakes := nodes_takes hfuel args hm
    rw [perform_call_node, nodeCalls, List.flatMap_append]
    obtain ⟨result, m', hargs⟩ := nodes_settles args hm.plain
    rw [hargs.perform host fuel hfuel] at htakes ⊢
    cases result with
    | error h => exact htakes.trans hm.context fun rest hrest => hrest.takes_refl
    | ok vs =>
      refine htakes.trans hm.context fun rest hrest => ?_
      rw [List.flatMap_singleton]
      exact (call_takes ⟨hargs.plain, hrest⟩ hfuel (hargs.value vs rfl)).1

theorem nodes_takes (hfuel : 0 < fuel) (ns : List Node) {m : Machine σ} {ls : List String} (hm : m.Ready ls) :
    m.Takes ls ((nodesCalls host fuel m ns).flatMap (Call.lines host fuel)) (m.perform (nodes host fuel ns)).2 := by
  cases ns with
  | nil =>
    rw [nodes, perform_pure, nodesCalls]
    exact hm.context.takes_refl
  | cons n ns =>
    have htakes := node_takes hfuel n hm
    rw [perform_nodes_cons, nodesCalls, List.flatMap_append]
    obtain ⟨result, m', hn⟩ := node_settles n hm.plain
    rw [hn.perform host fuel hfuel] at htakes ⊢
    cases result with
    | error h => exact htakes.trans hm.context fun rest hrest => hrest.takes_refl
    | ok v =>
      refine htakes.trans hm.context fun rest hrest => ?_
      have hothers := nodes_takes hfuel ns ⟨hn.plain, hrest⟩
      dsimp only
      rcases hns : m'.perform (nodes host fuel ns) with ⟨_ | vs, m''⟩ <;> rw [hns] at hothers <;> exact hothers

end

/-- The lines that a script takes are those that its calls give, in the order of the calls. -/
theorem statements_takes (hm : m.Ready ls) (hfuel : 0 < fuel) (last : Value) (p : Program) :
    m.Takes ls ((nodesCalls host fuel m p).flatMap (Call.lines host fuel))
      (m.perform (statements host fuel last p)).2 := by
  induction p generalizing m ls last with
  | nil =>
    rw [statements, perform_pure, nodesCalls]
    exact hm.context.takes_refl
  | cons s p ih =>
    have htakes : m.Takes ls ((nodeCalls host fuel m s).flatMap (Call.lines host fuel))
        (m.perform (node host fuel s)).2 := node_takes hfuel s hm
    rw [perform_statements_cons, nodesCalls, List.flatMap_append]
    obtain ⟨result, m', hs⟩ := node_settles s hm.plain
    rw [hs.perform host fuel hfuel] at htakes ⊢
    cases result with
    | error h => exact htakes.trans hm.context fun rest hrest => hrest.takes_refl
    | ok v => exact htakes.trans hm.context fun rest hrest => ih ⟨hs.plain, hrest⟩ v

/-- A statement that halts leaves nothing behind, except that draws may have been taken. -/
theorem retains_of_line {P : String → Prop} {s : Node} {h : Halt} (hm : m.Ready ls) (hfuel : 0 < fuel)
    (hs : s.Line P) (hhalt : m.perform (node host fuel s) = (.error h, m')) : m.Retains m' := by
  obtain ⟨name, args, vs, hargs, hcall⟩ := exists_call_of_line hs hhalt
  obtain ⟨_, _, hsettles⟩ := nodes_settles args hm.plain
  cases (hsettles.perform host fuel hfuel).symm.trans hargs
  exact (call_takes hm hfuel (hsettles.value vs rfl)).2 h m' hcall

/-- A script that halts leaves what its statements before the one that halts leave. -/
theorem program_retains {P : String → Prop} {p : Program} {h : Halt} (hm : m.Ready ls) (hfuel : 0 < fuel)
    (hlines : ∀ s ∈ p, s.Line P) (hhalt : m.perform (program host fuel p) = (.error h, m')) :
    ∃ done s rest v m₁, p = done ++ s :: rest ∧ m.perform (program host fuel done) = (.ok v, m₁) ∧
      m₁.perform (node host fuel s) = (.error h, m') ∧ m₁.Retains m' := by
  obtain ⟨done, s, rest, v, m₁, rfl, hdone, hs⟩ := exists_halted hhalt
  have htakes : m.Takes ls ((nodesCalls host fuel m done).flatMap (Call.lines host fuel))
      (m.perform (statements host fuel .null done)).2 := statements_takes hm hfuel .null done
  have hnull : m.world.heap.Plain .null := Heap.plain_of_isLeaf trivial
  obtain ⟨_, _, hsettles⟩ := statements_settles hm.plain done hnull
  cases (hsettles.perform host fuel hfuel).symm.trans hdone
  rw [hdone] at htakes
  obtain ⟨_, -, hready⟩ := htakes.ready hm.context
  have hline : s.Line P := hlines s List.mem_append_cons_self
  exact ⟨done, s, rest, v, m₁, rfl, hdone, hs, retains_of_line ⟨hsettles.plain, hready⟩ hfuel hline hs⟩

end Eval

end PipeScript
