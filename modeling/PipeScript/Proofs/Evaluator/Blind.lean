/-
Evaluators that do not tell containers apart by which they are. Two evaluators that are the same but for the
containers, with worlds that are so, too, come to the same: they halt in the same way, or at values that are
the same but for the containers, and what they leave behind is again the same but for these.
-/
import PipeScript.Proofs.Builtin.Blind
import PipeScript.Proofs.Evaluator.Steps

namespace PipeScript

open List (Forall₂)

variable {σ α β γ δ : Type} {M : Memory σ} {ρ ρ₁ : Renaming}

namespace Machine

/-- The machines are the same but for the containers. -/
structure Alike (M : Memory σ) (ρ : Renaming) (m m' : Machine σ) : Prop where
  bindings : ρ.LikeEntries m.env.bindings m'.env.bindings
  functions : m.env.functions = m'.env.functions
  world : World.Alike M ρ m.world m'.world

/-- Two machines that are alike become two that are alike. -/
structure Moves (M : Memory σ) (ρ : Renaming) (m m' : Machine σ) (ρ₁ : Renaming) (m₁ m₁' : Machine σ) : Prop where
  heap : Heap.Moves ρ m.world.heap m'.world.heap ρ₁ m₁.world.heap m₁'.world.heap
  alike : Alike M ρ₁ m₁ m₁'

variable {m m' : Machine σ}

theorem Alike.moves_refl (hm : Alike M ρ m m') : Moves M ρ m m' ρ m m' :=
  ⟨hm.world.heap.moves_refl, hm⟩

/-- What changes the worlds alike leaves the machines alike. -/
theorem Alike.moves_world (hm : Alike M ρ m m') {w w' : World σ} (hw : World.Moves M ρ m.world m'.world ρ₁ w w') :
    Moves M ρ m m' ρ₁ { m with world := w } { m' with world := w' } :=
  ⟨hw.heap, hm.bindings.mono hw.heap.le, hm.functions, hw.alike⟩

/-- Changes of the environments that leave these alike leave the machines alike. -/
theorem Alike.moves_env (hm : Alike M ρ m m') {env env' : Environment}
    (hbindings : ρ.LikeEntries env.bindings env'.bindings) (hfunctions : env.functions = env'.functions) :
    Moves M ρ m m' ρ { m with env } { m' with env := env' } :=
  ⟨hm.world.heap.moves_refl, hbindings, hfunctions, hm.world⟩

theorem Alike.function?_eq (hm : Alike M ρ m m') (name : String) : m.env.function? name = m'.env.function? name := by
  rw [Environment.function?, Environment.function?, hm.functions]

end Machine

namespace Eval

/-- Evaluators that are alike do the same, and what they come to is related. -/
def Blind (M : Memory σ) (ρ : Renaming) (Q : Renaming → α → β → Prop) (e : Eval σ α) (e' : Eval σ β) : Prop :=
  ∀ m m', Machine.Alike M ρ m m' → ∃ ρ₁, Machine.Moves M ρ m m' ρ₁ (m.perform e).2 (m'.perform e').2 ∧
    Agree (Q ρ₁) (m.perform e).1 (m'.perform e').1

variable {P : Renaming → α → β → Prop} {Q : Renaming → γ → δ → Prop}

theorem Blind.pure {a : α} {b : β} (hab : P ρ a b) : Blind M ρ P (Pure.pure a : Eval σ α) (Pure.pure b) :=
  fun _ _ hm => ⟨ρ, hm.moves_refl, .ok hab⟩

theorem Blind.throw (h : Halt) : Blind M ρ P (MonadExcept.throw h : Eval σ α) (MonadExcept.throw h) :=
  fun _ _ hm => ⟨ρ, hm.moves_refl, .error h⟩

theorem Blind.bind {e : Eval σ α} {e' : Eval σ β} {f : α → Eval σ γ} {f' : β → Eval σ δ} (he : Blind M ρ P e e')
    (hf : ∀ ρ₁, ρ ≤ ρ₁ → ∀ a b, P ρ₁ a b → Blind M ρ₁ Q (f a) (f' b)) : Blind M ρ Q (e >>= f) (e' >>= f') := by
  intro m m' hm
  obtain ⟨ρ₁, hmoves, hagree⟩ := he m m' hm
  rw [Machine.perform_bind, Machine.perform_bind]
  rcases hrun : m.perform e with ⟨x, m₁⟩
  rcases hrun' : m'.perform e' with ⟨x', m₁'⟩
  rw [hrun, hrun'] at hmoves hagree
  cases hagree with
  | error h => exact ⟨ρ₁, hmoves, .error h⟩
  | @ok a b hab =>
    obtain ⟨ρ₂, hmoves', hagree'⟩ := hf ρ₁ hmoves.heap.le a b hab m₁ m₁' hmoves.alike
    exact ⟨ρ₂, ⟨hmoves.heap.trans hmoves'.heap, hmoves'.alike⟩, hagree'⟩

/-- What is found in machines that are alike may be used at once. -/
theorem Blind.get_bind {f : Machine σ → Eval σ γ} {f' : Machine σ → Eval σ δ}
    (hf : ∀ m m', Machine.Alike M ρ m m' → Blind M ρ Q (f m) (f' m')) : Blind M ρ Q (get >>= f) (get >>= f') :=
  fun m m' hm => hf m m' hm m m' hm

theorem Blind.modify {f f' : Machine σ → Machine σ}
    (hf : ∀ m m', Machine.Alike M ρ m m' → Machine.Moves M ρ m m' ρ (f m) (f' m')) :
    Blind M ρ (fun _ _ _ => True) (modify f : Eval σ PUnit) (modify f') :=
  fun m m' hm => ⟨ρ, hf m m' hm, .ok trivial⟩

variable {host : Host σ} {args args' : List Value}

theorem calling_blind (name : String) {r : Run σ α} {r' : Run σ β} (hr : Run.Blind M ρ P r r') :
    Blind M ρ P (calling name r) (calling name r') := by
  intro m m' hm
  obtain ⟨ρ₁, hmoves, hagree⟩ := hr _ _ hm.world
  rw [perform_calling, perform_calling]
  rcases hrun : r.run.run m.world with ⟨x, w⟩
  rcases hrun' : r'.run.run m'.world with ⟨x', w'⟩
  rw [hrun, hrun'] at hmoves hagree
  cases hagree with
  | ok hab => exact ⟨ρ₁, hm.moves_world hmoves, .ok hab⟩
  | error e => cases e <;> exact ⟨ρ₁, hm.moves_world hmoves, .error _⟩

theorem call_blind (hhost : host.Blind M) (fuel : Nat) (name : String) (hargs : Forall₂ ρ.Like args args') :
    Blind M ρ Renaming.Like (call host fuel name args) (call host fuel name args') := by
  refine .get_bind fun m m' hm => ?_
  rw [hm.function?_eq name]
  cases m'.env.function? name with
  | none => exact .throw _
  | some f => exact calling_blind name (Host.call_blind hhost fuel ρ f args args' hargs)

theorem set_blind (name : String) {v w : Value} (hv : ρ.Like v w) : Blind M ρ (fun _ _ _ => True)
    (modify fun m => { m with env := m.env.set name v } : Eval σ PUnit)
    (modify fun m => { m with env := m.env.set name w }) :=
  .modify fun _ _ hm => hm.moves_env (hm.bindings.insert name hv) hm.functions

theorem define_blind (name : String) (f : Callable) : Blind M ρ (fun _ _ _ => True)
    (modify fun m => { m with env := m.env.define name f } : Eval σ PUnit)
    (modify fun m => { m with env := m.env.define name f }) :=
  .modify fun _ _ hm => hm.moves_env hm.bindings (congrArg (·.insert name f) hm.functions)

mutual

theorem node_blind (hhost : host.Blind M) (fuel : Nat) (n : Node) (ρ : Renaming) :
    Blind M ρ Renaming.Like (node host fuel n) (node host fuel n) := by
  cases n with
  | literal l =>
    rw [node]
    exact .pure (.of_isLeaf (by cases l <;> trivial))
  | «variable» name =>
    rw [node]
    refine .get_bind fun m m' hm => .pure ?_
    exact Renaming.getD_like (hm.bindings name)
  | assign name value =>
    rw [node]
    refine (node_blind hhost fuel value ρ).bind fun ρ₁ _ v w hv => ?_
    exact (set_blind name hv).bind fun ρ₂ hle _ _ _ => .pure (hv.mono hle)
  | call name args =>
    rw [node]
    exact (nodes_blind hhost fuel args ρ).bind fun _ _ _ _ hargs => call_blind hhost fuel name hargs

theorem nodes_blind (hhost : host.Blind M) (fuel : Nat) (ns : List Node) (ρ : Renaming) :
    Blind M ρ (fun ρ => Forall₂ ρ.Like) (nodes host fuel ns) (nodes host fuel ns) := by
  cases ns with
  | nil =>
    rw [nodes]
    exact .pure .nil
  | cons n ns =>
    rw [nodes]
    refine (node_blind hhost fuel n ρ).bind fun ρ₁ _ v w hv => ?_
    refine (nodes_blind hhost fuel ns ρ₁).bind fun ρ₂ hle vs ws hvs => ?_
    exact .pure (.cons (hv.mono hle) hvs)

end

theorem statements_blind (hhost : host.Blind M) (fuel : Nat) (p : Program) {v w : Value} (hv : ρ.Like v w) :
    Blind M ρ Renaming.Like (statements host fuel v p) (statements host fuel w p) := by
  induction p generalizing ρ v w with
  | nil => exact .pure hv
  | cons s p ih =>
    rw [statements, statements]
    exact (node_blind hhost fuel s ρ).bind fun _ _ _ _ hv => ih hv

theorem source_blind (hhost : host.Blind M) (fuel : Nat) (text : String) :
    Blind M ρ Renaming.Like (source host fuel text) (source host fuel text) :=
  statements_blind hhost fuel _ .null

end Eval

end PipeScript
