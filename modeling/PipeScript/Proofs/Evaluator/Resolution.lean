/-
Which function a call means. Functions are given names from outside only: nothing that a script does reaches
them, whatever it binds and however it ends. So a script is evaluated as if it were settled before it begins
which function each name means, and that depends on no more than the names that were given so far.
-/
import PipeScript.Proofs.Evaluator.Steps

namespace PipeScript

open Machine

variable {σ : Type}

/-! ## Evaluation where it is settled what names mean -/

section

variable (host : Host σ) (fuel : Nat) (resolve : String → Option Callable)

mutual

/-- What a node comes to in a machine, and the machine that it leaves behind, where it is settled which
function a name means. -/
inductive Evaluates : Machine σ → Node → Except Halt Value → Machine σ → Prop
  | literal {m : Machine σ} {l : Literal} : Evaluates m (.literal l) (.ok (.ofLiteral l)) m
  | variable {m : Machine σ} {name : String} :
      Evaluates m (.variable name) (.ok ((m.env.get? name).getD .null)) m
  | bound {m m' : Machine σ} {name : String} {value : Node} {v : Value} : Evaluates m value (.ok v) m' →
      Evaluates m (.assign name value) (.ok v) { m' with env := m'.env.set name v }
  | unbound {m m' : Machine σ} {name : String} {value : Node} {h : Halt} : Evaluates m value (.error h) m' →
      Evaluates m (.assign name value) (.error h) m'
  | called {m m' m'' : Machine σ} {name : String} {args : List Node} {vs : List Value} {f : Callable}
      {r : Except Halt Value} : InTurn m args (.ok vs) m' → resolve name = some f →
      m'.perform (Eval.calling name (host.call fuel f vs)) = (r, m'') → Evaluates m (.call name args) r m''
  /-- That there is no such function shows when all arguments have their values. -/
  | unresolved {m m' : Machine σ} {name : String} {args : List Node} {vs : List Value} :
      InTurn m args (.ok vs) m' → resolve name = none →
      Evaluates m (.call name args) (.error (.failed (.unresolved name))) m'
  | uncalled {m m' : Machine σ} {name : String} {args : List Node} {h : Halt} :
      InTurn m args (.error h) m' → Evaluates m (.call name args) (.error h) m'

/-- Nodes are evaluated once each and from the first on, each in the machine that the one before it left
behind. The first that halts is the last one. -/
inductive InTurn : Machine σ → List Node → Except Halt (List Value) → Machine σ → Prop
  | nil {m : Machine σ} : InTurn m [] (.ok []) m
  | cons {m m' m'' : Machine σ} {n : Node} {ns : List Node} {v : Value} {vs : List Value} :
      Evaluates m n (.ok v) m' → InTurn m' ns (.ok vs) m'' → InTurn m (n :: ns) (.ok (v :: vs)) m''
  | first {m m' : Machine σ} {n : Node} {ns : List Node} {h : Halt} :
      Evaluates m n (.error h) m' → InTurn m (n :: ns) (.error h) m'
  | later {m m' m'' : Machine σ} {n : Node} {ns : List Node} {v : Value} {h : Halt} :
      Evaluates m n (.ok v) m' → InTurn m' ns (.error h) m'' → InTurn m (n :: ns) (.error h) m''

end

end

variable {host : Host σ} {fuel : Nat} {resolve : String → Option Callable} {m m' : Machine σ}

/-! ## Scripts leave functions alone -/

/-- What a call does, it does to the world. -/
theorem env_eq_of_calling {α : Type} {name : String} {r : Run σ α} {result : Except Halt α}
    (hcall : m.perform (Eval.calling name r) = (result, m')) : m'.env = m.env := by
  rw [Eval.perform_calling] at hcall
  rcases hrun : r.run.run m.world with ⟨(_ | _) | _, _⟩ <;> rw [hrun] at hcall <;> cases hcall <;> rfl

mutual

/-- Whatever a node comes to, no function is added, removed or replaced. -/
theorem Evaluates.functions_eq {m m' : Machine σ} {n : Node} {r : Except Halt Value} :
    Evaluates host fuel resolve m n r m' → m'.env.functions = m.env.functions
  | .literal | .variable => rfl
  | .bound hvalue => hvalue.functions_eq
  | .unbound hvalue => hvalue.functions_eq
  | .called hargs _ hcall => (congrArg Environment.functions (env_eq_of_calling hcall)).trans hargs.functions_eq
  | .unresolved hargs _ => hargs.functions_eq
  | .uncalled hargs => hargs.functions_eq

theorem InTurn.functions_eq {m m' : Machine σ} {ns : List Node} {r : Except Halt (List Value)} :
    InTurn host fuel resolve m ns r m' → m'.env.functions = m.env.functions
  | .nil => rfl
  | .cons hfirst hrest => hrest.functions_eq.trans hfirst.functions_eq
  | .first hfirst => hfirst.functions_eq
  | .later hfirst hrest => hrest.functions_eq.trans hfirst.functions_eq

end

/-- With the same functions of the host each name means the same. -/
theorem Environment.function?_eq {env env' : Environment} (h : env'.functions = env.functions) :
    env'.function? = env.function? := by
  funext name
  rw [function?, function?, h]

/-! ## What is evaluated is what names mean at first -/

mutual

theorem evaluates_node {m : Machine σ} (hm : m.env.function? = resolve) : (n : Node) →
    Evaluates host fuel resolve m n (m.perform (Eval.node host fuel n)).1 (m.perform (Eval.node host fuel n)).2
  | .literal _ => by rw [Eval.perform_literal]; exact .literal
  | .variable _ => by rw [Eval.perform_variable]; exact .variable
  | .assign name value => by
    have hvalue := evaluates_node hm value
    rw [Eval.perform_assign]
    rcases hrun : m.perform (Eval.node host fuel value) with ⟨h | v, m'⟩ <;> rw [hrun] at hvalue
    · exact .unbound hvalue
    · exact .bound hvalue
  | .call name args => by
    have hargs := inTurn_nodes hm args
    rw [Eval.perform_call_node]
    rcases hrun : m.perform (Eval.nodes host fuel args) with ⟨h | vs, m'⟩ <;> rw [hrun] at hargs
    · exact .uncalled hargs
    · have hname : m'.env.function? name = resolve name := by
        rw [Environment.function?_eq hargs.functions_eq, hm]
      simp only [Eval.perform_call, hname]
      cases hresolve : resolve name with
      | none => exact .unresolved hargs hresolve
      | some f => exact .called hargs hresolve rfl

theorem inTurn_nodes {m : Machine σ} (hm : m.env.function? = resolve) : (ns : List Node) →
    InTurn host fuel resolve m ns (m.perform (Eval.nodes host fuel ns)).1 (m.perform (Eval.nodes host fuel ns)).2
  | [] => .nil
  | n :: ns => by
    have hfirst := evaluates_node hm n
    rw [Eval.perform_nodes_cons]
    rcases hrun : m.perform (Eval.node host fuel n) with ⟨h | v, m'⟩ <;> rw [hrun] at hfirst
    · exact .first hfirst
    · have hm' : m'.env.function? = resolve := (Environment.function?_eq hfirst.functions_eq).trans hm
      have hrest := inTurn_nodes hm' ns
      dsimp only
      rcases hrun' : m'.perform (Eval.nodes host fuel ns) with ⟨h | vs, m''⟩ <;> rw [hrun'] at hrest
      · exact .later hfirst hrest
      · exact .cons hfirst hrest

end

mutual

theorem Evaluates.perform_eq {m m' : Machine σ} {n : Node} {r : Except Halt Value}
    (hm : m.env.function? = resolve) :
    Evaluates host fuel resolve m n r m' → m.perform (Eval.node host fuel n) = (r, m')
  | .literal => Eval.perform_literal ..
  | .variable => Eval.perform_variable ..
  | .bound hvalue => by rw [Eval.perform_assign, hvalue.perform_eq hm]
  | .unbound hvalue => by rw [Eval.perform_assign, hvalue.perform_eq hm]
  | .called hargs hresolve hcall => by
    rw [Eval.perform_call_node, hargs.perform_eq hm]
    dsimp only
    rw [Eval.perform_call, Environment.function?_eq hargs.functions_eq, hm, hresolve]
    exact hcall
  | .unresolved hargs hresolve => by
    rw [Eval.perform_call_node, hargs.perform_eq hm]
    dsimp only
    rw [Eval.perform_call, Environment.function?_eq hargs.functions_eq, hm, hresolve]
  | .uncalled hargs => by rw [Eval.perform_call_node, hargs.perform_eq hm]

theorem InTurn.perform_eq {m m' : Machine σ} {ns : List Node} {r : Except Halt (List Value)}
    (hm : m.env.function? = resolve) :
    InTurn host fuel resolve m ns r m' → m.perform (Eval.nodes host fuel ns) = (r, m')
  | .nil => rfl
  | .cons hfirst hrest => by
    have hm' := (Environment.function?_eq hfirst.functions_eq).trans hm
    rw [Eval.perform_nodes_cons, hfirst.perform_eq hm]
    dsimp only
    rw [hrest.perform_eq hm']
  | .first hfirst => by rw [Eval.perform_nodes_cons, hfirst.perform_eq hm]
  | .later hfirst hrest => by
    have hm' := (Environment.function?_eq hfirst.functions_eq).trans hm
    rw [Eval.perform_nodes_cons, hfirst.perform_eq hm]
    dsimp only
    rw [hrest.perform_eq hm']

end

/-- Evaluating in turn is what the evaluator does, where names mean what is settled. -/
theorem inTurn_iff (hm : m.env.function? = resolve) {ns : List Node} {r : Except Halt (List Value)} :
    InTurn host fuel resolve m ns r m' ↔ m.perform (Eval.nodes host fuel ns) = (r, m') := by
  refine ⟨fun hturn => hturn.perform_eq hm, fun hrun => ?_⟩
  have hturn : InTurn host fuel resolve m ns _ _ := inTurn_nodes hm ns
  rwa [hrun] at hturn

/-- The statements of a script are evaluated in turn, and the value of the last one is that of the script. -/
theorem perform_statements (last : Value) (p : Program) : m.perform (Eval.statements host fuel last p) =
    match m.perform (Eval.nodes host fuel p) with
    | (.ok vs, m') => (.ok (vs.getLast?.getD last), m')
    | (.error h, m') => (.error h, m') := by
  induction p generalizing m last with
  | nil => rfl
  | cons s rest ih =>
    rw [Eval.perform_statements_cons, Eval.perform_nodes_cons]
    rcases m.perform (Eval.node host fuel s) with ⟨h | v, m'⟩
    · rfl
    · dsimp only
      rw [ih]
      rcases m'.perform (Eval.nodes host fuel rest) with ⟨h | vs, m''⟩
      · rfl
      · cases vs <;> simp [List.getLast?_cons]

/-- A script comes to what its statements come to in turn. -/
theorem perform_program_iff (hm : m.env.function? = resolve) {p : Program} {r : Except Halt Value} :
    m.perform (Eval.program host fuel p) = (r, m') ↔
      ∃ rs, InTurn host fuel resolve m p rs m' ∧ r = rs.map (·.getLast?.getD .null) := by
  rw [Eval.program, perform_statements]
  constructor
  · intro hrun
    rcases hnodes : m.perform (Eval.nodes host fuel p) with ⟨h | vs, m''⟩ <;> rw [hnodes] at hrun <;> cases hrun
    all_goals exact ⟨_, (inTurn_iff hm).2 hnodes, rfl⟩
  · rintro ⟨rs, hturn, rfl⟩
    rw [(inTurn_iff hm).1 hturn]
    cases rs <;> rfl

/-- A call is made when all arguments have their values, which they get in turn, if a function has the name. -/
theorem exists_inTurn_of_call (hm : m.env.function? = resolve) (name : String) (args : List Node) :
    ∃ rs m', InTurn host fuel resolve m args rs m' ∧ m.perform (Eval.node host fuel (.call name args)) =
      match rs, resolve name with
      | .ok vs, some f => m'.perform (Eval.calling name (host.call fuel f vs))
      | .ok _, none => (.error (.failed (.unresolved name)), m')
      | .error h, _ => (.error h, m') := by
  rw [Eval.perform_call_node]
  rcases hrun : m.perform (Eval.nodes host fuel args) with ⟨h | vs, m'⟩
  · exact ⟨.error h, m', (inTurn_iff hm).2 hrun, rfl⟩
  · have hturn := (inTurn_iff hm).2 hrun
    refine ⟨.ok vs, m', hturn, ?_⟩
    dsimp only
    rw [Eval.perform_call, Environment.function?_eq hturn.functions_eq, hm]
    cases resolve name <;> rfl

/-! ## Sessions -/

namespace Session

/-- What is done to an evaluator from outside. -/
inductive Step where
  /-- Binds a variable. -/
  | set (name : String) (v : Value)
  /-- Gives a name to a function of the host. -/
  | define (name : String) (id : Nat)
  /-- Runs a source. -/
  | run (text : String)
  /-- Runs a script. -/
  | eval (p : Program)

/-- The machine after a step, whatever came of it. -/
def Step.act (host : Host σ) (fuel : Nat) (m : Machine σ) : Step → Machine σ
  | .set name v => { m with env := m.env.set name v }
  | .define name id => { m with env := m.env.define name ⟨name, .host id⟩ }
  | .run text => (m.perform (Eval.source host fuel text)).2
  | .eval p => (m.perform (Eval.program host fuel p)).2

/-- The machine after a session. -/
def after (host : Host σ) (fuel : Nat) (m : Machine σ) (steps : List Step) : Machine σ :=
  steps.foldl (Step.act host fuel) m

/-- The function of the host that a name was given to most recently. -/
def lastDefined (name : String) (steps : List Step) : Option Callable :=
  steps.reverse.findSome? fun
    | .define given id => if given = name then some ⟨name, .host id⟩ else none
    | _ => none

/-- The function that a name means after a session that began with these functions of the host. -/
def resolution (functions : Table Callable) (steps : List Step) (name : String) : Option Callable :=
  match Builtin.ofName? name with
  | some b => some (.ofBuiltin b)
  | none => (lastDefined name steps).or (functions.get? name)

theorem lastDefined_cons (name : String) (s : Step) (steps : List Step) :
    lastDefined name (s :: steps) = (lastDefined name steps).or (lastDefined name [s]) := by
  rw [lastDefined, List.reverse_cons, List.findSome?_append]
  rfl

/-- Running a script, in whatever way it ends, leaves the functions of the host as they are. -/
theorem functions_eval (m : Machine σ) (p : Program) :
    (Step.act host fuel m (.eval p)).env.functions = m.env.functions := by
  obtain ⟨_, hturn, -⟩ := (perform_program_iff rfl).1 (rfl : m.perform (Eval.program host fuel p) = (_, _))
  exact hturn.functions_eq

/-- A step gives a name to a function or leaves all functions of the host as they are. -/
theorem get?_functions_act (m : Machine σ) (s : Step) (name : String) :
    (Step.act host fuel m s).env.functions.get? name = (lastDefined name [s]).or (m.env.functions.get? name) := by
  cases s with
  | set _ _ => rfl
  | define given id =>
    refine (Table.get?_insert ..).trans ?_
    by_cases hgiven : given = name <;> simp [lastDefined, hgiven]
  | run text => exact congrArg (·.get? name) (functions_eval m (parseSource text))
  | eval p => exact congrArg (·.get? name) (functions_eval m p)

theorem get?_functions_after (m : Machine σ) (steps : List Step) (name : String) :
    (after host fuel m steps).env.functions.get? name =
      (lastDefined name steps).or (m.env.functions.get? name) := by
  induction steps generalizing m with
  | nil => rfl
  | cons s steps ih =>
    refine (ih _).trans ?_
    rw [get?_functions_act, ← Option.or_assoc, ← lastDefined_cons]

theorem function?_after (host : Host σ) (fuel : Nat) (m : Machine σ) (steps : List Step) :
    (after host fuel m steps).env.function? = resolution m.env.functions steps := by
  funext name
  unfold Environment.function? resolution
  cases Builtin.ofName? name with
  | some b => rfl
  | none => exact get?_functions_after m steps name

/-- After any session a name means the function of the language that has it, or else the function of the host
that it was given to most recently, or else nothing. A call evaluates its arguments in turn, and only then it is
made or fails for want of a function. All calls of a script that is run then, those in arguments among them, go
by what names mean before it. Binding a variable does not change what any name means, giving a name to a
function changes no variable, and running a script changes no function. -/
theorem calls_resolved (host : Host σ) (fuel : Nat) (m : Machine σ) (steps : List Step) :
    (after host fuel m steps).env.function? = resolution m.env.functions steps ∧
      (∀ name args, ∃ rs m',
        InTurn host fuel (resolution m.env.functions steps) (after host fuel m steps) args rs m' ∧
        (after host fuel m steps).perform (Eval.node host fuel (.call name args)) =
          match rs, resolution m.env.functions steps name with
          | .ok vs, some f => m'.perform (Eval.calling name (host.call fuel f vs))
          | .ok _, none => (.error (.failed (.unresolved name)), m')
          | .error h, _ => (.error h, m')) ∧
      (∀ p r m', (after host fuel m steps).perform (Eval.program host fuel p) = (r, m') ↔
        ∃ rs, InTurn host fuel (resolution m.env.functions steps) (after host fuel m steps) p rs m' ∧
          r = rs.map (·.getLast?.getD .null)) ∧
      (∀ name v, (after host fuel m (steps ++ [.set name v])).env.function? =
        (after host fuel m steps).env.function?) ∧
      (∀ name id, (after host fuel m (steps ++ [.define name id])).env.get? = (after host fuel m steps).env.get?) ∧
      (∀ text, (after host fuel m (steps ++ [.run text])).env.functions =
        (after host fuel m steps).env.functions) ∧
      ∀ p, (after host fuel m (steps ++ [.eval p])).env.functions = (after host fuel m steps).env.functions := by
  have happend (s : Step) : after host fuel m (steps ++ [s]) = s.act host fuel (after host fuel m steps) := by
    rw [after, List.foldl_append]
    rfl
  have hafter := function?_after host fuel m steps
  refine ⟨hafter, exists_inTurn_of_call hafter, fun p r m' => perform_program_iff hafter, ?_, ?_, ?_, ?_⟩
  · intro name v
    rw [happend]
    exact funext fun other => Environment.function?_set _ name other v
  · intro name id
    rw [happend]
    exact funext fun other => Environment.get?_define _ name other ⟨name, .host id⟩
  · intro text
    rw [happend]
    exact functions_eval _ (parseSource text)
  · intro p
    rw [happend]
    exact functions_eval _ p

/-- Two names are given to functions, one of them twice, and are bound; a script fails in the end. -/
def givenTwice : List Step :=
  [.define "add" 0, .define "greet" 1, .set "greet" .null, .define "greet" 2,
    .eval [.call "nope" [.assign "add" (.literal (.boolean true))]]]

example (w : World Unit) : ["add", "greet", "nope"].map (after noHost 1 ⟨{}, w⟩ givenTwice).env.function? =
    [some (.ofBuiltin .add), some ⟨"greet", .host 2⟩, none] := rfl

end Session

end PipeScript
