/-
What calls of the functions of the language change. Without functions among its arguments a call calls
no function itself, so it is the same in whatever way functions are called and however much fuel there
is. It gives a value that is at hand or a new list of such, or it changes its first argument; and if it
fails, all containers are as they were.
-/
import PipeScript.Proofs.Builtin.Results

namespace PipeScript

variable {σ : Type} {h h' : Heap} {args : List Value}

/-! ## Calls without functions -/

/-- None of the values is a function. -/
def NoFunction (args : List Value) : Prop :=
  ∀ f, .function f ∉ args

namespace NoFunction

/-- There is no function to apply, and so nothing is applied. -/
theorem subject_fails (hargs : NoFunction args) :
    ∃ e, ∀ k : List Value × Callable → Run σ Value, Iteration.subject args >>= k = Run.fail e := by
  unfold Iteration.subject
  cases hp : Arguments.two args with
  | error e => exact ⟨e, fun _ => rfl⟩
  | ok p =>
    obtain ⟨items, v⟩ := p
    have hv : v ∈ args := by simp [Arguments.two_yields args _ hp]
    cases v with
    | function f => exact absurd hv (hargs f)
    | _ => exact ⟨_, fun _ => rfl⟩

theorem force_eq {v : Value} (hargs : NoFunction args) (hv : v ∈ args) (call : Caller σ) :
    Branching.force call v = pure v := by
  cases v with
  | function f => exact absurd hv (hargs f)
  | _ => rfl

theorem ifElse_eq (hargs : NoFunction args) (call : Caller σ) : Branching.ifElse call args = (do
    let (condition, yes, no) ← Run.ofExcept (Arguments.twoOrThree args)
    if (← Run.heap).truthy condition then return yes else return no) := by
  unfold Branching.ifElse
  cases hp : Arguments.twoOrThree args with
  | error e => rfl
  | ok p =>
    obtain ⟨condition, yes, no⟩ := p
    obtain ⟨-, hyes, hno⟩ := Arguments.twoOrThree_yields args _ hp
    have hforce : Branching.force call no = pure no := by
      rcases hno with hno | hnull
      · exact hargs.force_eq hno call
      · obtain rfl : no = .null := hnull
        rfl
    show (do if (← Run.heap).truthy condition then Branching.force call yes else Branching.force call no) = _
    rw [hargs.force_eq hyes, hforce]
    rfl

theorem forEach_eq (hargs : NoFunction args) (call : Caller σ) : Branching.forEach call args = (do
    let (subject, _) ← Run.ofExcept (Arguments.two args)
    Run.newList ((Branching.range (← Run.heap) subject).map fun _ => .null)) := by
  unfold Branching.forEach
  cases hp : Arguments.two args with
  | error e => rfl
  | ok p =>
    obtain ⟨subject, body⟩ := p
    have hbody : body ∈ args := by simp [Arguments.two_yields args _ hp]
    cases body with
    | function f => exact absurd hbody (hargs f)
    | _ => rfl

theorem whileTrue_eq (hargs : NoFunction args) (fuel : Nat) (call : Caller σ) :
    Branching.whileTrue fuel call args = (do
      let (condition, _) ← Run.ofExcept (Arguments.two args)
      if (← Run.heap).truthy condition then Run.fail (.value .endless) else return .null) := by
  unfold Branching.whileTrue
  cases hp : Arguments.two args with
  | error e => rfl
  | ok p =>
    obtain ⟨condition, body⟩ := p
    have hcondition : condition ∈ args := by simp [Arguments.two_yields args _ hp]
    cases condition with
    | function f => exact absurd hcondition (hargs f)
    | _ => rfl

end NoFunction

/-- A call without functions among its arguments is the same in whatever way functions are called and
however much fuel there is. -/
theorem Builtin.run_eq_of_noFunction (hargs : NoFunction args) (b : Builtin) (fuel fuel' : Nat)
    (call call' : Caller σ) : b.run fuel call args = b.run fuel' call' args := by
  obtain ⟨e, he⟩ := hargs.subject_fails (σ := σ)
  cases b with
  | map | filter | find | some | every => exact (he _).trans (he _).symm
  | ifElse => exact (hargs.ifElse_eq call).trans (hargs.ifElse_eq call').symm
  | forEach => exact (hargs.forEach_eq call).trans (hargs.forEach_eq call').symm
  | whileTrue => exact (hargs.whileTrue_eq fuel call).trans (hargs.whileTrue_eq fuel' call').symm
  | _ => rfl

/-! ## Changes -/

/-- What a call without functions can give, and what it can make of the heap. -/
inductive Builtin.Change (h : Heap) : Builtin → List Value → Value → Heap → Prop
  | leaf {b : Builtin} {args : List Value} {v : Value} : v.IsLeaf → Change h b args v h
  | found {b : Builtin} {args : List Value} {v : Value} : b ∈ [max, min, get, tonumber, ifElse] →
      h.AtHand args v → Change h b args v h
  | made {b : Builtin} {args xs : List Value} : b ∈ [split, slice, reverse, sort, keys, values, forEach] →
      (∀ x ∈ xs, h.AtHand args x) → Change h b args (.list (h.newList xs).1) (h.newList xs).2
  | pushed {r : ListRef} {v : Value} :
      Change h push [.list r, v] (.list r) (h.setItems r (h.items r ++ [v]))
  | unshifted {r : ListRef} {v : Value} :
      Change h unshift [.list r, v] (.list r) (h.setItems r (v :: h.items r))
  | popped {r : ListRef} :
      Change h pop [.list r] ((h.items r).getLast?.getD .null) (h.setItems r (h.items r).dropLast)
  | shifted {r : ListRef} :
      Change h shift [.list r] ((h.items r).head?.getD .null) (h.setItems r (h.items r).tail)
  | entered {r : DictRef} {key v : Value} :
      Change h set [.dict r, key, v] (.dict r) (h.setEntries r ((h.entries r).insert (h.text key) v))
  /-- What is no dictionary is given back. -/
  | refused {target key v : Value} : (∀ r, target ≠ .dict r) → Change h set [target, key, v] target h

namespace Builtin

variable {b : Builtin}

theorem Change.of_made {xs : List Value} (hb : b ∈ [split, slice, reverse, sort, keys, values, forEach])
    (hxs : ∀ x ∈ xs, h.AtHand args x) :
    Yields (fun p => b.Change h args p.1 p.2) (.ok (Lists.made h xs)) :=
  .ok (.made hb hxs)

theorem split_change : Yields (fun p => split.Change h args p.1 p.2) (Lists.split h args) := by
  refine .bind (P := fun ws => ∀ w ∈ ws, w.IsLeaf) ?_ fun ws hws => .of_made (by decide) fun w hw => .leaf (hws w hw)
  refine .after fun _ => .after fun _ => .ite (.after fun _ => ?_) ?_
  all_goals
    refine .ok fun w hw => ?_
    obtain ⟨cs, -, rfl⟩ := List.mem_map.1 hw
    trivial

theorem slice_change : Yields (fun p => slice.Change h args p.1 p.2) (Lists.slice h args) := by
  refine .bind (Arguments.twoOrThree_yields args) fun (v, start, stop) ⟨hv, _⟩ => ?_
  refine .after fun low => .after fun high => ?_
  split
  · refine .of_made (by decide) fun w hw => .inside hv (Heap.inside_list_iff.2 ?_)
    exact List.mem_of_mem_take (List.mem_of_mem_drop hw)
  · exact .ok (.leaf trivial)
  · exact .error _

theorem reverse_change : Yields (fun p => reverse.Change h args p.1 p.2) (Lists.reverse h args) := by
  refine .bind (Arguments.one_yields args) fun v hargs => ?_
  split
  · refine .of_made (by decide) fun w hw => .inside (hargs ▸ List.mem_cons_self) (Heap.inside_list_iff.2 ?_)
    exact List.mem_reverse.1 hw
  · exact .ok (.leaf trivial)
  · exact .error _

theorem sort_change : Yields (fun p => sort.Change h args p.1 p.2) (Lists.sort h args) := by
  refine .bind (Arguments.one_yields args) fun v hargs => ?_
  refine .bind (Arguments.list_yields v) fun r hv => ?_
  refine .bind (Comparison.sorted_mem (h.items r)) fun ws hws => ?_
  refine .of_made (by decide) fun w hw => .inside (hargs ▸ List.mem_cons_self) ?_
  exact hv ▸ Heap.inside_list_iff.2 (hws w hw)

theorem keys_change : Yields (fun p => keys.Change h args p.1 p.2) (Dicts.keys h args) := by
  refine .after fun v => ?_
  split
  · refine .of_made (by decide) fun w hw => ?_
    obtain ⟨key, -, rfl⟩ := List.mem_map.1 hw
    exact .leaf trivial
  · exact .of_made (by decide) nofun

theorem values_change : Yields (fun p => values.Change h args p.1 p.2) (Dicts.values h args) := by
  refine .bind (Arguments.one_yields args) fun v hargs => ?_
  split
  · next r =>
    exact .of_made (by decide) fun w hw => .inside (hargs ▸ List.mem_cons_self) ⟨.dict r, rfl, hw⟩
  · exact .of_made (by decide) nofun

theorem push_change : Yields (fun p => push.Change h args p.1 p.2) (Lists.push h args) := by
  refine .bind (Arguments.two_yields args) fun (target, v) hargs => ?_
  refine .bind (Arguments.list_yields target) fun r htarget => .ok ?_
  obtain rfl : target = .list r := htarget
  exact hargs ▸ .pushed

theorem unshift_change : Yields (fun p => unshift.Change h args p.1 p.2) (Lists.unshift h args) := by
  refine .bind (Arguments.two_yields args) fun (target, v) hargs => ?_
  refine .bind (Arguments.list_yields target) fun r htarget => .ok ?_
  obtain rfl : target = .list r := htarget
  exact hargs ▸ .unshifted

theorem pop_change : Yields (fun p => pop.Change h args p.1 p.2) (Lists.pop h args) := by
  refine .bind (Arguments.one_yields args) fun target hargs => .ite (.ok (.leaf trivial)) ?_
  refine .bind (Arguments.list_yields target) fun r htarget => .ok ?_
  exact hargs ▸ htarget ▸ .popped

theorem shift_change : Yields (fun p => shift.Change h args p.1 p.2) (Lists.shift h args) := by
  refine .bind (Arguments.one_yields args) fun target hargs => .ite (.ok (.leaf trivial)) ?_
  refine .bind (Arguments.list_yields target) fun r htarget => .ok ?_
  exact hargs ▸ htarget ▸ .shifted

theorem set_change : Yields (fun p => set.Change h args p.1 p.2) (Dicts.set h args) := by
  refine .bind (Arguments.three_yields args) fun (target, key, v) hargs => ?_
  dsimp only at hargs ⊢
  split
  · exact .ok (hargs ▸ .entered)
  · next hdict => exact .ok (hargs ▸ .refused hdict)

/-! ## All functions -/

open Run

theorem within_of_isLeaf {r : Run σ Value} (hr : Reads h Value.IsLeaf r) : Within h (b.Change h args) r :=
  hr.imp fun _ _ ⟨hh, hv⟩ => hh ▸ .leaf hv

theorem within_of_atHand (hb : b ∈ [max, min, get, tonumber, ifElse]) {r : Run σ Value}
    (hr : Reads h (h.AtHand args) r) : Within h (b.Change h args) r := by
  refine hr.imp ?_
  rintro v _ ⟨rfl, hv⟩
  exact .found hb hv

theorem print_reads : Reads h Value.IsLeaf (Console.print args : Run σ Value) :=
  .bind reads_heap fun _ _ => .bind (reads_write _) fun _ _ => Reads.pure trivial

theorem input_reads : Reads h Value.IsLeaf (Console.input args : Run σ Value) := by
  have hline (k : Option String → Run σ Value) (hk : ∀ line, Reads h Value.IsLeaf (k line)) :
      Reads h Value.IsLeaf (Run.readLine >>= k) := .bind reads_readLine fun line _ => hk line
  refine .bind (reads_ofExcept _) fun prompt _ => ?_
  cases prompt with
  | none => exact hline _ fun line => by cases line <;> exact Reads.pure trivial
  | some prompt =>
    refine .bind reads_heap fun _ _ => .bind (reads_write _) fun _ _ => .bind reads_flush fun _ _ => ?_
    exact hline _ fun line => by cases line <;> exact Reads.pure trivial

theorem random_reads : Reads h Value.IsLeaf (Console.random args : Run σ Value) := by
  refine .bind reads_draw fun _ _ => ?_
  split
  · exact .bind (reads_ofExcept _) fun _ _ => .bind (reads_ofExcept _) fun _ _ => Reads.pure trivial
  · exact Reads.pure trivial

theorem subject_within (hargs : NoFunction args) (P : Value → Heap → Prop)
    (k : List Value × Callable → Run σ Value) : Within h P (Iteration.subject args >>= k) := by
  obtain ⟨e, he⟩ := hargs.subject_fails (σ := σ)
  rw [he]
  exact .fail e

theorem ifElse_within (hargs : NoFunction args) (call : Caller σ) :
    Within h (ifElse.Change h args) (Branching.ifElse call args) := by
  rw [hargs.ifElse_eq]
  refine within_of_atHand (by decide) ?_
  refine .bind (.ofExcept (Arguments.twoOrThree_yields args)) fun (condition, yes, no) ⟨_, hyes, hno⟩ => ?_
  refine .bind reads_heap fun _ _ => ?_
  split
  · exact Reads.pure (.argument hyes)
  · rcases hno with hno | hnull
    · exact Reads.pure (.argument hno)
    · obtain rfl : no = .null := hnull
      exact Reads.pure (.leaf trivial)

theorem forEach_within (hargs : NoFunction args) (call : Caller σ) :
    Within h (forEach.Change h args) (Branching.forEach call args) := by
  rw [hargs.forEach_eq]
  refine .bind (reads_ofExcept _) fun p _ => .bind reads_heap fun _ hh => ?_
  refine hh ▸ .changing (.of_made (by decide) fun w hw => ?_)
  obtain ⟨v, -, rfl⟩ := List.mem_map.1 hw
  exact .leaf trivial

theorem whileTrue_within (hargs : NoFunction args) (fuel : Nat) (call : Caller σ) :
    Within h (whileTrue.Change h args) (Branching.whileTrue fuel call args) := by
  rw [hargs.whileTrue_eq]
  refine within_of_isLeaf (.bind (reads_ofExcept _) fun p _ => .bind reads_heap fun _ _ => ?_)
  split
  · exact .fail _
  · exact Reads.pure trivial

/-- A call without functions among its arguments comes to an end. If it fails, it leaves the heap as it
is, and otherwise it gives and changes what the function does. -/
theorem run_within (hargs : NoFunction args) (b : Builtin) (fuel : Nat) (call : Caller σ) (h : Heap) :
    Within h (b.Change h args) (b.run fuel call args) := by
  cases b with
  | print | log => exact within_of_isLeaf print_reads
  | input => exact within_of_isLeaf input_reads
  | time => exact within_of_isLeaf (.bind reads_now fun _ _ => Reads.pure trivial)
  | random => exact within_of_isLeaf random_reads
  | add => exact within_of_isLeaf (.ofExcept Arithmetic.add_isLeaf)
  | sub => exact within_of_isLeaf (.ofExcept Arithmetic.sub_isLeaf)
  | mul => exact within_of_isLeaf (.ofExcept Arithmetic.mul_isLeaf)
  | div => exact within_of_isLeaf (.ofExcept Arithmetic.div_isLeaf)
  | mod => exact within_of_isLeaf (.ofExcept Arithmetic.mod_isLeaf)
  | abs => exact within_of_isLeaf (.ofExcept Arithmetic.abs_isLeaf)
  | sqrt => exact within_of_isLeaf (.ofExcept Arithmetic.sqrt_isLeaf)
  | pow => exact within_of_isLeaf (.ofExcept Arithmetic.pow_isLeaf)
  | round | floor | ceil => exact within_of_isLeaf (.ofExcept (Arithmetic.rounded_isLeaf _))
  | concat | and | or => exact within_of_isLeaf (.reading (.ok trivial))
  | uppercase | lowercase | trim | tostring | tobool | not | eq | ne =>
    exact within_of_isLeaf (.reading (.after fun _ => .ok trivial))
  | gt | lt | gte | lte => exact within_of_isLeaf (.reading (.after fun _ => .after fun _ => .ok trivial))
  | join | substring | replace =>
    exact within_of_isLeaf (.reading (.after fun _ => .after fun _ => .after fun _ => .ok trivial))
  | typeof | isnull => exact within_of_isLeaf (.ofExcept (.after fun _ => .ok trivial))
  | length =>
    refine within_of_isLeaf (.reading (.after fun v => ?_))
    split
    · exact .ok trivial
    · exact .ok trivial
    · exact .ok trivial
    · exact .error _
  | max | min => exact within_of_atHand (by decide) (.reading (Comparison.extreme_atHand _))
  | get => exact within_of_atHand (by decide) (.reading Dicts.get_atHand)
  | tonumber => exact within_of_atHand (by decide) (.ofExcept Kinds.tonumber_atHand)
  | split => exact .changing split_change
  | slice => exact .changing slice_change
  | reverse => exact .changing reverse_change
  | sort => exact .changing sort_change
  | keys => exact .changing keys_change
  | values => exact .changing values_change
  | push => exact .changing push_change
  | unshift => exact .changing unshift_change
  | pop => exact .changing pop_change
  | shift => exact .changing shift_change
  | set => exact .changing set_change
  | map | filter | find | some | every => exact subject_within hargs _ _
  | ifElse => exact ifElse_within hargs call
  | forEach => exact forEach_within hargs call
  | whileTrue => exact whileTrue_within hargs fuel call

end Builtin

end PipeScript
