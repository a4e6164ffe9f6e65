/-
What the functions of the language give. Most of them give a value that holds no other: a number, a text,
a truth or null. The others give what they find at hand, in their arguments or directly inside of one.
-/
import PipeScript.Builtin.Call
import PipeScript.Proofs.Heap.Plain
import PipeScript.Proofs.Run
import PipeScript.Proofs.Table

namespace PipeScript

/-! ## Arguments -/

namespace Arguments

variable (args : List Value) (v : Value)

theorem one_yields : Yields (fun a => args = [a]) (one args) := by
  unfold one
  split
  · exact .ok rfl
  · exact .error _

theorem two_yields : Yields (fun p => args = [p.1, p.2]) (two args) := by
  unfold two
  split
  · exact .ok rfl
  · exact .error _

theorem three_yields : Yields (fun p => args = [p.1, p.2.1, p.2.2]) (three args) := by
  unfold three
  split
  · exact .ok rfl
  · exact .error _

/-- A third argument that is not given is null. -/
theorem twoOrThree_yields : Yields (fun p => p.1 ∈ args ∧ p.2.1 ∈ args ∧ (p.2.2 ∈ args ∨ p.2.2 = .null))
    (twoOrThree args) := by
  unfold twoOrThree
  split
  · exact .ok ⟨by simp, by simp, .inr rfl⟩
  · exact .ok ⟨by simp, by simp, .inl (by simp)⟩
  · exact .error _

theorem list_yields : Yields (fun r => v = .list r) (list v) := by
  unfold list
  split
  · exact .ok rfl
  · exact .error _

end Arguments

/-! ## Leaves -/

namespace Arithmetic

variable {args : List Value}

theorem combine_isLeaf {whole : Int64 → Int64 → Option Int64} {real : Float → Float → Float} {a b : Value} :
    Yields Value.IsLeaf (combine whole real a b) := by
  unfold combine
  split
  · split <;> exact .ok trivial
  · exact .after fun _ => .after fun _ => .ok trivial

theorem add_isLeaf : Yields Value.IsLeaf (add args) :=
  .foldlM trivial fun _ _ _ _ => combine_isLeaf

theorem sub_isLeaf : Yields Value.IsLeaf (sub args) :=
  .after fun _ => combine_isLeaf

theorem mul_isLeaf : Yields Value.IsLeaf (mul args) :=
  .ite (.ok trivial) (.foldlM trivial fun _ _ _ _ => combine_isLeaf)

theorem div_isLeaf : Yields Value.IsLeaf (div args) :=
  .after fun _ => .after fun _ => .after fun _ => .ite (.ok trivial) (.after fun _ => .ok trivial)

theorem mod_isLeaf : Yields Value.IsLeaf (mod args) :=
  .after fun _ => .after fun _ => .after fun _ => .ite (.ok trivial) combine_isLeaf

theorem abs_isLeaf : Yields Value.IsLeaf (abs args) := by
  refine .after fun v => ?_
  split
  · split <;> exact .ok trivial
  · exact .after fun _ => .ok trivial

theorem sqrt_isLeaf : Yields Value.IsLeaf (sqrt args) :=
  .after fun _ => .after fun _ => .ite (.after fun _ => .ok trivial) (.ok trivial)

theorem pow_isLeaf : Yields Value.IsLeaf (pow args) := by
  refine .after fun (base, exponent) => ?_
  dsimp only
  split
  · exact .ok trivial
  · refine .after fun b => .after fun e => ?_
    have hresult : Yields Value.IsLeaf (if (b.pow e).isNaN && !b.isNaN && !e.isNaN then do
        throw (.value .domain)
        return Value.float (b.pow e)
      else return .float (b.pow e)) := .ite (.after fun _ => .ok trivial) (.ok trivial)
    exact .ite (.after fun _ => hresult) hresult

theorem rounded_isLeaf (way : Binary.Rounding) : Yields Value.IsLeaf (rounded way args) := by
  refine .after fun v => ?_
  split
  · exact .ok trivial
  · refine .after fun x => ?_
    split
    · exact .ok trivial
    · exact .error _

end Arithmetic

/-! ## What is at hand -/

/-- A value that holds no other, an argument, or what lies directly inside of one. -/
inductive Heap.AtHand (h : Heap) (args : List Value) : Value → Prop
  | leaf {v : Value} : v.IsLeaf → AtHand h args v
  | argument {v : Value} : v ∈ args → AtHand h args v
  | inside {v a : Value} : a ∈ args → h.Inside v a → AtHand h args v

variable {h : Heap} {args : List Value}

namespace Comparison

theorem atHand_of_mem_candidates {v : Value} (hv : v ∈ candidates h args) : h.AtHand args v := by
  unfold candidates at hv
  split at hv
  · exact .inside List.mem_cons_self (Heap.inside_list_iff.2 hv)
  · exact .argument hv

theorem extremeFrom_mem (wanted : Ordering) (best : Value) (vs : List Value) :
    Yields (· ∈ best :: vs) (extremeFrom wanted h best vs) := by
  induction vs generalizing best with
  | nil => exact .ok List.mem_cons_self
  | cons v vs ih =>
    refine .after fun o => (ih _).imp fun w hw => ?_
    rcases List.mem_cons.1 hw with rfl | hw
    · split <;> simp
    · exact List.mem_cons_of_mem _ (List.mem_cons_of_mem _ hw)

theorem extreme_atHand (wanted : Ordering) : Yields (h.AtHand args) (extreme wanted h args) := by
  unfold extreme
  split
  · exact .ok (.leaf trivial)
  · next v vs hvs => exact (extremeFrom_mem wanted v vs).imp fun w hw => atHand_of_mem_candidates (hvs ▸ hw)

theorem insertDescending_mem (v : Value) (row : List Value) :
    Yields (fun ws => ∀ w ∈ ws, w ∈ v :: row) (insertDescending h v row) := by
  induction row with
  | nil => exact .ok fun _ => id
  | cons u row ih =>
    refine .after fun o => ?_
    split
    · refine ih.bind fun ws hws => .ok fun w hw => ?_
      rcases List.mem_cons.1 hw with rfl | hw
      · simp
      · rcases List.mem_cons.1 (hws w hw) with rfl | hw <;> simp [*]
    · exact .ok fun _ => id

theorem sorted_mem (vs : List Value) : Yields (fun ws => ∀ w ∈ ws, w ∈ vs) (sorted h vs) := by
  refine .bind (P := fun row => ∀ w ∈ row, w ∈ vs) (.foldlM nofun fun row v hv hrow => ?_) fun row hrow => ?_
  · refine (insertDescending_mem v row).imp fun ws hws w hw => ?_
    rcases List.mem_cons.1 (hws w hw) with rfl | hw
    · exact hv
    · exact hrow w hw
  · exact .ok fun w hw => hrow w (List.mem_reverse.1 hw)

end Comparison

theorem Kinds.tonumber_atHand : Yields (h.AtHand args) (tonumber args) := by
  refine .bind (Arguments.one_yields args) fun v hv => ?_
  split
  · split
    · exact .ok (.leaf trivial)
    · exact .error _
  · exact .ok (.argument (hv ▸ List.mem_cons_self))

theorem Dicts.get_atHand : Yields (h.AtHand args) (get h args) := by
  refine .bind (Arguments.two_yields args) fun (target, key) hargs => ?_
  dsimp only
  split
  · next r =>
    cases hv : (h.entries r).get? (h.text key) with
    | none => exact .ok (.leaf trivial)
    | some v =>
      refine .ok (.inside (hargs ▸ List.mem_cons_self) ⟨.dict r, rfl, ?_⟩)
      exact Table.mem_values_of_get? hv
  · exact .ok (.leaf trivial)

end PipeScript
