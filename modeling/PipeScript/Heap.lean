/-
The heap: the contents of all lists and dictionaries. Whatever refers to a list sees each change of
it. Lists and dictionaries are made, changed and never removed.
-/
import PipeScript.Table
import PipeScript.Value

namespace PipeScript

/-- The contents of all lists and dictionaries. -/
structure Heap where
  lists : Array (List Value) := #[]
  dicts : Array (Table Value) := #[]

/-- A list or dictionary. -/
inductive Container where
  | list (r : ListRef)
  | dict (r : DictRef)
deriving DecidableEq, Repr

namespace Heap

/-- The heap without lists and dictionaries. -/
def empty : Heap := {}

/-- The items of a list. -/
def items (h : Heap) (r : ListRef) : List Value :=
  h.lists.getD r.index []

/-- The entries of a dictionary. -/
def entries (h : Heap) (r : DictRef) : Table Value :=
  h.dicts.getD r.index .empty

/-- Makes a new list. -/
def newList (h : Heap) (items : List Value) : ListRef × Heap :=
  (⟨h.lists.size⟩, { h with lists := h.lists.push items })

/-- Makes a new dictionary. -/
def newDict (h : Heap) (entries : Table Value) : DictRef × Heap :=
  (⟨h.dicts.size⟩, { h with dicts := h.dicts.push entries })

/-- Changes the items of a list. -/
def setItems (h : Heap) (r : ListRef) (items : List Value) : Heap :=
  { h with lists := h.lists.setIfInBounds r.index items }

/-- Changes the entries of a dictionary. -/
def setEntries (h : Heap) (r : DictRef) (entries : Table Value) : Heap :=
  { h with dicts := h.dicts.setIfInBounds r.index entries }

/-- Whether the heap has the container. -/
def Has (h : Heap) : Container → Prop
  | .list r => r.index < h.lists.size
  | .dict r => r.index < h.dicts.size

instance (h : Heap) (c : Container) : Decidable (h.Has c) :=
  match c with
  | .list _ => inferInstanceAs (Decidable (_ < _))
  | .dict _ => inferInstanceAs (Decidable (_ < _))

/-- All containers of the heap. -/
def containers (h : Heap) : List Container :=
  (List.range h.lists.size).map (fun i => .list ⟨i⟩) ++
    (List.range h.dicts.size).map (fun i => .dict ⟨i⟩)

theorem mem_containers {h : Heap} {c : Container} : c ∈ h.containers ↔ h.Has c := by
  cases c with
  | list r =>
    simp only [containers, List.mem_append, List.mem_map, List.mem_range, Has]
    constructor
    · rintro (⟨i, hi, e⟩ | ⟨i, hi, e⟩) <;> cases e
      exact hi
    · exact fun hr => .inl ⟨r.index, hr, rfl⟩
  | dict r =>
    simp only [containers, List.mem_append, List.mem_map, List.mem_range, Has]
    constructor
    · rintro (⟨i, hi, e⟩ | ⟨i, hi, e⟩) <;> cases e
      exact hi
    · exact fun hr => .inr ⟨r.index, hr, rfl⟩

/-- All pairs of containers of the heap. -/
def pairs (h : Heap) : List (Container × Container) :=
  h.containers.flatMap fun a => h.containers.map fun b => (a, b)

theorem mem_pairs {h : Heap} {a b : Container} : (a, b) ∈ h.pairs ↔ h.Has a ∧ h.Has b := by
  simp [pairs, mem_containers]

/-- A list that the heap does not have is empty. -/
theorem items_eq_nil {h : Heap} {r : ListRef} (hr : ¬h.Has (.list r)) : h.items r = [] := by
  have : h.lists.size ≤ r.index := Nat.not_lt.1 hr
  simp [items, this]

/-- Truth of a value: null, false, zero and what is empty are false. Not-a-number is true. -/
def truthy (h : Heap) : Value → Bool
  | .null => false
  | .bool b => b
  | .int n => n != 0
  | .float x => x != 0.0
  | .str s => !s.isEmpty
  | .list r => !(h.items r).isEmpty
  | .dict r => !(h.entries r).entries.isEmpty
  | .function _ => true

end Heap

end PipeScript
