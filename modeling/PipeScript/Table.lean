/-
Finite maps from texts, kept in ascending order of their keys. Dictionaries of scripts, variables
and host functions are such maps.
-/
namespace PipeScript

/-- A finite map from texts. No key occurs twice, and the keys ascend by code points. -/
structure Table (α : Type) where
  entries : List (String × α)
  ascending : entries.Pairwise fun a b => a.1 < b.1

namespace Table

variable {α : Type}

/-- The map without entries. -/
def empty : Table α :=
  ⟨[], .nil⟩

instance : Inhabited (Table α) := ⟨empty⟩

/-- The entries with the value of one key replaced, or with a new entry at its place. -/
def insertEntry (key : String) (value : α) : List (String × α) → List (String × α)
  | [] => [(key, value)]
  | (k, v) :: rest =>
    if key < k then (key, value) :: (k, v) :: rest
    else if key = k then (key, value) :: rest
    else (k, v) :: insertEntry key value rest

theorem key_of_mem_insertEntry {key : String} {value : α} {es : List (String × α)}
    {e : String × α} (h : e ∈ insertEntry key value es) : e.1 = key ∨ e ∈ es := by
  induction es with
  | nil => simp_all [insertEntry]
  | cons a rest ih =>
    simp only [insertEntry] at h
    split at h
    · simp only [List.mem_cons] at h ⊢
      rcases h with rfl | h
      · exact .inl rfl
      · exact .inr h
    · split at h
      · simp only [List.mem_cons] at h ⊢
        rcases h with rfl | h
        · exact .inl rfl
        · exact .inr (.inr h)
      · simp only [List.mem_cons] at h ⊢
        rcases h with rfl | h
        · exact .inr (.inl rfl)
        · exact (ih h).imp_right .inr

theorem ascending_insertEntry (key : String) (value : α) {es : List (String × α)}
    (h : es.Pairwise fun a b => a.1 < b.1) :
    (insertEntry key value es).Pairwise fun a b => a.1 < b.1 := by
  induction es with
  | nil => simp [insertEntry]
  | cons a rest ih =>
    obtain ⟨head, tail⟩ := List.pairwise_cons.1 h
    simp only [insertEntry]
    split
    · next hlt =>
      refine .cons (fun b hb => ?_) h
      rcases List.mem_cons.1 hb with rfl | hb
      · exact hlt
      · exact String.lt_trans hlt (head b hb)
    · split
      · next heq => exact .cons (fun b hb => heq ▸ head b hb) tail
      · next hnlt hne =>
        refine .cons (fun b hb => ?_) (ih tail)
        rcases key_of_mem_insertEntry hb with hk | hb
        · rw [hk]
          exact Decidable.byContradiction fun hn =>
            hne (String.le_antisymm (String.not_lt.1 hn) (String.not_lt.1 hnlt))
        · exact head b hb

/-- Gives a key a value, in place of the one it has. -/
def insert (t : Table α) (key : String) (value : α) : Table α :=
  ⟨insertEntry key value t.entries, ascending_insertEntry key value t.ascending⟩

/-- The value of a key. -/
def get? (t : Table α) (key : String) : Option α :=
  (t.entries.find? (·.1 == key)).map (·.2)

/-- The number of entries. -/
def size (t : Table α) : Nat :=
  t.entries.length

/-- The keys, ascending. -/
def keys (t : Table α) : List String :=
  t.entries.map (·.1)

/-- The values, in the order of their keys. -/
def values (t : Table α) : List α :=
  t.entries.map (·.2)

theorem get?_empty (key : String) : (empty : Table α).get? key = none := rfl

theorem find?_insertEntry (key k : String) (value : α) (es : List (String × α)) :
    (insertEntry key value es).find? (·.1 == k) =
      if key = k then some (key, value) else es.find? (·.1 == k) := by
  induction es with
  | nil => by_cases h : key = k <;> simp [insertEntry, h]
  | cons a rest ih =>
    simp only [insertEntry]
    by_cases hk : key = k
    · subst hk
      split
      · simp
      · split
        · simp
        · next hne => simp [Ne.symm hne, ih]
    · split
      · simp [List.find?_cons, hk]
      · split
        · next heq => simp [hk, ← heq]
        · simp only [List.find?_cons, ih, hk, if_false]

/-- Inserting changes the value of its key and of no other. -/
theorem get?_insert (t : Table α) (key k : String) (value : α) :
    (t.insert key value).get? k = if key = k then some value else t.get? k := by
  simp only [get?, insert, find?_insertEntry]
  split <;> rfl

end Table

end PipeScript
