/-
Working on dictionaries. A key is taken by its text at the time of the call. What is no dictionary
has no entries, and nothing can be put into it.
-/
import PipeScript.Builtin.Lists

namespace PipeScript.Dicts

open Arguments

/-- The keys of a dictionary, ascending. -/
def keys (h : Heap) (args : List Value) : Except CallError (Value × Heap) := do
  match ← one args with
  | .dict r => return Lists.made h ((h.entries r).keys.map .str)
  | _ => return Lists.made h []

/-- The values of a dictionary, in the order of their keys. -/
def values (h : Heap) (args : List Value) : Except CallError (Value × Heap) := do
  match ← one args with
  | .dict r => return Lists.made h (h.entries r).values
  | _ => return Lists.made h []

/-- The value of a key, or null. -/
def get (h : Heap) (args : List Value) : Except CallError Value := do
  let (target, key) ← two args
  match target with
  | .dict r => return ((h.entries r).get? (h.text key)).getD .null
  | _ => return .null

/-- Gives a key a value, and gives back the dictionary. -/
def set (h : Heap) (args : List Value) : Except CallError (Value × Heap) := do
  let (target, key, v) ← three args
  match target with
  | .dict r => return (target, h.setEntries r ((h.entries r).insert (h.text key) v))
  | _ => return (target, h)

end PipeScript.Dicts
