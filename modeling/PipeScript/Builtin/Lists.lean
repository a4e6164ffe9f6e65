/-
Working on lists. The functions that add or remove an item change the list itself; all others leave
it as it is and give a new one.
-/
import PipeScript.Builtin.Comparison
import PipeScript.Builtin.Words

namespace PipeScript.Lists

open Arguments

/-- The list with a value added at its end. -/
def push (h : Heap) (args : List Value) : Except CallError (Value × Heap) := do
  let (target, v) ← two args
  let r ← list target
  return (target, h.setItems r (h.items r ++ [v]))

/-- The list with a value added at its front. -/
def unshift (h : Heap) (args : List Value) : Except CallError (Value × Heap) := do
  let (target, v) ← two args
  let r ← list target
  return (target, h.setItems r (v :: h.items r))

/-- Takes the last item off a list. There is none in what is not true. -/
def pop (h : Heap) (args : List Value) : Except CallError (Value × Heap) := do
  let target ← one args
  if !h.truthy target then return (.null, h)
  let r ← list target
  return ((h.items r).getLast?.getD .null, h.setItems r (h.items r).dropLast)

/-- Takes the first item off a list. There is none in what is not true. -/
def shift (h : Heap) (args : List Value) : Except CallError (Value × Heap) := do
  let target ← one args
  if !h.truthy target then return (.null, h)
  let r ← list target
  return ((h.items r).head?.getD .null, h.setItems r (h.items r).tail)

/-- Makes a new list of items. -/
def made (h : Heap) (items : List Value) : Value × Heap :=
  let (r, h) := h.newList items
  (.list r, h)

/-- The items of a list, or the characters of a text, from one bound to the other. -/
def slice (h : Heap) (args : List Value) : Except CallError (Value × Heap) := do
  let (v, start, stop) ← twoOrThree args
  let start ← bound start
  let stop ← bound stop
  match v with
  | .list r => return made h (Slice.apply start stop (h.items r))
  | .str s => return (Words.ofChars (Slice.apply start stop s.toList), h)
  | v => throw (.mismatch "list or str" v.kind)

/-- The items of a list, or the characters of a text, in the opposite order. -/
def reverse (h : Heap) (args : List Value) : Except CallError (Value × Heap) := do
  match ← one args with
  | .list r => return made h (h.items r).reverse
  | .str s => return (Words.ofChars s.toList.reverse, h)
  | v => throw (.mismatch "list or str" v.kind)

/-- The items of a list in ascending order. -/
def sort (h : Heap) (args : List Value) : Except CallError (Value × Heap) := do
  let r ← list (← one args)
  return made h (← Comparison.sorted h (h.items r))

/-- The parts of a text as a list. -/
def split (h : Heap) (args : List Value) : Except CallError (Value × Heap) := do
  return made h (← Words.split h args)

end PipeScript.Lists
