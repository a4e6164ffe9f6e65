/-
Working on texts. Values of other types are taken by their text, separators and replacements are
not. Counts and positions are those of characters.
-/
import PipeScript.Builtin.Arguments
import PipeScript.Decimal.Reading
import PipeScript.Heap.Display
import PipeScript.Text.Blank
import PipeScript.Text.Casing
import PipeScript.Text.Search

namespace PipeScript

/-- The place of a bound in a row of `length` items: one that is negative counts from the end, and
all are moved into the row. -/
def Slice.place (length : Nat) (bound : Int64) : Nat :=
  let i := bound.toInt
  if i < 0 then (i + length).toNat else Nat.min i.toNat length

/-- The places from which on and before which the items of a row of `length` items lie, from one
bound to the other. The second one is never less than the first. -/
def Slice.range (length : Nat) (start stop : Option Int64) : Nat × Nat :=
  let low := (start.map (Slice.place length)).getD 0
  let high := (stop.map (Slice.place length)).getD length
  (low, max high low)

/-- The items of a row from one bound to the other. -/
def Slice.apply {α : Type} (start stop : Option Int64) (row : List α) : List α :=
  let (low, high) := Slice.range row.length start stop
  (row.take high).drop low

namespace Words

open Arguments

/-- A text value. -/
def ofChars (cs : List Char) : Value :=
  .str (String.ofList cs)

/-- The texts of all arguments, one after the other. -/
def concat (h : Heap) (args : List Value) : Except CallError Value :=
  .ok (ofChars (args.flatMap h.display))

/-- The text in upper case. -/
def uppercase (h : Heap) (args : List Value) : Except CallError Value := do
  return ofChars (Text.uppercase (h.display (← one args)))

/-- The text in lower case. -/
def lowercase (h : Heap) (args : List Value) : Except CallError Value := do
  return ofChars (Text.lowercase (h.display (← one args)))

/-- The parts of a text between the occurrences of a separator that is not empty. -/
def split (h : Heap) (args : List Value) : Except CallError (List Value) := do
  let (v, separator) ← two args
  let separator ← text separator
  if separator.isEmpty then throw (.value .emptySeparator)
  return (Text.splitAt separator.toList (h.display v)).map ofChars

/-- The texts of the items of a list with a separator between each two. -/
def join (h : Heap) (args : List Value) : Except CallError Value := do
  let (items, separator) ← two args
  let r ← list items
  let separator ← text separator
  return ofChars (Text.joinWith separator.toList ((h.items r).map h.display))

/-- The number of characters, items or entries. -/
def length (h : Heap) (args : List Value) : Except CallError Value := do
  match ← one args with
  | .str s => return .int (Int64.ofNat s.toList.length)
  | .list r => return .int (Int64.ofNat (h.items r).length)
  | .dict r => return .int (Int64.ofNat (h.entries r).size)
  | v => throw (.mismatch "str, list or dict" v.kind)

/-- The characters of a text from one bound to the other. -/
def substring (h : Heap) (args : List Value) : Except CallError Value := do
  let (v, start, stop) ← twoOrThree args
  let start ← bound start
  let stop ← bound stop
  return ofChars (Slice.apply start stop (h.display v))

/-- The text without the blanks at its ends. -/
def trim (h : Heap) (args : List Value) : Except CallError Value := do
  return ofChars (Text.trim (h.display (← one args)))

/-- The text with every occurrence of one text replaced by another. -/
def replace (h : Heap) (args : List Value) : Except CallError Value := do
  let (v, pattern, replacement) ← three args
  let pattern ← text pattern
  let replacement ← text replacement
  return ofChars (Text.replaceAll pattern.toList replacement.toList (h.display v))

end Words

end PipeScript
