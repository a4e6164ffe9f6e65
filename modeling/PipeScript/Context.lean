/-
What a running script can reach outside of its values: the output it writes to, the input it reads
lines from, random draws and the clock.
-/
import PipeScript.Failure
import PipeScript.Text.Utf8

namespace PipeScript

/-- Which calls an output refuses. -/
inductive Sink.Mode where
  | accepting
  | refusingWrites
  | refusingFlushes
deriving DecidableEq, Repr

/-- An output: the bytes written to it so far. -/
structure Sink where
  bytes : ByteArray := .empty
  mode : Sink.Mode := .accepting

namespace Sink

/-- Writes bytes. Nothing at all is never refused. -/
def write (s : Sink) (bytes : ByteArray) : Except IoError Sink :=
  if bytes.isEmpty then .ok s
  else if s.mode = .refusingWrites then .error .writeRefused
  else .ok { s with bytes := s.bytes ++ bytes }

/-- Passes on what was written. -/
def flush (s : Sink) : Except IoError Unit :=
  if s.mode = .refusingFlushes then .error .flushRefused else .ok ()

/-- All that was written, as text. -/
def contents (s : Sink) : String :=
  String.ofList (Text.ofUtf8Lossy s.bytes.toList)

/-- The sink with nothing written to it. -/
def cleared (s : Sink) : Sink :=
  { s with bytes := .empty }

end Sink

/-- The bytes of an input that were not read yet. -/
structure Input where
  unread : List UInt8 := []
deriving DecidableEq

namespace Input

/-- The bytes up to the first line feed, with it, and the bytes after it. -/
def cutLine : List UInt8 → List UInt8 × List UInt8
  | [] => ([], [])
  | b :: rest => if b = 10 then ([b], rest) else (b :: (cutLine rest).1, (cutLine rest).2)

/-- The line without the line feed at its end, nor one carriage return before that. -/
def withoutEnd (line : List Char) : List Char :=
  match line.reverse with
  | '\n' :: '\r' :: front => front.reverse
  | '\n' :: front => front.reverse
  | _ => line

/-- Reads a line, if there is any byte left. A line that spells no text is passed over, too. -/
def readLine (i : Input) : Except IoError (Option String) × Input :=
  if i.unread = [] then (.ok none, i)
  else
    let (line, rest) := cutLine i.unread
    match Text.ofUtf8? line with
    | some s => (.ok (some (String.ofList (withoutEnd s.toList))), ⟨rest⟩)
    | none => (.error .invalidUtf8, ⟨rest⟩)

end Input

/-- Values that are taken one after the other from an unending row. -/
structure Supply (α : Type) where
  row : Nat → α
  taken : Nat := 0

namespace Supply

/-- The next value. -/
def next {α : Type} (s : Supply α) : α :=
  s.row s.taken

/-- The supply after its next value is taken. -/
def advance {α : Type} (s : Supply α) : Supply α :=
  { s with taken := s.taken + 1 }

end Supply

/-- The outside of a running script. -/
structure Context where
  output : Sink := {}
  input : Input := {}
  /-- Random numbers, at least zero and below one. -/
  draws : Supply Float
  /-- Readings of the clock, in milliseconds. -/
  clock : Supply Int64

end PipeScript
