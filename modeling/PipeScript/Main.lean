/-
The program: takes the command line, the input and the script from the system, and gives back what
the run of the script leaves. The input is read to its end first, and the clock once.
-/
import PipeScript.CommandLine
import PipeScript.Draws
import Std.Time.DateTime.Timestamp

namespace PipeScript.Shell

/-- Reads all that is left of a stream. -/
partial def readAll (stream : IO.FS.Stream) (bytes : ByteArray) : IO ByteArray := do
  let more ← stream.read 65536
  if more.isEmpty then return bytes else readAll stream (bytes ++ more)

/-- The failure of the system to read a file. -/
def failure : IO.Error → IoError
  | .noFileOrDirectory .. => .fileNotFound
  | .inappropriateType .. => .isDirectory
  | e => .other (toString e)

/-- Reads the script that is named on the command line, if there is one. -/
def readScript (o : CommandLine.Options) : IO (Except IoError (List UInt8)) := do
  match o.file with
  | none => return .ok []
  | some path =>
    try return .ok (← IO.FS.readBinFile path).toList
    catch e => return .error (failure e)

/-- The seed that is given, or one from the system. -/
def seed (o : CommandLine.Options) : IO UInt64 := do
  match o.seed with
  | some seed => return seed
  | none => return UInt64.ofNat (← IO.rand 0 (UInt64.size - 1))

/-- Whether a run with these options takes anything from the input. -/
def readsInput (o : CommandLine.Options) : Bool :=
  o.has .interactive || (o.code.isNone && o.file.isNone) || !(o.has .tokens || o.has .tree)

end PipeScript.Shell

open PipeScript in
/-- Runs the program. -/
def main (args : List String) : IO UInt32 := do
  match CommandLine.Options.read args with
  | .error e =>
    (← IO.getStderr).putStrLn ("error: " ++ e.message)
    return 2
  | .ok o =>
    let script ← Shell.readScript o
    let input ←
      if Shell.readsInput o then Shell.readAll (← IO.getStdin) .empty else pure .empty
    let time ← Std.Time.Timestamp.now
    let context : Context :=
      { input := ⟨input.toList⟩
        draws := .ofSeed (← Shell.seed o)
        clock := { row := fun _ => Int64.ofInt time.toMillisecondsSinceUnixEpoch.val } }
    let outcome := CommandLine.run o (fun _ => script) context
    (← IO.getStdout).write outcome.output
    (← IO.getStdout).flush
    for line in outcome.errors do
      (← IO.getStderr).putStrLn line
    return UInt32.ofNat outcome.status
