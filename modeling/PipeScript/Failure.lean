/-
What can go wrong while a script runs, and how it is worded. A failure is its cause; the wording is
in one place for each kind of failure.
-/
import PipeScript.Decimal.Layout
import PipeScript.Token
import PipeScript.Value

namespace PipeScript

/-- Why reading or writing failed. -/
inductive IoError where
  | writeRefused
  | flushRefused
  | invalidUtf8
  | fileNotFound
  | isDirectory
  /-- Any other, in the words of the system or of a host function. -/
  | other (message : String)
deriving DecidableEq, Repr

namespace IoError

/-- The wording of an input or output failure. -/
def message : IoError → String
  | .writeRefused => "write refused"
  | .flushRefused => "flush refused"
  | .invalidUtf8 => "stream did not contain valid UTF-8"
  | .fileNotFound => "No such file or directory (os error 2)"
  | .isDirectory => "Is a directory (os error 21)"
  | .other message => message

end IoError

/-- Why a function refused the values of its arguments. -/
inductive Complaint where
  | cannotCompare (a b : Kind)
  /-- A float rounds to a whole number that is no integer. -/
  | noInteger (x : Float)
  /-- A result would be no number. -/
  | domain
  | zeroToNegativePower
  | emptySeparator
  /-- A text spells no number. -/
  | notNumeric (s : String)
  /-- A loop whose condition can never become false. -/
  | endless
  /-- The words of a host function. -/
  | host (message : String)
deriving DecidableEq

namespace Complaint

/-- The wording of a complaint. -/
def message : Complaint → String
  | .cannotCompare a b => "cannot compare " ++ a.name ++ " with " ++ b.name
  | .noInteger x => "cannot convert " ++ String.ofList (Decimal.text .plain x) ++ " to an integer"
  | .domain => "math domain error"
  | .zeroToNegativePower => "zero cannot be raised to a negative power"
  | .emptySeparator => "empty separator"
  | .notNumeric s => "could not convert string to number: " ++ Text.quoted s
  | .endless =>
    "while needs a function as its condition; a constant true value never terminates"
  | .host message => message

end Complaint

/-- Why a call of a function failed. -/
inductive CallError where
  /-- Too few or too many arguments. -/
  | arity (expected : String) (found : Nat)
  /-- An argument of a type that the function does not take. -/
  | mismatch (expected : String) (found : Kind)
  /-- An argument of the right type that the function refuses. -/
  | value (complaint : Complaint)
  /-- A failure of input or output. -/
  | io (e : IoError)
deriving DecidableEq

namespace CallError

/-- The wording of a failed call. -/
def message : CallError → String
  | .arity expected found => "expected " ++ expected ++ " argument(s), got " ++ toString found
  | .mismatch expected found => "expected " ++ expected ++ ", got " ++ found.name
  | .value complaint => complaint.message
  | .io e => e.message

end CallError

/-- Why a script failed. -/
inductive ScriptError where
  /-- No function has the name that is called. -/
  | unresolved (name : String)
  /-- The function of that name failed. -/
  | call (name : String) (cause : CallError)
  /-- The source needs a recovery, and none is allowed. -/
  | malformed (d : Diagnostic)
  /-- The source could not be read. -/
  | io (e : IoError)
deriving DecidableEq

namespace ScriptError

/-- The wording of a failed script. -/
def message : ScriptError → String
  | .unresolved name => "function not found: " ++ name
  | .call name cause => "error calling " ++ name ++ ": " ++ cause.message
  | .malformed d => d.span.text ++ ": " ++ d.message
  | .io e => e.message

end ScriptError

end PipeScript
