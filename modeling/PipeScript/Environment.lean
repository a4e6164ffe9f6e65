/-
The names of one evaluator: variables, and the functions that the host gave it. There is one flat
space of each, and neither shows through into the other.
-/
import PipeScript.Heap.Display

namespace PipeScript

/-- Variables and host functions by their names. -/
structure Environment where
  bindings : Table Value := .empty
  functions : Table Callable := .empty

namespace Environment

/-- The value of a variable, if it is bound. -/
def get? (env : Environment) (name : String) : Option Value :=
  env.bindings.get? name

/-- Binds a variable. -/
def set (env : Environment) (name : String) (v : Value) : Environment :=
  { env with bindings := env.bindings.insert name v }

/-- Gives a name to a function of the host. -/
def define (env : Environment) (name : String) (f : Callable) : Environment :=
  { env with functions := env.functions.insert name f }

/-- The function that a call of a name means: that of the language, or else that of the host. -/
def function? (env : Environment) (name : String) : Option Callable :=
  match Builtin.ofName? name with
  | some b => some (.ofBuiltin b)
  | none => env.functions.get? name

/-- An outline of several named things. -/
def bracedOutline (entries : List (String × String)) : String :=
  "\x7b" ++ ", ".intercalate (entries.map fun e => Text.quoted e.1 ++ ": " ++ e.2) ++ "\x7d"

/-- The outline of the functions of the language: how many there are. -/
def registryOutline : String :=
  "Registry \x7b functions: " ++ toString Builtin.all.length ++ " \x7d"

/-- The outline of all names. -/
def outline (env : Environment) (h : Heap) : String :=
  "Env \x7b objects: " ++ bracedOutline (env.bindings.entries.map fun e => (e.1, h.outline e.2)) ++
    ", builtins: " ++ registryOutline ++
    ", functions: " ++
    bracedOutline (env.functions.entries.map fun e => (e.1, h.outline (.function e.2))) ++ " \x7d"

/-- Binding a variable changes no other one. -/
theorem get?_set (env : Environment) (name other : String) (v : Value) :
    (env.set name v).get? other = if name = other then some v else env.get? other :=
  Table.get?_insert ..

/-- Binding a variable changes no function. -/
theorem function?_set (env : Environment) (name other : String) (v : Value) :
    (env.set name v).function? other = env.function? other := rfl

/-- Giving a name to a function changes no variable. -/
theorem get?_define (env : Environment) (name other : String) (f : Callable) :
    (env.define name f).get? other = env.get? other := rfl

end Environment

end PipeScript
