/-
The functions that every script can call, and their names. The names are fixed: no script and no
host can add, remove or replace one.
-/
namespace PipeScript

/-- A function of the language itself. -/
inductive Builtin where
  | print | log | input | time
  | add | sub | mul | div | mod | abs | sqrt | pow | round | floor | ceil | max | min | random
  | concat | uppercase | lowercase | split | join | length | substring | trim | replace
  | push | pop | shift | unshift | slice | reverse | sort
  | map | filter | find | some | every
  | keys | values | get | set
  | typeof | tostring | tonumber | tobool | isnull
  | eq | ne | gt | lt | gte | lte | and | or | not
  | ifElse | forEach | whileTrue
deriving DecidableEq, Repr

namespace Builtin

/-- The name under which scripts call the function. -/
def name : Builtin → String
  | .print => "print" | .log => "log" | .input => "input" | .time => "time"
  | .add => "add" | .sub => "sub" | .mul => "mul" | .div => "div" | .mod => "mod" | .abs => "abs"
  | .sqrt => "sqrt" | .pow => "pow" | .round => "round" | .floor => "floor" | .ceil => "ceil"
  | .max => "max" | .min => "min" | .random => "random"
  | .concat => "concat" | .uppercase => "uppercase" | .lowercase => "lowercase"
  | .split => "split" | .join => "join" | .length => "length" | .substring => "substring"
  | .trim => "trim" | .replace => "replace"
  | .push => "push" | .pop => "pop" | .shift => "shift" | .unshift => "unshift"
  | .slice => "slice" | .reverse => "reverse" | .sort => "sort"
  | .map => "map" | .filter => "filter" | .find => "find" | .some => "some" | .every => "every"
  | .keys => "keys" | .values => "values" | .get => "get" | .set => "set"
  | .typeof => "typeof" | .tostring => "tostring" | .tonumber => "tonumber"
  | .tobool => "tobool" | .isnull => "isnull"
  | .eq => "eq" | .ne => "ne" | .gt => "gt" | .lt => "lt" | .gte => "gte" | .lte => "lte"
  | .and => "and" | .or => "or" | .not => "not"
  | .ifElse => "if" | .forEach => "for" | .whileTrue => "while"

/-- All functions of the language, in the order of their names. -/
def all : List Builtin :=
  [.abs, .add, .and, .ceil, .concat, .div, .eq, .every, .filter, .find, .floor, .forEach, .get,
    .gt, .gte, .ifElse, .input, .isnull, .join, .keys, .length, .log, .lowercase, .lt, .lte, .map,
    .max, .min, .mod, .mul, .ne, .not, .or, .pop, .pow, .print, .push, .random, .replace, .reverse,
    .round, .set, .shift, .slice, .some, .sort, .split, .sqrt, .sub, .substring, .time, .tobool,
    .tonumber, .tostring, .trim, .typeof, .unshift, .uppercase, .values, .whileTrue]

/-- The function of a name, if there is one. -/
def ofName? (name : String) : Option Builtin :=
  all.find? (·.name == name)

theorem name_of_ofName? {name : String} {b : Builtin} (h : ofName? name = Option.some b) :
    b.name = name := by
  simpa using List.find?_some h

/-- The names of all functions, ascending. -/
def names : List String :=
  all.map name

end Builtin

end PipeScript
