/-
Calling functions: what each function of the language does, and how a call finds it or the host's.
-/
import PipeScript.Builtin.Arithmetic
import PipeScript.Builtin.Branching
import PipeScript.Builtin.Console
import PipeScript.Builtin.Dicts
import PipeScript.Builtin.Kinds

namespace PipeScript

variable {σ : Type}

/-- What a function of the language does. Functions among its arguments are called by `call`, and
loops run for as many rounds as there is fuel. -/
def Builtin.run (fuel : Nat) (call : Caller σ) (b : Builtin) (args : List Value) : Run σ Value :=
  match b with
  | .print | .log => Console.print args
  | .input => Console.input args
  | .time => Console.time args
  | .random => Console.random args
  | .add => Run.ofExcept (Arithmetic.add args)
  | .sub => Run.ofExcept (Arithmetic.sub args)
  | .mul => Run.ofExcept (Arithmetic.mul args)
  | .div => Run.ofExcept (Arithmetic.div args)
  | .mod => Run.ofExcept (Arithmetic.mod args)
  | .abs => Run.ofExcept (Arithmetic.abs args)
  | .sqrt => Run.ofExcept (Arithmetic.sqrt args)
  | .pow => Run.ofExcept (Arithmetic.pow args)
  | .round => Run.ofExcept (Arithmetic.round args)
  | .floor => Run.ofExcept (Arithmetic.floor args)
  | .ceil => Run.ofExcept (Arithmetic.ceil args)
  | .max => Run.reading (Comparison.max · args)
  | .min => Run.reading (Comparison.min · args)
  | .eq => Run.reading (Comparison.eq · args)
  | .ne => Run.reading (Comparison.ne · args)
  | .gt => Run.reading (Comparison.gt · args)
  | .lt => Run.reading (Comparison.lt · args)
  | .gte => Run.reading (Comparison.gte · args)
  | .lte => Run.reading (Comparison.lte · args)
  | .concat => Run.reading (Words.concat · args)
  | .uppercase => Run.reading (Words.uppercase · args)
  | .lowercase => Run.reading (Words.lowercase · args)
  | .split => Run.changing (Lists.split · args)
  | .join => Run.reading (Words.join · args)
  | .length => Run.reading (Words.length · args)
  | .substring => Run.reading (Words.substring · args)
  | .trim => Run.reading (Words.trim · args)
  | .replace => Run.reading (Words.replace · args)
  | .push => Run.changing (Lists.push · args)
  | .pop => Run.changing (Lists.pop · args)
  | .shift => Run.changing (Lists.shift · args)
  | .unshift => Run.changing (Lists.unshift · args)
  | .slice => Run.changing (Lists.slice · args)
  | .reverse => Run.changing (Lists.reverse · args)
  | .sort => Run.changing (Lists.sort · args)
  | .map => Iteration.map call args
  | .filter => Iteration.filter call args
  | .find => Iteration.find call args
  | .some => Iteration.some call args
  | .every => Iteration.every call args
  | .keys => Run.changing (Dicts.keys · args)
  | .values => Run.changing (Dicts.values · args)
  | .get => Run.reading (Dicts.get · args)
  | .set => Run.changing (Dicts.set · args)
  | .typeof => Run.ofExcept (Kinds.typeof args)
  | .tostring => Run.reading (Kinds.tostring · args)
  | .tonumber => Run.ofExcept (Kinds.tonumber args)
  | .tobool => Run.reading (Kinds.tobool · args)
  | .isnull => Run.ofExcept (Kinds.isnull args)
  | .and => Run.reading (Kinds.and · args)
  | .or => Run.reading (Kinds.or · args)
  | .not => Run.reading (Kinds.not · args)
  | .ifElse => Branching.ifElse call args
  | .forEach => Branching.forEach call args
  | .whileTrue => Branching.whileTrue fuel call args

/-- The functions of the host, by their numbers. Each is given a way to call functions that it has
or gets. -/
abbrev Host (σ : Type) := Nat → Caller σ → List Value → Run σ Value

/-- Calls a function. Each call that is made within a call has less fuel. -/
def Host.call (host : Host σ) : Nat → Caller σ
  | 0, _, _ => throw .exhausted
  | fuel + 1, f, args =>
    match f.body with
    | .builtin b => b.run fuel (host.call fuel) args
    | .host id => host id (host.call fuel) args

end PipeScript
