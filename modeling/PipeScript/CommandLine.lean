/-
The command line: which script is run and how, and what the program writes. Options may stand
before and after the name of a script, each once; after two dashes there are no more options.
-/
import PipeScript.Interactive
import PipeScript.Syntax.Outline

namespace PipeScript.CommandLine

/-- Options without a value. -/
inductive Switch where
  | interactive | strict | tokens | tree | quiet | verbose
deriving DecidableEq, Repr

/-- Options with a value. -/
inductive Setting where
  | code | seed
deriving DecidableEq, Repr

/-- An option. -/
inductive Flag where
  | switch (s : Switch)
  | setting (s : Setting)
deriving DecidableEq, Repr

/-- The options by their long names. -/
def longFlags : List (String × Flag) :=
  [("eval", .setting .code), ("interactive", .switch .interactive), ("strict", .switch .strict),
    ("seed", .setting .seed), ("tokens", .switch .tokens), ("ast", .switch .tree),
    ("quiet", .switch .quiet), ("verbose", .switch .verbose)]

/-- The options by their letters. -/
def shortFlags : List (Char × Flag) :=
  [('e', .setting .code), ('i', .switch .interactive), ('q', .switch .quiet),
    ('v', .switch .verbose)]

/-- Why a command line cannot be understood. -/
inductive UsageError where
  | unknownOption (name : String)
  | missingValue
  | unexpectedValue (name : String)
  | repeated
  | malformedSeed (text : String)
  | secondFile (path : String)
  | fileWithCode
  | tokensWithTree
deriving DecidableEq, Repr

namespace UsageError

/-- The wording of a usage error. -/
def message : UsageError → String
  | .unknownOption name => "unknown option " ++ Text.quoted name
  | .missingValue => "an option needs a value"
  | .unexpectedValue name => "option " ++ Text.quoted name ++ " takes no value"
  | .repeated => "an option is given twice"
  | .malformedSeed text => "no seed: " ++ Text.quoted text
  | .secondFile path => "a second script: " ++ Text.quoted path
  | .fileWithCode => "a script and a source text"
  | .tokensWithTree => "tokens and syntax tree"

end UsageError

/-- What a command line says. -/
structure Options where
  file : Option String := none
  code : Option String := none
  seed : Option UInt64 := none
  switches : List Switch := []
deriving DecidableEq, Repr

namespace Options

/-- Whether a switch is given. -/
def has (o : Options) (s : Switch) : Bool :=
  o.switches.contains s

/-- Adds a switch. Only the one for more messages may be given again. -/
def addSwitch (o : Options) (s : Switch) : Except UsageError Options :=
  if o.has s && s != .verbose then .error .repeated else .ok { o with switches := s :: o.switches }

/-- The seed that a text spells: digits, after an optional plus sign. -/
def readSeed? (text : String) : Option UInt64 :=
  match Text.readWhole? text.toList with
  | some n => if text.toList.head? ≠ some '-' ∧ n < UInt64.size then some (UInt64.ofNat n.toNat) else none
  | none => none

/-- Adds a setting. -/
def addSetting (o : Options) (s : Setting) (value : String) : Except UsageError Options :=
  match s with
  | .code => if o.code.isSome then .error .repeated else .ok { o with code := some value }
  | .seed =>
    if o.seed.isSome then .error .repeated
    else match readSeed? value with
      | some seed => .ok { o with seed := some seed }
      | none => .error (.malformedSeed value)

/-- Adds the script to run. -/
def addFile (o : Options) (path : String) : Except UsageError Options :=
  if o.file.isSome then .error (.secondFile path) else .ok { o with file := some path }

end Options

/-- How far a command line was read: a setting may wait for its value, and there may be no more
options. -/
structure Progress where
  options : Options := {}
  waiting : Option Setting := none
  ended : Bool := false

namespace Progress

/-- Reads a long option, the two dashes taken off. A value may follow an equals sign. -/
def long (p : Progress) (option : List Char) : Except UsageError Progress := do
  let name := option.takeWhile (· ≠ '=')
  let value := match option.dropWhile (· ≠ '=') with
    | _ :: value => some (String.ofList value)
    | [] => none
  match longFlags.lookup (String.ofList name), value with
  | none, _ => throw (.unknownOption (String.ofList name))
  | some (.switch s), none => return { p with options := ← p.options.addSwitch s }
  | some (.switch _), some _ => throw (.unexpectedValue (String.ofList name))
  | some (.setting s), some value => return { p with options := ← p.options.addSetting s value }
  | some (.setting s), none => return { p with waiting := some s }

/-- Reads options given by letters, one dash taken off. All after the letter of a setting is its
value, less an equals sign. -/
def short (p : Progress) : List Char → Except UsageError Progress
  | [] => .ok p
  | c :: rest =>
    match shortFlags.lookup c with
    | none => .error (.unknownOption (String.ofList [c]))
    | some (.switch s) => do short { p with options := ← p.options.addSwitch s } rest
    | some (.setting s) =>
      match rest with
      | [] => .ok { p with waiting := some s }
      | '=' :: value => do return { p with options := ← p.options.addSetting s (String.ofList value) }
      | value => do return { p with options := ← p.options.addSetting s (String.ofList value) }

/-- Reads one more argument. What begins with a dash, and is not a dash alone, is never a value of
the option before it. -/
def read (p : Progress) (arg : String) : Except UsageError Progress := do
  if p.ended then
    if p.waiting.isSome then throw .missingValue
    return { p with options := ← p.options.addFile arg }
  match arg.toList with
  | ['-', '-'] => return { p with ended := true }
  | '-' :: c :: rest =>
    if p.waiting.isSome then throw .missingValue
    if c = '-' then p.long rest else p.short (c :: rest)
  | _ =>
    match p.waiting with
    | some s => return { p with options := ← p.options.addSetting s arg, waiting := none }
    | none => return { p with options := ← p.options.addFile arg }

/-- What the command line says, if it is complete and free of conflicts. -/
def finish (p : Progress) : Except UsageError Options := do
  let o := p.options
  if p.waiting.isSome then throw .missingValue
  if o.file.isSome && o.code.isSome then throw .fileWithCode
  if o.has .tokens && o.has .tree then throw .tokensWithTree
  return o

end Progress

/-- Reads a command line. -/
def Options.read (args : List String) : Except UsageError Options := do
  (← args.foldlM Progress.read {}).finish

/-- What the program leaves: its exit status, what it wrote, and its error messages. -/
structure Outcome where
  status : Nat
  output : ByteArray
  errors : List String

/-- The outcome of a failure before anything was written. -/
def Outcome.failure (e : IoError) : Outcome :=
  ⟨1, .empty, ["error: " ++ e.message]⟩

/-- A host without functions of its own. -/
def noHost : Host Unit :=
  fun _ _ _ => Run.fail (.value (.host "no such function"))

/-- The fuel of a program without host functions. No function value ever comes up in it, so that
calls within calls do not, either. -/
def fuel : Nat := 1

/-- The outcome of what an interactive session or a script left. -/
def Outcome.ofState (succeeded : Bool) (s : Interactive.State Unit) : Outcome :=
  ⟨if succeeded then 0 else 1, s.machine.world.context.output.bytes,
    s.errors.reverse.map ("error: " ++ ·)⟩

/-- The bytes of a source as text. -/
def decode (bytes : List UInt8) : Except IoError String :=
  match Text.ofUtf8? bytes with
  | some s => .ok s
  | none => .error .invalidUtf8

/-- Runs one source text. -/
def runSource (o : Options) (context : Context) (source : String) : Outcome :=
  if o.has .tokens then
    let listing := String.join ((lex source).tokens.map fun t => t.listing ++ "\n")
    ⟨0, Text.utf8 listing, []⟩
  else if o.has .tree then
    match compile (o.has .strict) source with
    | .ok p => ⟨0, Text.utf8 (Program.outline p ++ "\n"), []⟩
    | .error d => ⟨1, .empty, ["error: " ++ (ScriptError.malformed d).message]⟩
  else
    let state := Interactive.run noHost fuel ⟨o.has .strict, o.has .quiet⟩ source
      { machine := { env := {}, world := { heap := .empty, context, host := () } } }
    .ofState state.errors.isEmpty state

/-- Runs the program: an interactive session, or the source that the options name. A source that is
read from the input leaves none of it to the script. -/
def run (o : Options) (file : String → Except IoError (List UInt8)) (context : Context) : Outcome :=
  if o.has .interactive then
    let (succeeded, state) := Interactive.session noHost fuel ⟨o.has .strict, o.has .quiet⟩
      { env := {}, world := { heap := .empty, context, host := () } }
    .ofState succeeded state
  else
    let source : Except IoError String := match o.code, o.file with
      | some code, _ => .ok code
      | none, some path => file path >>= decode
      | none, none => decode context.input.unread
    let context := if o.code.isNone && o.file.isNone then { context with input := {} } else context
    match source with
    | .ok source => runSource o context source
    | .error e => .failure e

end PipeScript.CommandLine
