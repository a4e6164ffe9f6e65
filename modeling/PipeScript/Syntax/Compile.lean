/-
From source text to a script, either forgiving, as tokens and syntax trees are read, or strict,
where the first recovery is an error.
-/
import PipeScript.Syntax.Parser
import PipeScript.Token.Lexer

namespace PipeScript

/-- All recoveries that reading the source takes, those among characters before those among
tokens. -/
def recoveries (source : String) : List Diagnostic :=
  let lexed := lex source
  lexed.diagnostics ++ (parse lexed.tokens).diagnostics

/-- The script of a source, whatever the source. -/
def parseSource (source : String) : Program :=
  (parse (lex source).tokens).program

/-- The script of a source. When strict, the first recovery is returned instead. -/
def compile (strict : Bool) (source : String) : Except Diagnostic Program :=
  match strict, recoveries source with
  | true, d :: _ => .error d
  | _, _ => .ok (parseSource source)

end PipeScript
