/-
Tokens of the script language, where they stand in the source, and what a reader has to say about
source text that it had to make sense of in its own way.
-/
import PipeScript.Text.Quoted

namespace PipeScript

/-- A place in the source: line and column, both counted from one. -/
structure Span where
  line : Nat
  column : Nat
deriving DecidableEq, Repr

namespace Span

/-- The first place of a source. -/
def start : Span := ⟨1, 1⟩

/-- The place after a character. Only a line feed begins a new line. -/
def next (s : Span) (c : Char) : Span :=
  if c = '\n' then ⟨s.line + 1, 1⟩ else ⟨s.line, s.column + 1⟩

/-- The place after a text. -/
def after (s : Span) (cs : List Char) : Span :=
  cs.foldl next s

theorem after_nil (s : Span) : s.after [] = s := rfl

theorem after_cons (s : Span) (c : Char) (cs : List Char) :
    s.after (c :: cs) = (s.next c).after cs := rfl

theorem after_append (s : Span) (xs ys : List Char) :
    s.after (xs ++ ys) = (s.after xs).after ys :=
  List.foldl_append

/-- The place as `line:column`. -/
def text (s : Span) : String :=
  toString s.line ++ ":" ++ toString s.column

end Span

/-- What a token is. -/
inductive TokenKind where
  /-- The bar that opens a call, with the name of the function. -/
  | pipe
  /-- The mark before the name of a variable that is read. -/
  | variable
  /-- The mark before the name of a variable that is bound. -/
  | assign
  /-- The mark of an access to a dictionary. -/
  | objectAccess
  /-- The mark of an access to a list. -/
  | arrayAccess
  | symbol
  | string
  | number
  /-- A word, or the name after a mark. -/
  | identifier
  /-- One of the words for the booleans and null. -/
  | keyword
  /-- The end of the source. -/
  | eof
deriving DecidableEq, Repr

namespace TokenKind

/-- All kinds. -/
def all : List TokenKind :=
  [.pipe, .variable, .assign, .objectAccess, .arrayAccess, .symbol, .string, .number, .identifier,
    .keyword, .eof]

/-- The name of the kind in listings and messages. -/
def name : TokenKind → String
  | .pipe => "Pipe"
  | .variable => "VarGet"
  | .assign => "Assign"
  | .objectAccess => "ObjectAccess"
  | .arrayAccess => "ArrayAccess"
  | .symbol => "Symbol"
  | .string => "String"
  | .number => "Number"
  | .identifier => "Identifier"
  | .keyword => "Keyword"
  | .eof => "Eof"

/-- The kind of a given name. -/
def ofName? (name : String) : Option TokenKind :=
  all.find? (·.name == name)

end TokenKind

/-- A token: its kind, its text without marks, quotes and escapes, and its first place. -/
structure Token where
  kind : TokenKind
  slice : String
  span : Span
deriving DecidableEq, Repr

namespace Token

/-- Whether the token is the symbol that separates a name or an argument from the next one. -/
def isColon (t : Token) : Bool :=
  t.kind = .symbol ∧ t.slice = ":"

/-- The line of a token listing. -/
def listing (t : Token) : String :=
  t.span.text ++ " " ++ t.kind.name ++ " " ++ Text.quoted t.slice

end Token

/-- Something in the source that the reader passed over or filled in. -/
inductive Recovery where
  /-- A character with which no token begins. It is skipped. -/
  | unexpectedCharacter (c : Char)
  /-- A string without its closing quote. It runs to the end of the source. -/
  | unterminatedString
  /-- No name after the mark of a variable that is read or bound. The name is empty. -/
  | missingName (mark : Char)
  /-- No expression before the end of the source. It is null. -/
  | missingExpression
  /-- A token with which no expression begins. It is read as null. -/
  | unexpectedToken (kind : TokenKind) (slice : String)
  /-- A number that is none. It is read as null. -/
  | malformedNumber (slice : String)
deriving DecidableEq, Repr

namespace Recovery

/-- The wording of a recovery. -/
def message : Recovery → String
  | .unexpectedCharacter c => "unexpected character " ++ Text.quotedChar c
  | .unterminatedString => "unterminated string literal"
  | .missingName mark => "expected a name after `" ++ mark.toString ++ "`"
  | .missingExpression => "expected an expression, found end of input"
  | .unexpectedToken kind slice => "unexpected " ++ kind.name ++ " token " ++ Text.quoted slice
  | .malformedNumber slice => "malformed number " ++ Text.quoted slice

end Recovery

/-- A recovery and the place it was made at. -/
structure Diagnostic where
  recovery : Recovery
  span : Span
deriving DecidableEq, Repr

namespace Diagnostic

/-- The wording of a diagnostic, without its place. -/
def message (d : Diagnostic) : String :=
  d.recovery.message

end Diagnostic

end PipeScript
