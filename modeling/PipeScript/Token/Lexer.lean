/-
From source text to tokens. The source is first cut into lexemes: stretches of text that are blank,
a token, the point of an access, or a character that begins nothing. Put together, the lexemes are
the source again. Their places follow from their lengths, and tokens and diagnostics from the
lexemes at their places.
-/
import PipeScript.Text.Blank
import PipeScript.Text.Letter
import PipeScript.Token

namespace PipeScript

/-- What a stretch of source text is. -/
inductive Lexeme.Role where
  /-- White space between tokens. -/
  | blank
  /-- The point between the two names of an access. -/
  | point
  /-- A character with which no token begins. -/
  | stray (c : Char)
  /-- A token of the given text. -/
  | token (kind : TokenKind) (slice : List Char)
  /-- A string that the end of the source cuts off. -/
  | openString (value : List Char)
deriving DecidableEq

/-- A stretch of source text. -/
structure Lexeme where
  text : List Char
  role : Lexeme.Role
deriving DecidableEq

/-- What names of variables consist of. -/
def isNameChar (c : Char) : Bool :=
  Text.isLetterOrNumeral c || c = '_'

/-- What names of functions, and words, consist of. -/
def isWordChar (c : Char) : Bool :=
  Text.isLetterOrNumeral c || c = '_' || c = '-'

/-- What numbers consist of. -/
def isNumberChar (c : Char) : Bool :=
  c.isDigit || c = '.'

/-- The characters that are tokens of their own. -/
def symbols : List Char :=
  ['{', '}', '[', ']', '(', ')', ':', ',', '-']

/-- The words that are not text but values. -/
def keywords : List (List Char) :=
  ["true".toList, "false".toList, "null".toList]

namespace Lexeme

/-- The lexeme of a run of characters, if the run is not empty. -/
def ofRun (kind : TokenKind) (run : List Char) : List Lexeme :=
  if run = [] then [] else [⟨run, .token kind run⟩]

/-- The lexemes that a rule found, and the source after them. -/
structure Found where
  lexemes : List Lexeme
  rest : List Char

/-- A name, which may be empty and is then no lexeme. -/
def name (cs : List Char) : Found :=
  ⟨ofRun .identifier (cs.takeWhile isNameChar), cs.dropWhile isNameChar⟩

/-- The mark of an access, a name, and after a point what `index` reads. -/
def access (mark : Char) (kind : TokenKind) (index : List Char → Found) (cs : List Char) : Found :=
  let key := name cs
  match key.rest with
  | '.' :: rest =>
    let member := index rest
    ⟨⟨[mark], .token kind []⟩ :: key.lexemes ++ ⟨['.'], .point⟩ :: member.lexemes, member.rest⟩
  | rest => ⟨⟨[mark], .token kind []⟩ :: key.lexemes, rest⟩

/-- A run of digits, which may be empty and is then no lexeme. -/
def digits (cs : List Char) : Found :=
  ⟨ofRun .number (cs.takeWhile Char.isDigit), cs.dropWhile Char.isDigit⟩

/-- What a character stands for after a backslash. -/
def unescaped : Char → Char
  | 'n' => '\n'
  | 't' => '\t'
  | 'r' => '\r'
  | c => c

/-- The inside of a string: its value, the text read for it with the closing quote, the source
after that, and whether there is a closing quote. -/
structure StringBody where
  value : List Char
  text : List Char
  rest : List Char
  closed : Bool

/-- The inside of a string with one more character, which was read as `text`. -/
def StringBody.push (value : Char) (text : List Char) (b : StringBody) : StringBody :=
  { b with value := value :: b.value, text := text ++ b.text }

/-- Reads the inside of a string. A backslash takes the next character with it; at the end of the
source it stands for itself. -/
def stringBody : List Char → StringBody
  | [] => ⟨[], [], [], false⟩
  | '"' :: rest => ⟨[], ['"'], rest, true⟩
  | ['\\'] => ⟨['\\'], ['\\'], [], false⟩
  | '\\' :: c :: rest => (stringBody rest).push (unescaped c) ['\\', c]
  | c :: rest => (stringBody rest).push c [c]

/-- Reads a string, the opening quote being read. -/
def string (cs : List Char) : Found :=
  let b := stringBody cs
  ⟨[⟨'"' :: b.text, if b.closed then .token .string b.value else .openString b.value⟩], b.rest⟩

/-- The kind of a word. -/
def wordKind (word : List Char) : TokenKind :=
  if keywords.contains word then .keyword else .identifier

/-- Reads what begins with the character `c`. The first character decides what it is. -/
def first (c : Char) (rest : List Char) : Found :=
  if Text.isBlank c then
    ⟨[⟨c :: rest.takeWhile Text.isBlank, .blank⟩], rest.dropWhile Text.isBlank⟩
  else if c = '|' then
    let word := rest.takeWhile isWordChar
    ⟨[⟨c :: word, .token .pipe word⟩], rest.dropWhile isWordChar⟩
  else if c = '!' then ⟨⟨[c], .token .variable []⟩ :: (name rest).lexemes, (name rest).rest⟩
  else if c = '&' then ⟨⟨[c], .token .assign []⟩ :: (name rest).lexemes, (name rest).rest⟩
  else if c = '@' then access c .objectAccess name rest
  else if c = '#' then access c .arrayAccess digits rest
  else if c = '"' then string rest
  else if symbols.contains c then ⟨[⟨[c], .token .symbol [c]⟩], rest⟩
  else if c.isDigit then
    let number := c :: rest.takeWhile isNumberChar
    ⟨[⟨number, .token .number number⟩], rest.dropWhile isNumberChar⟩
  else if Text.isLetter c then
    let word := c :: rest.takeWhile isWordChar
    ⟨[⟨word, .token (wordKind word) word⟩], rest.dropWhile isWordChar⟩
  else ⟨[⟨[c], .stray c⟩], rest⟩

theorem length_dropWhile_le (p : Char → Bool) (cs : List Char) :
    (cs.dropWhile p).length ≤ cs.length :=
  (List.dropWhile_sublist p).length_le

theorem name_rest_length_le (cs : List Char) : (name cs).rest.length ≤ cs.length :=
  length_dropWhile_le ..

theorem digits_rest_length_le (cs : List Char) : (digits cs).rest.length ≤ cs.length :=
  length_dropWhile_le ..

theorem access_rest_length_le (mark : Char) (kind : TokenKind) (index : List Char → Found)
    (h : ∀ cs, (index cs).rest.length ≤ cs.length) (cs : List Char) :
    (access mark kind index cs).rest.length ≤ cs.length := by
  have hn := name_rest_length_le cs
  unfold access
  simp only
  split
  · next rest hr =>
    rw [hr, List.length_cons] at hn
    exact Nat.le_trans (h rest) (by omega)
  · exact hn

theorem stringBody_rest_length_le (cs : List Char) : (stringBody cs).rest.length ≤ cs.length := by
  fun_induction stringBody cs <;> simp_all [StringBody.push] <;> omega

theorem ite_rest_length_le {p : Prop} [Decidable p] {a b : Found} {n : Nat}
    (ha : a.rest.length ≤ n) (hb : b.rest.length ≤ n) :
    (if p then a else b).rest.length ≤ n := by
  split <;> assumption

theorem first_rest_length_le (c : Char) (rest : List Char) :
    (first c rest).rest.length ≤ rest.length :=
  ite_rest_length_le (length_dropWhile_le ..) <|
  ite_rest_length_le (length_dropWhile_le ..) <|
  ite_rest_length_le (name_rest_length_le _) <|
  ite_rest_length_le (name_rest_length_le _) <|
  ite_rest_length_le (access_rest_length_le _ _ _ name_rest_length_le _) <|
  ite_rest_length_le (access_rest_length_le _ _ _ digits_rest_length_le _) <|
  ite_rest_length_le (stringBody_rest_length_le _) <|
  ite_rest_length_le (Nat.le_refl _) <|
  ite_rest_length_le (length_dropWhile_le ..) <|
  ite_rest_length_le (length_dropWhile_le ..) (Nat.le_refl _)

/-- The lexemes of a source. -/
def scan (cs : List Char) : List Lexeme :=
  match cs with
  | [] => []
  | c :: rest => (first c rest).lexemes ++ scan (first c rest).rest
termination_by cs.length
decreasing_by exact Nat.lt_succ_of_le (first_rest_length_le ..)

/-- The token of a lexeme at a place. -/
def token? (l : Lexeme) (s : Span) : Option Token :=
  match l.role with
  | .token kind slice => some ⟨kind, String.ofList slice, s⟩
  | .openString value => some ⟨.string, String.ofList value, s⟩
  | _ => none

/-- What is to be said about a lexeme at a place. -/
def diagnostic? (l : Lexeme) (s : Span) : Option Diagnostic :=
  match l.role with
  | .stray c => some ⟨.unexpectedCharacter c, s⟩
  | .openString _ => some ⟨.unterminatedString, s⟩
  | _ => none

/-- Lexemes with the places they begin at, the first at `s`. -/
def placed (s : Span) : List Lexeme → List (Lexeme × Span)
  | [] => []
  | l :: ls => (l, s) :: placed (s.after l.text) ls

end Lexeme

/-- The tokens of a source, the last of which marks its end, and the diagnostics on the way. -/
structure Lexed where
  tokens : List Token
  diagnostics : List Diagnostic
deriving DecidableEq, Repr

/-- Cuts a source into tokens. -/
def lex (source : String) : Lexed :=
  let cs := source.toList
  let lexemes := Lexeme.placed .start (Lexeme.scan cs)
  { tokens := lexemes.filterMap (fun (l, s) => l.token? s) ++ [⟨.eof, "", Span.start.after cs⟩]
    diagnostics := lexemes.filterMap fun (l, s) => l.diagnostic? s }

end PipeScript
