/-
Quoted text: a text between two quote marks in which the mark itself, the backslash, the common
controls and everything that could not be seen are escaped, so that it stays on one line.
-/
import PipeScript.Text.Printable

namespace PipeScript.Text

/-- The digits of a number in base sixteen, lower case, without leading zeros. -/
def hexDigits (n : Nat) : List Char :=
  Nat.toDigits 16 n

/-- A code point in braces, for a character that has no shape of its own. -/
def codePointEscape (c : Char) : List Char :=
  ['\\', 'u', '\x7b'] ++ hexDigits c.toNat ++ ['\x7d']

/-- How a character is written between two marks. -/
def escaped (mark c : Char) : List Char :=
  if c = '\x00' then ['\\', '0']
  else if c = '\t' then ['\\', 't']
  else if c = '\r' then ['\\', 'r']
  else if c = '\n' then ['\\', 'n']
  else if c = '\\' ∨ c = mark then ['\\', c]
  else if isExtender c || !isPrintable c then codePointEscape c
  else [c]

/-- The text between two marks. -/
def quotedBy (mark : Char) (cs : List Char) : List Char :=
  mark :: cs.flatMap (escaped mark) ++ [mark]

/-- The text in double quotes. -/
def quoted (s : String) : String :=
  String.ofList (quotedBy '"' s.toList)

/-- The character in single quotes. -/
def quotedChar (c : Char) : String :=
  String.ofList (quotedBy '\x27' [c])

end PipeScript.Text
