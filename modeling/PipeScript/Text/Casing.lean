/-
Upper and lower case of whole texts. Upper case is taken character by character. Lower case looks
around at one letter only: a capital sigma becomes the final form at the end of a word, that is
after a cased letter and before none, marks and signs within the word being looked through.
-/
import PipeScript.Text.Casing.Context
import PipeScript.Text.Casing.Table

namespace PipeScript.Text

/-- The text in upper case. -/
def uppercase (cs : List Char) : List Char :=
  cs.flatMap upperCase

/-- Whether the first character that is not looked through is a cased letter. -/
def meetsCased (cs : List Char) : Bool :=
  match cs.dropWhile isCaseIgnorable with
  | c :: _ => isCased c
  | [] => false

/-- The small sigma for a place with `before` to its left, nearest first, and `after` to its right. -/
def smallSigma (before after : List Char) : Char :=
  if meetsCased before && !meetsCased after then 'ς' else 'σ'

/-- The lower case of a text that follows `before`, which is given nearest character first. -/
def lowercaseAfter (before : List Char) : List Char → List Char
  | [] => []
  | c :: after =>
    (if c = 'Σ' then [smallSigma before after] else lowerCase c) ++ lowercaseAfter (c :: before) after

/-- The text in lower case. -/
def lowercase (cs : List Char) : List Char :=
  lowercaseAfter [] cs

end PipeScript.Text
