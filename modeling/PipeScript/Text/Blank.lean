/-
Blank characters: those with the property White_Space, the separators between tokens and what is
trimmed off the ends of a text.
-/
import PipeScript.Text.CodeRange

namespace PipeScript.Text

/-- The blank code points. -/
def blanks : List CodeRange := [
  (0x0009, 0x000D), (0x0020, 0x0020), (0x0085, 0x0085), (0x00A0, 0x00A0), (0x1680, 0x1680),
  (0x2000, 0x200A), (0x2028, 0x2029), (0x202F, 0x202F), (0x205F, 0x205F), (0x3000, 0x3000)]

/-- Spaces, line ends and other white space of any script. -/
def isBlank (c : Char) : Bool :=
  inRanges blanks c

/-- The text without the blanks at its two ends. -/
def trim (cs : List Char) : List Char :=
  ((cs.dropWhile isBlank).reverse.dropWhile isBlank).reverse

end PipeScript.Text
