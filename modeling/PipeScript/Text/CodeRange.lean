/-
Sets of characters given by ranges of code points: the form in which the character properties of
the other text modules are tabulated.
-/
namespace PipeScript.Text

/-- The code points from the first to the second number, both included. -/
abbrev CodeRange := Nat × Nat

/-- Whether some range of the table holds the character. -/
def inRanges (table : List CodeRange) (c : Char) : Bool :=
  table.any fun r => r.1 ≤ c.toNat && c.toNat ≤ r.2

end PipeScript.Text
