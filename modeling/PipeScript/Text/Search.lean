/-
Occurrences of one text in another, found from the left and never overlapping: cutting a text at
them, and putting another text in their place.
-/
namespace PipeScript.Text

/-- The parts of a text between the occurrences of a separator. An empty separator cuts nowhere. -/
def splitAt (separator : List Char) (cs : List Char) : List (List Char) :=
  match cs with
  | [] => [[]]
  | c :: rest =>
    if separator ≠ [] ∧ separator.isPrefixOf (c :: rest) then
      [] :: splitAt separator ((c :: rest).drop separator.length)
    else
      match splitAt separator rest with
      | part :: parts => (c :: part) :: parts
      | [] => [[c]]
termination_by cs.length
decreasing_by
  · have := List.length_pos_iff.2 (‹_ ∧ _› : separator ≠ [] ∧ _).1
    simp; omega
  · simp

/-- The text with every occurrence of a pattern replaced. The empty pattern occurs before every
character and at the end. -/
def replaceAll (pattern replacement : List Char) (cs : List Char) : List Char :=
  match cs with
  | [] => if pattern = [] then replacement else []
  | c :: rest =>
    if pattern = [] then replacement ++ c :: replaceAll pattern replacement rest
    else if pattern.isPrefixOf (c :: rest) then
      replacement ++ replaceAll pattern replacement ((c :: rest).drop pattern.length)
    else c :: replaceAll pattern replacement rest
termination_by cs.length
decreasing_by
  · simp
  · have := List.length_pos_iff.2 (‹¬pattern = []›)
    simp; omega
  · simp

/-- The parts one after the other, with a separator between each two. -/
def joinWith (separator : List Char) (parts : List (List Char)) : List Char :=
  separator.intercalate parts

theorem splitAt_ne_nil (separator cs : List Char) : splitAt separator cs ≠ [] := by
  unfold splitAt
  split
  · simp
  · split
    · simp
    · split <;> simp

end PipeScript.Text
