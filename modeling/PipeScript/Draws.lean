/-
Random numbers from a seed. The numbers of one seed are always the same.
-/
import PipeScript.Context

namespace PipeScript

namespace Draws

/-- Spreads a word over all words: each bit of the argument moves about half of the result. -/
def mixed (word : UInt64) : UInt64 :=
  let a := (word ^^^ (word >>> 30)) * 0xBF58476D1CE4E5B9
  let b := (a ^^^ (a >>> 27)) * 0x94D049BB133111EB
  b ^^^ (b >>> 31)

/-- The word at a place of the row of a seed. The seed moves by an odd constant from place to
place, so that it comes back only after all words. -/
def word (seed : UInt64) (place : Nat) : UInt64 :=
  mixed (seed + UInt64.ofNat (place + 1) * 0x9E3779B97F4A7C15)

/-- The number that the upper fifty-three bits of a word stand for: at least zero and below one. -/
def unit (w : UInt64) : Float :=
  Float.ofNat (w >>> 11).toNat / 9007199254740992.0

end Draws

/-- The random numbers of a seed. -/
def Supply.ofSeed (seed : UInt64) : Supply Float :=
  { row := fun place => Draws.unit (Draws.word seed place) }

end PipeScript
