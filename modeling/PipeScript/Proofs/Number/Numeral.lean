/-
The texts of numbers: digits and points, of which a digit is the first. The points decide how such a text is
read. Without one it is the integer that the digits spell, as long as that fits, and with more than one it is
no number at all. In all other cases it is a float.
-/
import Mathlib.Data.Nat.Digits.Defs
import PipeScript.Proofs.Number.Integer

namespace PipeScript

namespace Text

/-- The number that decimal digits spell: the last of them counts ones, and each other one counts tens of what the
one after it counts. -/
def decimalValue (digits : List Char) : Nat :=
  Nat.ofDigits 10 (digits.reverse.map fun c => c.toNat - '0'.toNat)

theorem ofDigits_eq_decimalValue (cs : List Char) : ofDigits cs = decimalValue cs := by
  rw [decimalValue, Nat.ofDigits_eq_foldr, List.map_reverse, List.foldr_reverse, List.foldl_map, ofDigits]
  simp only [Nat.cast_id, Nat.add_comm]

/-- Digits and points. -/
def IsPointed (cs : List Char) : Prop :=
  ∀ c ∈ cs, c.isDigit = true ∨ c = '.'

/-- The text of a number: digits and points, the first of them a digit. -/
structure IsNumeral (cs : List Char) : Prop where
  pointed : IsPointed cs
  digit : ∃ c ∈ cs.head?, c.isDigit = true

/-- The first points are what the digits before them run up to. -/
theorem IsPointed.spanDigits_cases {cs : List Char} (hcs : IsPointed cs) :
    ((spanDigits cs).2 = [] ∧ cs.count '.' = 0) ∨
      ∃ more, (spanDigits cs).2 = '.' :: more ∧ cs.count '.' = more.count '.' + 1 ∧ IsPointed more := by
  unfold spanDigits
  induction cs with
  | nil => exact .inl ⟨rfl, rfl⟩
  | cons c cs ih =>
    rw [IsPointed, List.forall_mem_cons] at hcs
    rcases hcs.1 with hc | rfl
    · have hne : c ≠ '.' := by rintro rfl; cases hc
      simpa [List.dropWhile_cons_of_pos, hc, List.count_cons_of_ne hne] using ih hcs.2
    · exact .inr ⟨cs, rfl, List.count_cons_self, hcs.2⟩

theorem IsNumeral.exists_cons {cs : List Char} (hcs : IsNumeral cs) : ∃ c rest, cs = c :: rest ∧ c.isDigit = true := by
  obtain ⟨c, hc, hdigit⟩ := hcs.digit
  obtain ⟨rest, rfl⟩ := List.head?_eq_some_iff.1 hc
  exact ⟨c, rest, rfl, hdigit⟩

/-- There is no sign in the text of a number. -/
theorem IsNumeral.spanSign_eq {cs : List Char} (hcs : IsNumeral cs) : spanSign cs = (false, cs) := by
  obtain ⟨c, rest, rfl, hc⟩ := hcs.exists_cons
  unfold spanSign
  split
  · next heq => cases heq; cases hc
  · next heq => cases heq; cases hc
  · rfl

theorem IsNumeral.spanDigits_ne_nil {cs : List Char} (hcs : IsNumeral cs) : (spanDigits cs).1 ≠ [] := by
  obtain ⟨c, rest, rfl, hc⟩ := hcs.exists_cons
  simp [spanDigits, hc]

/-- Nor is it one of the words for what is no finite number. -/
theorem IsNumeral.map_toLower_ne {cs : List Char} (hcs : IsNumeral cs) {initial : Char}
    (hinitial : initial.isDigit = false) (word : List Char) :
    String.ofList (cs.map Char.toLower) ≠ String.ofList (initial :: word) := by
  obtain ⟨c, rest, rfl, hc⟩ := hcs.exists_cons
  have hlower : c.toLower = c := by
    -- the digits stand before the capital letters
    simp only [Char.isDigit, Bool.and_eq_true, decide_eq_true_eq] at hc
    exact dif_neg fun hupper => absurd (UInt32.le_trans hupper.1 hc.2) (by decide)
  intro heq
  obtain ⟨rfl, -⟩ := List.cons_eq_cons.1 (String.ofList_inj.1 heq)
  rw [hlower, hc] at hinitial
  cases hinitial

end Text

namespace Decimal

open Text

/-- Digits are a number with a point before, after or among them, and without any, but not with two. -/
theorem isSome_read?_iff {cs : List Char} (hcs : IsNumeral cs) : (read? cs).isSome ↔ cs.count '.' ≤ 1 := by
  have hwhole := hcs.spanDigits_ne_nil
  unfold read?
  rcases hcs.pointed.spanDigits_cases with ⟨hrest, hcount⟩ | ⟨more, hrest, hcount, hmore⟩
  · simp [hrest, hcount, hwhole, readExponent?]
  · rcases hmore.spanDigits_cases with ⟨hrest', hcount'⟩ | ⟨more', hrest', hcount', -⟩
    · simp [hrest, hrest', hcount, hcount', hwhole, readExponent?]
    · simp [hrest, hrest', hcount, hcount', hwhole, readExponent?]

theorem isSome_readFloat?_iff {cs : List Char} (hcs : IsNumeral cs) : (readFloat? cs).isSome ↔ cs.count '.' ≤ 1 := by
  have hmagnitude : readMagnitude? cs = (read? cs).map toFloat := by
    have hi : 'i'.isDigit = false := rfl
    have hn : 'n'.isDigit = false := rfl
    rw [readMagnitude?, if_neg, if_neg]
    · exact hcs.map_toLower_ne hn ['a', 'n']
    · exact not_or.2 ⟨hcs.map_toLower_ne hi ['n', 'f'], hcs.map_toLower_ne hi ['n', 'f', 'i', 'n', 'i', 't', 'y']⟩
  rw [readFloat?, hcs.spanSign_eq]
  simp only [Option.isSome_map, hmagnitude, isSome_read?_iff hcs]

end Decimal

namespace Literal

open Text

/-- What the text of a number stands for. -/
inductive OfNumeral (cs : List Char) : Option Literal → Prop
  | integer {n : Int64} : '.' ∉ cs → n.toInt = decimalValue cs → OfNumeral cs (some (.integer n))
  | large (x : Float) : '.' ∉ cs → 9223372036854775807 < decimalValue cs → OfNumeral cs (some (.float x))
  | pointed (x : Float) : cs.count '.' = 1 → OfNumeral cs (some (.float x))
  | malformed : 2 ≤ cs.count '.' → OfNumeral cs none

variable {cs : List Char}

theorem isDigits_of_not_mem (hcs : IsNumeral cs) (hpoint : '.' ∉ cs) : isDigits cs = true := by
  obtain ⟨c, rest, rfl, -⟩ := hcs.exists_cons
  refine isDigits_iff.2 ⟨List.cons_ne_nil c rest, fun d hd => (hcs.pointed d hd).resolve_right ?_⟩
  rintro rfl
  exact hpoint hd

theorem ofNumeral_ofNumber? (hcs : IsNumeral cs) : OfNumeral cs (ofNumber? cs) := by
  have hfloat := Decimal.isSome_readFloat?_iff hcs
  by_cases hpoint : '.' ∈ cs
  · have hread : ofNumber? cs = (Decimal.readFloat? cs).map .float := by simp [ofNumber?, hpoint]
    have hpos : 0 < cs.count '.' := List.count_pos_iff.2 hpoint
    rw [hread]
    cases hx : Decimal.readFloat? cs with
    | some x =>
      have hone : cs.count '.' ≤ 1 := hfloat.1 (by rw [hx, Option.isSome_some])
      exact .pointed x (by omega)
    | none =>
      have htwo : ¬cs.count '.' ≤ 1 := fun hone => by simpa [hx] using hfloat.2 hone
      exact .malformed (Nat.lt_of_not_le htwo)
  · have hread : Integer.read? cs = Integer.ofInt? (decimalValue cs) := by
      rw [Integer.read?, readWhole?_of_isDigits (isDigits_of_not_mem hcs hpoint), ofDigits_eq_decimalValue]
      rfl
    have hnone : cs.count '.' = 0 := List.count_eq_zero.2 hpoint
    obtain ⟨x, hx⟩ := Option.isSome_iff_exists.1 (hfloat.2 (by omega))
    have hnumber : ofNumber? cs = ((Integer.ofInt? (decimalValue cs)).map .integer).or (some (.float x)) := by
      cases hn : Integer.ofInt? (decimalValue cs) <;> simp [ofNumber?, hpoint, hread, hn, hx]
    rw [hnumber]
    cases hn : Integer.ofInt? (decimalValue cs) with
    | some n => exact .integer hpoint (Integer.ofInt?_eq_some_iff.1 hn)
    | none =>
      have hfits := Integer.ofInt?_eq_none_iff.1 hn
      unfold Integer.Fits at hfits
      exact .large x hpoint (by omega)

theorem ofNumber?_eq_none_iff (hcs : IsNumeral cs) : ofNumber? cs = none ↔ 2 ≤ cs.count '.' := by
  have h := ofNumeral_ofNumber? hcs
  generalize ofNumber? cs = l at h
  cases h with
  | integer hpoint | large _ hpoint => simp [List.count_eq_zero.2 hpoint]
  | pointed _ hone => simp [hone]
  | malformed htwo => simp [htwo]

theorem ofNumber?_eq_integer_iff (hcs : IsNumeral cs) {n : Int64} :
    ofNumber? cs = some (.integer n) ↔ '.' ∉ cs ∧ n.toInt = decimalValue cs := by
  have h := ofNumeral_ofNumber? hcs
  have hzero (hpoint : '.' ∉ cs) : cs.count '.' = 0 := List.count_eq_zero.2 hpoint
  generalize ofNumber? cs = l at h
  cases h with
  | @integer m hpoint hm =>
    have hn : m = n ↔ n.toInt = decimalValue cs := by rw [← hm, Int64.toInt_inj, eq_comm]
    simp [hpoint, hn]
  | large x _ hlarge =>
    have hfits := (Integer.fits_toInt n).2
    exact iff_of_false nofun fun ⟨_, hn⟩ => by omega
  | pointed _ hone => exact iff_of_false nofun fun ⟨hpoint, _⟩ => by have := hzero hpoint; omega
  | malformed htwo => exact iff_of_false nofun fun ⟨hpoint, _⟩ => by have := hzero hpoint; omega

theorem exists_ofNumber?_eq_integer_iff (hcs : IsNumeral cs) :
    (∃ n, ofNumber? cs = some (.integer n)) ↔ '.' ∉ cs ∧ decimalValue cs ≤ 9223372036854775807 := by
  simp only [ofNumber?_eq_integer_iff hcs, exists_and_left]
  refine and_congr_right fun _ => ⟨fun ⟨n, hn⟩ => ?_, fun hle => ⟨Int64.ofInt (decimalValue cs), ?_⟩⟩
  · have hfits := (Integer.fits_toInt n).2
    omega
  · exact Integer.toInt_ofInt_of_fits ⟨by omega, by omega⟩

/-- What is neither malformed nor an integer is a float. -/
theorem exists_ofNumber?_eq_float_iff (hcs : IsNumeral cs) : (∃ x, ofNumber? cs = some (.float x)) ↔
    ofNumber? cs ≠ none ∧ ¬∃ n, ofNumber? cs = some (.integer n) := by
  have h := ofNumeral_ofNumber? hcs
  generalize ofNumber? cs = l at h
  cases h <;> simp

/-- The text of a number has no sign, so the opposite of the integer that it stands for is an integer, too. -/
theorem OfNumeral.exists_neg {n : Int64} (h : OfNumeral cs (some (.integer n))) :
    ∃ m, Integer.neg? n = some m ∧ m.toInt = -n.toInt := by
  cases h with
  | integer _ hn =>
    have hfits : Integer.Fits (-n.toInt) := by
      have hle := (Integer.fits_toInt n).2
      unfold Integer.Fits
      omega
    exact ⟨_, Integer.ofInt?_of_fits hfits, Integer.toInt_ofInt_of_fits hfits⟩

end Literal

end PipeScript
