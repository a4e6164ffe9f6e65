/-
Texts from bytes. Reading is either strict, refusing any byte that does not belong to a character,
or forgiving: each longest run of bytes that begins a character without completing it, and each
byte that cannot begin one, is read as the replacement character.
-/
namespace PipeScript.Text

/-- The bytes of a text. -/
def utf8 (s : String) : ByteArray :=
  s.toByteArray

/-- The text that the bytes spell, if they spell one. -/
def ofUtf8? (bytes : List UInt8) : Option String :=
  String.fromUTF8? ⟨bytes.toArray⟩

/-- How a character of several bytes begins: the value bits of its first byte, the bounds of its
second byte, and the number of bytes after the first. -/
structure Lead where
  bits : Nat
  low : Nat
  high : Nat
  following : Nat

/-- The bytes that begin a character of several bytes. The bounds of the second byte exclude
surrogates, numbers above the last code point, and longer spellings than needed. -/
def lead? (b : Nat) : Option Lead :=
  if 0xC2 ≤ b ∧ b ≤ 0xDF then some ⟨b - 0xC0, 0x80, 0xBF, 1⟩
  else if b = 0xE0 then some ⟨b - 0xE0, 0xA0, 0xBF, 2⟩
  else if b = 0xED then some ⟨b - 0xE0, 0x80, 0x9F, 2⟩
  else if 0xE1 ≤ b ∧ b ≤ 0xEF then some ⟨b - 0xE0, 0x80, 0xBF, 2⟩
  else if b = 0xF0 then some ⟨b - 0xF0, 0x90, 0xBF, 3⟩
  else if 0xF1 ≤ b ∧ b ≤ 0xF3 then some ⟨b - 0xF0, 0x80, 0xBF, 3⟩
  else if b = 0xF4 then some ⟨b - 0xF0, 0x80, 0x8F, 3⟩
  else none

/-- Reads the bytes after the first one, the next of them within the given bounds and the later ones
within the general bounds, and stops before the first that does not fit. -/
def continuation (bits low high : Nat) : Nat → List UInt8 → Option Nat × List UInt8
  | 0, rest => (some bits, rest)
  | _ + 1, [] => (none, [])
  | n + 1, b :: rest =>
    if low ≤ b.toNat ∧ b.toNat ≤ high then
      continuation (bits * 64 + (b.toNat - 0x80)) 0x80 0xBF n rest
    else (none, b :: rest)

theorem continuation_length_le (bits low high n : Nat) (bytes : List UInt8) :
    (continuation bits low high n bytes).2.length ≤ bytes.length := by
  induction n generalizing bits low high bytes with
  | zero => simp [continuation]
  | succ n ih =>
    cases bytes with
    | nil => simp [continuation]
    | cons b rest =>
      simp only [continuation]
      split
      · exact Nat.le_trans (ih ..) (by simp)
      · simp

/-- Stands for bytes that spell no character. -/
def replacement : Char := '\ufffd'

/-- The text that the bytes spell, with replacement characters where they spell none. -/
def ofUtf8Lossy (bytes : List UInt8) : List Char :=
  match bytes with
  | [] => []
  | b :: rest =>
    if b.toNat < 0x80 then Char.ofNat b.toNat :: ofUtf8Lossy rest
    else match lead? b.toNat with
      | none => replacement :: ofUtf8Lossy rest
      | some lead =>
        (match (continuation lead.bits lead.low lead.high lead.following rest).1 with
        | some code => Char.ofNat code
        | none => replacement) ::
          ofUtf8Lossy (continuation lead.bits lead.low lead.high lead.following rest).2
termination_by bytes.length
decreasing_by
  · simp
  · simp
  · exact Nat.lt_succ_of_le (continuation_length_le ..)

end PipeScript.Text
