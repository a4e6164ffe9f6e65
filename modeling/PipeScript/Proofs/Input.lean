/-
The lines of an input. What is to be read is cut after each line feed, and each reading takes the first
of the pieces and answers it by itself, whether the others spell texts or not. In bytes that spell a text
the line feeds are those of the text, since a line feed is a byte of no other character. So the pieces
spell the lines of the text.
-/
import Mathlib.Data.List.Forall2
import PipeScript.Context

namespace PipeScript

/-! ## Pieces -/

section

variable {α β : Type}

/-- The pieces of a list that is cut after each stop. Each piece ends in the only stop that it holds. What is
left after the last stop is a piece, too, unless it is empty. -/
inductive Cut (stop : α) : List α → List (List α) → Prop
  | nil : Cut stop [] []
  | rest {xs : List α} : xs ≠ [] → stop ∉ xs → Cut stop xs [xs]
  | stopped {xs ys : List α} {pieces : List (List α)} :
    stop ∉ xs → Cut stop ys pieces → Cut stop (xs ++ stop :: ys) ((xs ++ [stop]) :: pieces)

theorem Cut.flatten_eq {stop : α} {xs : List α} {pieces : List (List α)} (h : Cut stop xs pieces) :
    pieces.flatten = xs := by
  induction h with
  | nil => rfl
  | rest => simp
  | stopped _ _ ih => simp [ih]

variable [DecidableEq α] [DecidableEq β]

/-- The pieces of a list, cut after each stop. Only the last piece may end otherwise. -/
def cutAfter (stop : α) : List α → List (List α)
  | [] => []
  | x :: xs =>
    if x = stop then [x] :: cutAfter stop xs
    else match cutAfter stop xs with
      | [] => [[x]]
      | piece :: pieces => (x :: piece) :: pieces

theorem cut_cutAfter (stop : α) (xs : List α) : Cut stop xs (cutAfter stop xs) := by
  induction xs with
  | nil => exact .nil
  | cons x xs ih =>
    rw [cutAfter]
    by_cases hx : x = stop
    · subst hx
      rw [if_pos rfl]
      have hstop : Cut x ([] ++ x :: xs) (([] ++ [x]) :: cutAfter x xs) := .stopped List.not_mem_nil ih
      exact hstop
    · rw [if_neg hx]
      have hcons {ys : List α} (hys : stop ∉ ys) : stop ∉ x :: ys := List.not_mem_cons_of_ne_of_not_mem (Ne.symm hx) hys
      generalize cutAfter stop xs = pieces at ih
      cases ih with
      | nil => exact .rest (List.cons_ne_nil _ _) (hcons List.not_mem_nil)
      | rest _ hxs => exact .rest (List.cons_ne_nil _ _) (hcons hxs)
      | stopped hxs hys => exact .stopped (hcons hxs) hys

theorem cutAfter_eq_nil {stop : α} {xs : List α} : cutAfter stop xs = [] ↔ xs = [] := by
  cases xs with
  | nil => simp [cutAfter]
  | cons x xs =>
    rw [cutAfter]
    split
    · simp
    · split <;> simp

theorem length_cutAfter_le (stop : α) (xs : List α) : (cutAfter stop xs).length ≤ xs.length := by
  induction xs with
  | nil => exact Nat.le_refl _
  | cons x xs ih =>
    rw [cutAfter]
    split
    · exact Nat.succ_le_succ ih
    · split
      · simp
      · next hpieces =>
        rw [hpieces] at ih
        exact Nat.le_succ_of_le ih

/-- What is no stop and stands before a list makes its first piece longer. -/
theorem cutAfter_append {stop : α} {xs ys : List α} {piece : List α} {pieces : List (List α)}
    (hxs : stop ∉ xs) (hys : cutAfter stop ys = piece :: pieces) :
    cutAfter stop (xs ++ ys) = (xs ++ piece) :: pieces := by
  induction xs with
  | nil => exact hys
  | cons x xs ih =>
    rw [List.mem_cons, not_or] at hxs
    rw [List.cons_append, cutAfter, if_neg (Ne.symm hxs.1), ih hxs.2]
    rfl

theorem cutAfter_of_not_mem {stop : α} {xs : List α} (hne : xs ≠ []) (hxs : stop ∉ xs) :
    cutAfter stop xs = [xs] := by
  induction xs with
  | nil => exact absurd rfl hne
  | cons x xs ih =>
    rw [List.mem_cons, not_or] at hxs
    rw [cutAfter, if_neg (Ne.symm hxs.1)]
    rcases eq_or_ne xs [] with rfl | hxs'
    · rfl
    · rw [ih hxs' hxs.2]

/-- Where the one stop, and nothing else, is spelled with the other, the pieces are spelled one by one. -/
theorem cutAfter_flatMap {stop : α} {stop' : β} {f : α → List β} (hstop : f stop = [stop'])
    (hother : ∀ x ≠ stop, f x ≠ [] ∧ stop' ∉ f x) (xs : List α) :
    cutAfter stop' (xs.flatMap f) = (cutAfter stop xs).map (·.flatMap f) := by
  induction xs with
  | nil => rfl
  | cons x xs ih =>
    rw [List.flatMap_cons, cutAfter]
    by_cases hx : x = stop
    · subst hx
      rw [hstop, List.singleton_append, cutAfter, if_pos rfl, if_pos rfl, ih]
      simp [hstop]
    · rw [if_neg hx]
      obtain ⟨hne, hnot⟩ := hother x hx
      cases hpieces : cutAfter stop xs with
      | nil =>
        obtain rfl := cutAfter_eq_nil.1 hpieces
        simp [cutAfter_of_not_mem hne hnot]
      | cons piece pieces =>
        rw [hpieces, List.map_cons] at ih
        rw [cutAfter_append hnot ih]
        simp

end

/-! ## Texts -/

namespace Text

/-- The line feed is a byte of no other character. -/
theorem lineFeed_not_mem {c : Char} (hc : c ≠ '\n') :
    String.utf8EncodeChar c ≠ [] ∧ (10 : UInt8) ∉ String.utf8EncodeChar c := by
  have hbyte (n : Nat) (hn : n < 256) (h10 : n ≠ 10) : (10 : UInt8) ≠ UInt8.ofNat n := by
    intro he
    have hmod : 10 = n % 256 := congrArg UInt8.toNat he
    omega
  have hval : c.val.toNat ≠ 10 := fun hv => hc (Char.ext (UInt32.toNat_inj.1 hv))
  -- every byte of a character that takes several of them is at least 128
  have hhigh (n k : Nat) (hk : 128 ≤ k) (hn : n + k < 256) : (10 : UInt8) ≠ UInt8.ofNat (n + k) :=
    hbyte (n + k) hn (by omega)
  simp only [String.utf8EncodeChar]
  split_ifs
  · exact ⟨List.cons_ne_nil _ _, by simpa using hbyte c.val.toNat (by omega) hval⟩
  all_goals
    refine ⟨List.cons_ne_nil _ _, ?_⟩
    simp only [List.mem_cons, List.not_mem_nil, or_false, not_or]
  · exact ⟨hhigh _ 192 (by omega) (by omega), hhigh _ 128 (by omega) (by omega)⟩
  · exact ⟨hhigh _ 224 (by omega) (by omega), hhigh _ 128 (by omega) (by omega), hhigh _ 128 (by omega) (by omega)⟩
  · exact ⟨hhigh _ 240 (by omega) (by omega), hhigh _ 128 (by omega) (by omega), hhigh _ 128 (by omega) (by omega),
      hhigh _ 128 (by omega) (by omega)⟩

/-- The bytes of the characters of a text spell that text. -/
theorem ofUtf8?_flatMap (cs : List Char) :
    ofUtf8? (cs.flatMap String.utf8EncodeChar) = some (String.ofList cs) := by
  have hbytes : (⟨(cs.flatMap String.utf8EncodeChar).toArray⟩ : ByteArray) = cs.utf8Encode := by
    simp [List.utf8Encode, ByteArray.ext_iff]
  rw [ofUtf8?, hbytes, String.fromUTF8?, dif_pos ByteArray.isValidUTF8_utf8Encode]
  exact congrArg some (String.toByteArray_inj.1 String.toByteArray_ofList.symm)

/-- Bytes that spell a text are those of its characters. -/
theorem eq_flatMap_of_ofUtf8? {bytes : List UInt8} {s : String} (hs : ofUtf8? bytes = some s) :
    bytes = s.toList.flatMap String.utf8EncodeChar := by
  rw [ofUtf8?, String.fromUTF8?] at hs
  split at hs
  · cases hs
    have hbytes := congrArg (fun b : ByteArray => b.data.toList)
      (String.utf8Encode_toList (b := String.fromUTF8 ⟨bytes.toArray⟩ ‹_›))
    simpa [List.utf8Encode, String.fromUTF8] using hbytes.symm
  · cases hs

theorem data_utf8 (s : String) : (utf8 s).data.toList = s.toList.flatMap String.utf8EncodeChar := by
  have hbytes : (String.ofList s.toList).toByteArray = s.toList.utf8Encode := String.toByteArray_ofList
  rw [String.ofList_toList] at hbytes
  rw [utf8, hbytes]
  simp [List.utf8Encode]

theorem ofUtf8?_eq_some_iff {bytes : List UInt8} {s : String} :
    ofUtf8? bytes = some s ↔ (utf8 s).data.toList = bytes := by
  rw [data_utf8]
  constructor
  · exact fun h => (eq_flatMap_of_ofUtf8? h).symm
  · rintro rfl
    rw [ofUtf8?_flatMap, String.ofList_toList]

/-- The lines of a text, without what ends them. -/
def lines (s : String) : List String :=
  (cutAfter '\n' s.toList).map fun cs => String.ofList (Input.withoutEnd cs)

end Text

/-! ## Readings -/

namespace Input

/-- The line that a piece spells, if it spells a text. -/
def line? (piece : List UInt8) : Option String :=
  (Text.ofUtf8? piece).map fun s => String.ofList (withoutEnd s.toList)

/-- What is answered to a piece. -/
def answer (piece : List UInt8) : Except IoError (Option String) :=
  match line? piece with
  | some line => .ok (some line)
  | none => .error .invalidUtf8

theorem readLine_of_nil {i : Input} (hnil : i.unread = []) : i.readLine = (.ok none, i) :=
  if_pos hnil

/-- The first piece is answered, and what comes after it is left. -/
theorem readLine_of_ne_nil {i : Input} (hne : i.unread ≠ []) :
    i.readLine = (answer (cutLine i.unread).1, ⟨(cutLine i.unread).2⟩) := by
  rw [readLine, if_neg hne, answer, line?]
  simp only
  cases Text.ofUtf8? (cutLine i.unread).1 <;> rfl

/-- What is not read yet are the lines, and nothing else. -/
def Holds (i : Input) (ls : List String) : Prop :=
  (cutAfter 10 i.unread).map line? = ls.map some

/-- The first line is the first piece. -/
theorem cutAfter_unread {bytes : List UInt8} (hne : bytes ≠ []) :
    cutAfter 10 bytes = (cutLine bytes).1 :: cutAfter 10 (cutLine bytes).2 := by
  induction bytes with
  | nil => exact absurd rfl hne
  | cons b bytes ih =>
    rw [cutAfter, cutLine]
    split
    · rfl
    · rcases eq_or_ne bytes [] with rfl | hbytes
      · rfl
      · rw [ih hbytes]

/-- Where bytes spell a text, they are its lines. -/
theorem holds_of_text {i : Input} {s : String} (hs : Text.ofUtf8? i.unread = some s) : i.Holds (Text.lines s) := by
  have hcut : cutAfter 10 (s.toList.flatMap String.utf8EncodeChar) =
      (cutAfter '\n' s.toList).map (·.flatMap String.utf8EncodeChar) :=
    cutAfter_flatMap (by rfl) (fun c hc => Text.lineFeed_not_mem hc) s.toList
  rw [Holds, Text.eq_flatMap_of_ofUtf8? hs, hcut, Text.lines]
  simp [line?, Text.ofUtf8?_flatMap]

/-- There are no more lines than bytes. -/
theorem Holds.length_le {i : Input} {ls : List String} (hi : i.Holds ls) : ls.length ≤ i.unread.length := by
  have hlength : (cutAfter 10 i.unread).length = ls.length := by
    simpa using congrArg List.length hi
  exact hlength ▸ length_cutAfter_le 10 i.unread

theorem readLine_of_holds_nil {i : Input} (hi : i.Holds []) : i.readLine = (.ok none, i) ∧ i.unread = [] := by
  have hunread : i.unread = [] := by simpa [Holds, cutAfter_eq_nil] using hi
  exact ⟨readLine_of_nil hunread, hunread⟩

/-- The first line is read, and the others are left. -/
theorem readLine_of_holds_cons {i : Input} {l : String} {ls : List String} (hi : i.Holds (l :: ls)) :
    ∃ rest : Input, i.readLine = (.ok (some l), rest) ∧ rest.Holds ls := by
  have hne : i.unread ≠ [] := by
    intro hnil
    simp [Holds, hnil, cutAfter] at hi
  rw [Holds, cutAfter_unread hne, List.map_cons, List.map_cons, List.cons.injEq] at hi
  obtain ⟨hl, hls⟩ := hi
  refine ⟨⟨(cutLine i.unread).2⟩, ?_, hls⟩
  rw [readLine_of_ne_nil hne, answer, hl]

/-! ## Successive readings -/

/-- What is answered to a piece that was read. The bytes of a text are answered with the text, without the line
feed at its end and one carriage return right before that. -/
inductive Gives : List UInt8 → Except IoError (Option String) → Prop
  | crlf (line : String) : Gives (Text.utf8 (line ++ "\r\n")).data.toList (.ok (some line))
  | lf {line : String} : line.toList.getLast? ≠ some '\r' →
    Gives (Text.utf8 (line ++ "\n")).data.toList (.ok (some line))
  | unended {line : String} : line.toList.getLast? ≠ some '\n' →
    Gives (Text.utf8 line).data.toList (.ok (some line))
  | invalid {piece : List UInt8} : (∀ s, (Text.utf8 s).data.toList ≠ piece) → Gives piece (.error .invalidUtf8)

theorem gives_withoutEnd (s : String) :
    Gives (Text.utf8 s).data.toList (.ok (some (String.ofList (withoutEnd s.toList)))) := by
  unfold withoutEnd
  split
  · next front hs =>
    obtain rfl : s = String.ofList front.reverse ++ "\r\n" := by
      rw [← String.toList_inj, ← List.reverse_inj, hs]
      simp
    exact .crlf _
  · next front hother hs =>
    obtain rfl : s = String.ofList front.reverse ++ "\n" := by
      rw [← String.toList_inj, ← List.reverse_inj, hs]
      simp
    refine .lf fun hlast => ?_
    rw [String.toList_ofList, List.getLast?_reverse] at hlast
    obtain ⟨front, rfl⟩ := List.head?_eq_some_iff.1 hlast
    exact hother front rfl
  · next hother =>
    rw [String.ofList_toList]
    refine .unended fun hlast => ?_
    rw [← List.head?_reverse] at hlast
    obtain ⟨front, hs⟩ := List.head?_eq_some_iff.1 hlast
    exact hother front hs

theorem gives_answer (piece : List UInt8) : Gives piece (answer piece) := by
  unfold answer line?
  cases hs : Text.ofUtf8? piece with
  | none =>
    refine .invalid fun s hbytes => ?_
    rw [Text.ofUtf8?_eq_some_iff.2 hbytes] at hs
    cases hs
  | some s =>
    obtain rfl := Text.ofUtf8?_eq_some_iff.1 hs
    exact gives_withoutEnd s

/-- The answers to a number of readings, one after the other, and the input after that. -/
def readings (i : Input) : Nat → List (Except IoError (Option String)) × Input
  | 0 => ([], i)
  | n + 1 => (i.readLine.1 :: (readings i.readLine.2 n).1, (readings i.readLine.2 n).2)

/-- Each reading answers the next piece, as long as there are any. -/
theorem readings_eq_take (i : Input) (n : Nat) : i.readings n =
    (((cutAfter 10 i.unread).map answer).take n ++ List.replicate (n - (cutAfter 10 i.unread).length) (.ok none),
      ⟨((cutAfter 10 i.unread).drop n).flatten⟩) := by
  induction n generalizing i with
  | zero => simp [readings, (cut_cutAfter 10 i.unread).flatten_eq]
  | succ n ih =>
    rw [readings]
    by_cases hnil : i.unread = []
    · rw [readLine_of_nil hnil, ih, hnil]
      simp [cutAfter, List.replicate_succ]
    · rw [readLine_of_ne_nil hnil, ih, cutAfter_unread hnil]
      simp

/-- Successive readings answer the pieces between the line feeds of an input in their order. Each piece is
answered by itself, whatever the others are, and after them there is no more line. -/
theorem readings_answered (i : Input) :
    let pieces := cutAfter 10 i.unread
    Cut 10 i.unread pieces ∧ ∃ answers, List.Forall₂ Gives pieces answers ∧ ∀ n, i.readings n =
      (answers.take n ++ List.replicate (n - pieces.length) (.ok none), ⟨(pieces.drop n).flatten⟩) := by
  intro pieces
  refine ⟨cut_cutAfter 10 i.unread, pieces.map answer, ?_, i.readings_eq_take⟩
  rw [List.forall₂_map_right_iff, List.forall₂_same]
  exact fun piece _ => gives_answer piece

-- the second piece spells no text, and the line before it and the last one keep a carriage return
example : (readings ⟨[97, 13, 13, 10, 255, 10, 10, 98, 13]⟩ 5).1 =
    [.ok (some "a\r"), .error .invalidUtf8, .ok (some ""), .ok (some "b\r"), .ok none] := by
  decide +kernel

end Input

end PipeScript
