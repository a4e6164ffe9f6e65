/-
Where a quoted text ends, and what it is the text of. An escape tells its character and its own end: a letter
after the backslash is alone, and the digits of a code point go on to the closing brace. No character is
written so as to begin with the mark. So a quoted text is told from what follows it, whatever that is.
-/
import Mathlib.Data.Nat.Init
import Mathlib.Tactic.SplitIfs
import PipeScript.Text.Quoted

namespace PipeScript.Text

/-! ## Runs of characters -/

theorem takeWhile_run {p : Char → Bool} {xs rest : List Char} (hxs : ∀ x ∈ xs, p x = true)
    (hrest : ∀ c ∈ rest.head?, p c = false) : (xs ++ rest).takeWhile p = xs := by
  rw [List.takeWhile_append_of_pos hxs]
  cases rest with
  | nil => exact List.append_nil xs
  | cons c rest => rw [List.takeWhile_cons_of_neg (by simp [hrest c rfl]), List.append_nil]

/-- A run of characters of some sort is told from what follows it, if that begins with another character. -/
theorem run_append_inj {p : Char → Bool} {xs ys rest rest' : List Char} (hxs : ∀ x ∈ xs, p x = true)
    (hys : ∀ y ∈ ys, p y = true) (hrest : ∀ c ∈ rest.head?, p c = false) (hrest' : ∀ c ∈ rest'.head?, p c = false)
    (h : xs ++ rest = ys ++ rest') : xs = ys ∧ rest = rest' := by
  have hrun : xs = ys := by rw [← takeWhile_run hxs hrest, h, takeWhile_run hys hrest']
  subst hrun
  exact ⟨rfl, List.append_cancel_left h⟩

/-! ## Digits in base sixteen -/

theorem digitChar_inj {d e : Nat} (hd : d < 16) (he : e < 16) (h : d.digitChar = e.digitChar) : d = e := by
  have hall : ∀ d < 16, ∀ e < 16, d.digitChar = e.digitChar → d = e := by decide
  exact hall d hd e he h

theorem hexDigits_of_lt {n : Nat} (hn : n < 16) : hexDigits n = [n.digitChar] :=
  Nat.toDigits_of_lt_base hn

theorem hexDigits_of_le {n : Nat} (hn : 16 ≤ n) : hexDigits n = hexDigits (n / 16) ++ [(n % 16).digitChar] :=
  Nat.toDigits_of_base_le (by decide) hn

theorem hexDigits_ne_nil (n : Nat) : hexDigits n ≠ [] := Nat.toDigits_ne_nil

theorem ne_brace_of_mem_hexDigits {n : Nat} {c : Char} (hc : c ∈ hexDigits n) : c ≠ '\x7d' := by
  have hdigit : ∀ d < 16, d.digitChar ≠ '\x7d' := by decide
  induction n using Nat.strong_induction_on with
  | _ n ih =>
    obtain hn | hn := Nat.lt_or_ge n 16
    · rw [hexDigits_of_lt hn, List.mem_singleton] at hc
      exact hc ▸ hdigit n hn
    · rw [hexDigits_of_le hn, List.mem_append, List.mem_singleton] at hc
      rcases hc with hc | rfl
      · exact ih (n / 16) (by omega) hc
      · exact hdigit _ (Nat.mod_lt n (by decide))

theorem hexDigits_inj {n m : Nat} (h : hexDigits n = hexDigits m) : n = m := by
  induction n using Nat.strong_induction_on generalizing m with
  | _ n ih =>
    -- a number of one digit and one of more have texts of different lengths
    have hshort {k l : Nat} (hk : k < 16) (hl : 16 ≤ l) : hexDigits k ≠ hexDigits l := by
      intro he
      rw [hexDigits_of_lt hk, hexDigits_of_le hl] at he
      have hlength := congrArg List.length he
      exact hexDigits_ne_nil (l / 16) (by simpa using hlength)
    obtain hn | hn := Nat.lt_or_ge n 16 <;> obtain hm | hm := Nat.lt_or_ge m 16
    · rw [hexDigits_of_lt hn, hexDigits_of_lt hm] at h
      exact digitChar_inj hn hm (List.singleton_inj.1 h)
    · exact absurd h (hshort hn hm)
    · exact absurd h.symm (hshort hm hn)
    · rw [hexDigits_of_le hn, hexDigits_of_le hm] at h
      obtain ⟨hfront, hlast⟩ := List.append_inj' h rfl
      have hdiv := ih (n / 16) (by omega) hfront
      have hmod := digitChar_inj (Nat.mod_lt n (by decide)) (Nat.mod_lt m (by decide)) (List.singleton_inj.1 hlast)
      omega

/-! ## Characters -/

/-- The character that a letter after the backslash stands for. -/
def escapedBy (letter : Char) : Char :=
  if letter = '0' then '\x00' else if letter = 't' then '\t' else if letter = 'r' then '\r'
  else if letter = 'n' then '\n' else letter

/-- A character is written as a letter after the backslash, as its code point or as itself. -/
inductive Writes (mark c : Char) : List Char → Prop
  | letter {l : Char} : l ≠ 'u' → c = escapedBy l → Writes mark c ['\\', l]
  | codePoint : Writes mark c (codePointEscape c)
  | plain : c ≠ '\\' → c ≠ mark → Writes mark c [c]

variable {mark c d : Char} {cs ds rest rest' : List Char}

/-- The letters that are written after a backslash for other characters are no marks. -/
def IsMark (mark : Char) : Prop :=
  mark ∉ ['0', 't', 'r', 'n', 'u', '\\']

instance (mark : Char) : Decidable (IsMark mark) :=
  inferInstanceAs (Decidable (¬_))

theorem writes_escaped (hmark : IsMark mark) (c : Char) : Writes mark c (escaped mark c) := by
  simp only [IsMark, List.mem_cons, not_or] at hmark
  unfold escaped
  split_ifs with h0 ht hr hn hself hhidden
  · exact .letter (by decide) h0
  · exact .letter (by decide) ht
  · exact .letter (by decide) hr
  · exact .letter (by decide) hn
  · rcases hself with rfl | rfl
    · exact .letter (by decide) rfl
    · exact .letter (by grind) (by grind [escapedBy])
  · exact .codePoint
  · obtain ⟨hbackslash, hmark⟩ := not_or.1 hself
    exact .plain hbackslash hmark

theorem codePointEscape_append_inj (h : codePointEscape c ++ rest = codePointEscape d ++ rest') :
    c = d ∧ rest = rest' := by
  simp only [codePointEscape, List.append_assoc, List.cons_append, List.nil_append, List.cons.injEq,
    true_and] at h
  have hrun (n : Nat) : ∀ x ∈ hexDigits n, (x != '\x7d') = true := fun x hx => by
    simpa using ne_brace_of_mem_hexDigits hx
  have hend (rest : List Char) : ∀ x ∈ ('\x7d' :: rest).head?, (x != '\x7d') = false := by simp
  obtain ⟨hdigits, hrest⟩ := run_append_inj (hrun _) (hrun _) (hend _) (hend _) h
  exact ⟨Char.toNat_inj.1 (hexDigits_inj hdigits), (List.cons.inj hrest).2⟩

/-- What is written for a character tells the character, and where it ends. -/
theorem Writes.append_inj {xs ys : List Char} (hc : Writes mark c xs) (hd : Writes mark d ys)
    (h : xs ++ rest = ys ++ rest') : c = d ∧ rest = rest' := by
  cases hc with
  | letter hu he =>
    cases hd with
    | letter _ he' =>
      obtain ⟨rfl, hrest⟩ : _ = _ ∧ rest = rest' := by simpa using h
      exact ⟨he.trans he'.symm, hrest⟩
    | codePoint => exact absurd (List.cons.inj (List.cons.inj h).2).1 hu
    | plain hne _ => exact absurd (List.cons.inj h).1.symm hne
  | codePoint =>
    cases hd with
    | letter hu _ => exact absurd (List.cons.inj (List.cons.inj h).2).1.symm hu
    | codePoint => exact codePointEscape_append_inj h
    | plain hne _ => exact absurd (List.cons.inj h).1.symm hne
  | plain hne _ =>
    cases hd with
    | letter | codePoint => exact absurd (List.cons.inj h).1 hne
    | plain => exact List.cons.inj h

theorem Writes.append_ne {xs : List Char} (hmark : IsMark mark) (hc : Writes mark c xs) :
    xs ++ rest ≠ mark :: rest' := by
  intro h
  have hbackslash : mark ≠ '\\' := fun he => hmark (by simp [he])
  cases hc with
  | letter | codePoint => exact hbackslash (List.cons.inj h).1.symm
  | plain _ hne => exact hne (List.cons.inj h).1

/-! ## Texts -/

/-- A quoted text tells what it is the text of, and where it ends. -/
theorem quotedBy_append_inj (hmark : IsMark mark) (h : quotedBy mark cs ++ rest = quotedBy mark ds ++ rest') :
    cs = ds ∧ rest = rest' := by
  replace h : cs.flatMap (escaped mark) ++ mark :: rest = ds.flatMap (escaped mark) ++ mark :: rest' := by
    simpa [quotedBy] using h
  induction cs generalizing ds with
  | nil =>
    cases ds with
    | nil => exact ⟨rfl, (List.cons.inj h).2⟩
    | cons d ds =>
      rw [List.flatMap_cons, List.append_assoc] at h
      exact absurd h.symm ((writes_escaped hmark d).append_ne hmark)
  | cons c cs ih =>
    cases ds with
    | nil =>
      rw [List.flatMap_cons, List.append_assoc] at h
      exact absurd h ((writes_escaped hmark c).append_ne hmark)
    | cons d ds =>
      rw [List.flatMap_cons, List.flatMap_cons, List.append_assoc, List.append_assoc] at h
      obtain ⟨rfl, hmore⟩ := (writes_escaped hmark c).append_inj (writes_escaped hmark d) h
      obtain ⟨rfl, hrest⟩ := ih hmore
      exact ⟨rfl, hrest⟩

end PipeScript.Text
