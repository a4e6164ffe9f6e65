/-
Reading by position. A cursor goes through the tokens by their positions, with an end mark after the last
token; it looks at the token at its position and at the one before, and goes on by one. Looking where no
token is and going on without end both come to nothing. Neither ever happens: whatever the tokens, the
cursor comes to its end within a few more rounds than there are tokens, and what it reads is what is read
from the tokens as a list. So all that is read comes from the tokens up to the first end mark, and it is flat.

The proof follows both readers side by side: ahead of the cursor are the tokens that are left over, and
behind it is the one that was read last.
-/
import Mathlib.Data.List.TakeWhile
import PipeScript.Proofs.Syntax.Shape

namespace PipeScript

namespace Syntax

/-! ## The cursor -/

/-- A position among tokens, and the recoveries made on the way there. -/
structure Cursor where
  position : Nat
  notes : List Diagnostic

/-- Something read at a cursor, if it comes to an end among the tokens. -/
abbrev Walk (α : Type) := StateT Cursor Option α

namespace Cursor

/-- Notes recoveries. -/
def note (notes : List Diagnostic) : Walk Unit :=
  modify fun c => { c with notes := c.notes ++ notes }

section

variable (ts : List Token)

/-- The token at the position, which does not go beyond the last one. -/
def current : Walk Token := do
  let c ← get
  StateT.lift ts[min c.position (ts.length - 1)]?

/-- Goes on by one token, but not beyond the last one. -/
def advance : Walk Unit :=
  modify fun c => if c.position < ts.length - 1 then { c with position := c.position + 1 } else c

/-- Notes a recovery at the current token. -/
def recover (r : Recovery) : Walk Unit := do
  note [⟨r, (← current ts).span⟩]

/-- Whether the current token ends the arguments of a call. -/
def endsArguments : Walk Bool := do
  let t ← current ts
  match t.kind with
  | .pipe | .assign | .eof => return true
  | .variable =>
    let c ← get
    if c.position = 0 then return false
    let last ← StateT.lift ts[c.position - 1]?
    return last.span.line < t.span.line
  | _ => return false

/-- The literal of a number token. -/
def number (t : Token) : Walk Literal := do
  let (value, notes) := Syntax.number t
  note notes
  return value

/-- Reads the name after a mark. -/
def name (mark : Char) : Walk String := do
  let t ← current ts
  if t.kind = .identifier then
    advance ts
    return t.slice
  else
    recover ts (.missingName mark)
    return ""

/-- Reads the variable whose mark is the current token. -/
def reference : Walk Node := do
  advance ts
  return .variable (← name ts '!')

mutual

/-- Reads the call that the current token opens. -/
def call : Nat → Walk Node
  | 0 => failure
  | fuel + 1 => do
    let t ← current ts
    advance ts
    return .call t.slice (← arguments fuel)

/-- Reads arguments up to the end of a call. -/
def arguments : Nat → Walk (List Node)
  | 0 => failure
  | fuel + 1 => do
    if ← endsArguments ts then return []
    if (← current ts).isColon then
      advance ts
      arguments fuel
    else
      let first ← expression fuel
      return first :: (← arguments fuel)

/-- Reads an expression. -/
def expression : Nat → Walk Node
  | 0 => failure
  | fuel + 1 => do
    let t ← current ts
    match t.kind with
    | .string | .identifier =>
      advance ts
      return .literal (.string t.slice)
    | .number =>
      advance ts
      return .literal (← number t)
    | .keyword =>
      advance ts
      return .literal (keyword t.slice)
    | .variable => reference ts
    | .pipe => call fuel
    | .eof =>
      recover ts .missingExpression
      return .null
    | _ =>
      if t.kind = .symbol ∧ t.slice = "-" then
        advance ts
        let n ← current ts
        if n.kind = .number then
          advance ts
          return .literal (← number n).negate
        else return .literal (.integer (-1))
      else
        recover ts (.unexpectedToken t.kind t.slice)
        advance ts
        return .null

end

/-- Goes on by a colon, if that is the current token. -/
def skipColon : Walk Unit := do
  if (← current ts).isColon then advance ts

/-- Reads the assignment that the current token opens. -/
def assignment (fuel : Nat) : Walk Node := do
  advance ts
  let target ← name ts '&'
  skipColon ts
  return .assign target (← expression ts fuel)

/-- Reads a statement. -/
def statement (fuel : Nat) : Walk Node := do
  match (← current ts).kind with
  | .pipe => call ts fuel
  | .assign => assignment ts fuel
  | .variable => reference ts
  | _ => expression ts fuel

/-- Reads statements up to the first end mark. -/
def statements : Nat → Walk Program
  | 0 => failure
  | fuel + 1 => do
    if (← current ts).kind = .eof then return []
    let first ← statement ts fuel
    return first :: (← statements fuel)

end

end Cursor

/-- The tokens with an end mark after them, unless they end with one. -/
def closed (ts : List Token) : List Token :=
  if ts.getLast?.any (·.kind == .eof) then ts
  else ts ++ [⟨.eof, "", (ts.getLast?.map (·.span)).getD .start⟩]

/-- Reads the tokens by position, for a few more rounds than there are tokens. -/
def Cursor.parse (ts : List Token) : Option Parsed := do
  let (program, c) ← (statements (closed ts) ((closed ts).length + 2)).run ⟨0, []⟩
  return ⟨program, c.notes⟩

/-! ## Side by side -/

namespace Cursor

/-- Ahead of the position are the tokens `rest` and after them the first end mark, at the place `stop`. -/
def Ahead (ts : List Token) (stop : Span) (i : Nat) (rest : List Token) : Prop :=
  (∀ t ∈ rest, t.kind ≠ .eof) ∧
    ∃ mark more, ts.drop i = rest ++ mark :: more ∧ mark.kind = .eof ∧ mark.span = stop

/-- Right behind the position is the token `last`. -/
def Behind (ts : List Token) (i : Nat) (last : Token) : Prop :=
  ∃ k, i = k + 1 ∧ ts[k]? = some last

/-- At the position the cursor reads what the other reader does, and the same tokens are left over. -/
def Reads {α : Type} (ts : List Token) (stop : Span) (i : Nat) (w : Walk α) (r : Reading α) : Prop :=
  ∀ notes, ∃ j, w.run ⟨i, notes⟩ = some (r.value, ⟨j, notes ++ r.notes⟩) ∧ Ahead ts stop j r.rest ∧
    Behind ts j r.last

variable {α β : Type} {ts rest : List Token} {stop : Span} {i : Nat} {t last : Token} {notes : List Diagnostic}

theorem run_bind {w : Walk α} {f : α → Walk β} {c c' : Cursor} {a : α} (h : w.run c = some (a, c')) :
    (w >>= f).run c = (f a).run c' := by
  rw [StateT.run_bind, h]
  rfl

/-- Where tokens are left over, the first of them is at the position, and the others come after it. -/
theorem drop_eq_cons {us : List Token} (h : ts.drop i = t :: us) :
    ts[i]? = some t ∧ ts.drop (i + 1) = us ∧ i < ts.length := by
  have ht : ts[i]? = some t := by
    have hhead := congrArg (·[0]?) h
    simpa [List.getElem?_drop] using hhead
  refine ⟨ht, ?_, (List.getElem?_eq_some_iff.1 ht).1⟩
  rw [← List.tail_drop, h]
  rfl

theorem current_of_drop {us : List Token} (h : ts.drop i = t :: us) (notes : List Diagnostic) :
    (current ts).run ⟨i, notes⟩ = some (t, ⟨i, notes⟩) := by
  obtain ⟨ht, -, hi⟩ := drop_eq_cons h
  have hrun : (current ts).run ⟨i, notes⟩ =
    (StateT.lift ts[min i (ts.length - 1)]? : Walk Token).run ⟨i, notes⟩ := rfl
  rw [hrun, Nat.min_eq_left (by omega), ht]
  rfl

theorem Ahead.current_nil (ha : Ahead ts stop i []) : ∃ mark, mark.kind = .eof ∧ mark.span = stop ∧
    ∀ notes, (current ts).run ⟨i, notes⟩ = some (mark, ⟨i, notes⟩) := by
  obtain ⟨-, mark, more, hdrop, hkind, hspan⟩ := ha
  exact ⟨mark, hkind, hspan, current_of_drop hdrop⟩

theorem Ahead.current_cons (ha : Ahead ts stop i (t :: rest)) (notes : List Diagnostic) :
    (current ts).run ⟨i, notes⟩ = some (t, ⟨i, notes⟩) := by
  obtain ⟨-, mark, more, hdrop, -, -⟩ := ha
  exact current_of_drop hdrop notes

/-- Before the end mark the cursor goes on to the next token. -/
theorem Ahead.advance (ha : Ahead ts stop i (t :: rest)) : Ahead ts stop (i + 1) rest ∧ Behind ts (i + 1) t ∧
    ∀ notes, (advance ts).run ⟨i, notes⟩ = some ((), ⟨i + 1, notes⟩) := by
  obtain ⟨hrest, mark, more, hdrop, hmark⟩ := ha
  rw [List.cons_append] at hdrop
  obtain ⟨ht, hnext, -⟩ := drop_eq_cons hdrop
  -- the end mark is further ahead, so this is not the last token
  have hi : i < ts.length - 1 := by
    have hlength := congrArg List.length hnext
    simp only [List.length_drop, List.length_append, List.length_cons] at hlength
    omega
  refine ⟨⟨(List.forall_mem_cons.1 hrest).2, mark, more, hnext, hmark⟩, ⟨i, rfl, ht⟩, fun notes => ?_⟩
  have hrun : (Cursor.advance ts).run ⟨i, notes⟩ =
    some ((), if i < ts.length - 1 then ⟨i + 1, notes⟩ else ⟨i, notes⟩) := rfl
  rw [hrun, if_pos hi]

/-! ### One after another -/

theorem Reads.pure (a : α) (ha : Ahead ts stop i rest) (hb : Behind ts i last) :
    Reads ts stop i (pure a) ⟨a, [], last, rest⟩ :=
  fun notes => ⟨i, by simp, ha, hb⟩

/-- First a look at a token, or a step. -/
theorem Reads.after {j : Nat} {w : Walk β} {b : β} {f : β → Walk α} {r : Reading α}
    (hw : ∀ notes, w.run ⟨i, notes⟩ = some (b, ⟨j, notes⟩)) (h : Reads ts stop j (f b) r) :
    Reads ts stop i (w >>= f) r := by
  intro notes
  obtain ⟨k, hrun, hk⟩ := h notes
  exact ⟨k, (run_bind (hw notes)).trans hrun, hk⟩

/-- First something else is read. -/
theorem Reads.bind {w : Walk β} {f : β → Walk α} {q : Reading β} {a : α} {ns : List Diagnostic}
    (hw : Reads ts stop i w q)
    (hf : ∀ j, Ahead ts stop j q.rest → Behind ts j q.last → Reads ts stop j (f q.value) ⟨a, ns, last, rest⟩) :
    Reads ts stop i (w >>= f) ⟨a, q.notes ++ ns, last, rest⟩ := by
  intro notes
  obtain ⟨j, hrun, ha, hb⟩ := hw notes
  obtain ⟨k, hrest, hk⟩ := hf j ha hb (notes ++ q.notes)
  refine ⟨k, (run_bind hrun).trans ?_, hk⟩
  rw [hrest, List.append_assoc]

theorem Reads.map {w : Walk β} {q : Reading β} (hw : Reads ts stop i w q) (f : β → α) :
    Reads ts stop i (w >>= fun b => Pure.pure (f b)) { q with value := f q.value } := by
  simpa using hw.bind (f := fun b => Pure.pure (f b)) fun j ha hb => .pure (f q.value) ha hb

/-- First a recovery at the current token. -/
theorem Reads.recover {r : Recovery} {f : Unit → Walk α} {a : α} {ns : List Diagnostic}
    (h : ∀ notes, (current ts).run ⟨i, notes⟩ = some (t, ⟨i, notes⟩))
    (hf : Reads ts stop i (f ()) ⟨a, ns, last, rest⟩) :
    Reads ts stop i (recover ts r >>= f) ⟨a, ⟨r, t.span⟩ :: ns, last, rest⟩ := by
  intro notes
  obtain ⟨k, hrun, hk⟩ := hf (notes ++ [⟨r, t.span⟩])
  refine ⟨k, (run_bind (run_bind (h notes))).trans (hrun.trans ?_), hk⟩
  simp

theorem Reads.number (t : Token) (ha : Ahead ts stop i rest) (hb : Behind ts i last) :
    Reads ts stop i (number t) ⟨(Syntax.number t).1, (Syntax.number t).2, last, rest⟩ :=
  fun _ => ⟨i, rfl, ha, hb⟩

/-! ### Names and operands -/

theorem name_reads (mark : Char) (ha : Ahead ts stop i rest) (hb : Behind ts i last) :
    Reads ts stop i (name ts mark) (Syntax.name stop mark last rest) := by
  cases rest with
  | nil =>
    obtain ⟨m, hkind, rfl, hcurrent⟩ := ha.current_nil
    refine .after hcurrent ?_
    rw [if_neg (by simp [hkind])]
    exact .recover hcurrent (.pure "" ha hb)
  | cons t rest =>
    refine .after ha.current_cons ?_
    by_cases hk : t.kind = .identifier
    · obtain ⟨hahead, hbehind, hadvance⟩ := ha.advance
      simp only [Syntax.name, hk, if_true]
      exact .after hadvance (.pure _ hahead hbehind)
    · simp only [Syntax.name, hk, if_false]
      exact .recover ha.current_cons (.pure "" ha hb)

theorem reference_reads (ha : Ahead ts stop i (t :: rest)) (hk : t.kind = .variable) :
    Reads ts stop i (reference ts) (operand stop t rest) := by
  obtain ⟨hahead, hbehind, hadvance⟩ := ha.advance
  simp only [operand, hk]
  exact .after hadvance ((name_reads '!' hahead hbehind).map _)

/-- An expression that opens no call is read as an operand. -/
theorem operand_reads (fuel : Nat) (ha : Ahead ts stop i (t :: rest)) (hk : t.kind ≠ .pipe) :
    Reads ts stop i (expression ts (fuel + 1)) (operand stop t rest) := by
  have heof : t.kind ≠ .eof := ha.1 t List.mem_cons_self
  obtain ⟨hahead, hbehind, hadvance⟩ := ha.advance
  refine .after ha.current_cons ?_
  cases hkind : t.kind <;> simp only [operand, hkind, reduceCtorEq, false_and, true_and, if_false]
  case pipe => exact absurd hkind hk
  case eof => exact absurd hkind heof
  case «variable» => simpa only [operand, hkind] using reference_reads ha hkind
  case number => exact .after hadvance ((Reads.number t hahead hbehind).map _)
  case string | identifier | keyword => exact .after hadvance (.pure _ hahead hbehind)
  case symbol =>
    split
    · refine .after hadvance ?_
      cases rest with
      | nil =>
        obtain ⟨m, hmark, -, hcurrent⟩ := hahead.current_nil
        refine .after hcurrent ?_
        rw [if_neg (by simp [hmark])]
        exact .pure _ hahead hbehind
      | cons n rest =>
        obtain ⟨hahead', hbehind', hadvance'⟩ := hahead.advance
        refine .after hahead.current_cons ?_
        by_cases hn : n.kind = .number
        · simp only [hn, if_true]
          exact .after hadvance' ((Reads.number n hahead' hbehind').map _)
        · simp only [hn, if_false]
          exact .pure _ hahead hbehind
    · exact .recover ha.current_cons (.after hadvance (.pure _ hahead hbehind))
  all_goals exact .recover ha.current_cons (.after hadvance (.pure _ hahead hbehind))

/-! ### Calls -/

theorem endsArguments_nil (ha : Ahead ts stop i []) (notes : List Diagnostic) :
    (endsArguments ts).run ⟨i, notes⟩ = some (true, ⟨i, notes⟩) := by
  obtain ⟨m, hkind, -, hcurrent⟩ := ha.current_nil
  refine (run_bind (hcurrent notes)).trans ?_
  rw [hkind]
  rfl

theorem endsArguments_cons (ha : Ahead ts stop i (t :: rest)) (hb : Behind ts i last)
    (notes : List Diagnostic) :
    (endsArguments ts).run ⟨i, notes⟩ = some (Syntax.endsArguments last t, ⟨i, notes⟩) := by
  refine (run_bind (ha.current_cons notes)).trans ?_
  obtain ⟨k, rfl, hlast⟩ := hb
  cases hk : t.kind <;> simp only [Syntax.endsArguments, hk]
  case «variable» =>
    have hlift : (StateT.lift ts[k]? : Walk Token).run ⟨k + 1, notes⟩ = some (last, ⟨k + 1, notes⟩) := by
      rw [hlast]
      rfl
    exact run_bind (f := fun last => Pure.pure (decide (last.span.line < t.span.line))) hlift
  all_goals rfl

/-- One round for each token that is left over, and one for the end, is enough to read arguments. -/
theorem arguments_reads {fuel : Nat} (hfuel : rest.length < fuel) (ha : Ahead ts stop i rest)
    (hb : Behind ts i last) :
    Reads ts stop i (arguments ts fuel) (Syntax.arguments stop last rest) := by
  fun_induction Syntax.arguments stop last rest generalizing i fuel with
  | case1 last =>
    obtain ⟨fuel, rfl⟩ := Nat.exists_eq_add_one.2 hfuel
    exact .after (endsArguments_nil ha) (.pure [] ha hb)
  | case2 last t rest hends =>
    obtain ⟨fuel, rfl⟩ := Nat.exists_eq_add_one.2 (Nat.zero_lt_of_lt hfuel)
    refine .after (endsArguments_cons ha hb) ?_
    rw [if_pos hends]
    exact .pure [] ha hb
  | case3 last t rest hends hcolon ih =>
    obtain ⟨fuel, rfl⟩ := Nat.exists_eq_add_one.2 (Nat.zero_lt_of_lt hfuel)
    obtain ⟨hahead, hbehind, hadvance⟩ := ha.advance
    refine .after (endsArguments_cons ha hb) ?_
    rw [if_neg hends]
    refine .after ha.current_cons ?_
    rw [if_pos hcolon]
    exact .after hadvance (ih (Nat.lt_of_succ_lt_succ hfuel) hahead hbehind)
  | case4 last t rest hends hcolon first =>
    rename_i others ih
    obtain ⟨fuel, rfl⟩ := Nat.exists_eq_add_one.2 (Nat.zero_lt_of_lt hfuel)
    have hrest : rest.length < fuel := Nat.lt_of_succ_lt_succ hfuel
    obtain ⟨less, rfl⟩ := Nat.exists_eq_add_one.2 (Nat.zero_lt_of_lt hrest)
    refine .after (endsArguments_cons ha hb) ?_
    rw [if_neg hends]
    refine .after ha.current_cons ?_
    rw [if_neg hcolon]
    have hpipe : t.kind ≠ .pipe := fun hpipe => hends (by simp [Syntax.endsArguments, hpipe])
    refine (operand_reads less ha hpipe).bind fun j hahead hbehind => ?_
    exact (ih (Nat.lt_of_le_of_lt (operand_rest_length_le ..) hrest) hahead hbehind).map _

theorem call_reads {fuel : Nat} (hfuel : rest.length < fuel) (ha : Ahead ts stop i (t :: rest)) :
    Reads ts stop i (call ts (fuel + 1)) (Syntax.call stop t rest) := by
  obtain ⟨hahead, hbehind, hadvance⟩ := ha.advance
  exact .after ha.current_cons (.after hadvance ((arguments_reads hfuel hahead hbehind).map _))

/-! ### Statements -/

theorem expression_reads {fuel : Nat} (hfuel : rest.length < fuel) (ha : Ahead ts stop i (t :: rest)) :
    Reads ts stop i (expression ts (fuel + 2)) (Syntax.expression stop t rest) := by
  by_cases hpipe : t.kind = .pipe
  · rw [Syntax.expression, if_pos hpipe]
    refine .after ha.current_cons ?_
    rw [hpipe]
    exact call_reads hfuel ha
  · rw [Syntax.expression, if_neg hpipe]
    exact operand_reads _ ha hpipe

/-- At the end mark the cursor stays. -/
theorem assigned_reads {fuel : Nat} (hfuel : rest.length ≤ fuel) (ha : Ahead ts stop i rest)
    (hb : Behind ts i last) :
    Reads ts stop i (expression ts (fuel + 2)) (assigned stop last rest) := by
  cases rest with
  | nil =>
    obtain ⟨m, hkind, rfl, hcurrent⟩ := ha.current_nil
    refine .after hcurrent ?_
    rw [hkind]
    exact .recover hcurrent (.pure Node.null ha hb)
  | cons t rest => exact expression_reads hfuel ha

theorem skipColon_reads (ha : Ahead ts stop i rest) (hb : Behind ts i last) :
    Reads ts stop i (skipColon ts) ⟨(), [], (Syntax.skipColon last rest).1, (Syntax.skipColon last rest).2⟩ := by
  cases rest with
  | nil =>
    obtain ⟨m, hkind, -, hcurrent⟩ := ha.current_nil
    refine .after hcurrent ?_
    rw [if_neg (by simp [Token.isColon, hkind])]
    exact .pure () ha hb
  | cons t rest =>
    refine .after ha.current_cons ?_
    simp only [Syntax.skipColon]
    split
    · obtain ⟨hahead, hbehind, hadvance⟩ := ha.advance
      simpa using Reads.after hadvance (.pure () hahead hbehind)
    · exact .pure () ha hb

theorem assignment_reads {fuel : Nat} (hfuel : rest.length ≤ fuel) (ha : Ahead ts stop i (t :: rest)) :
    Reads ts stop i (assignment ts (fuel + 2)) (Syntax.assignment stop t rest) := by
  obtain ⟨hahead, hbehind, hadvance⟩ := ha.advance
  refine .after hadvance ((name_reads '&' hahead hbehind).bind fun j hahead hbehind => ?_)
  refine (skipColon_reads hahead hbehind).bind fun j hahead hbehind => ?_
  have htarget := name_rest_length_le stop '&' t rest
  have hvalue := skipColon_rest_length_le (Syntax.name stop '&' t rest).last (Syntax.name stop '&' t rest).rest
  exact (assigned_reads (hvalue.trans (htarget.trans hfuel)) hahead hbehind).map _

theorem statement_reads {fuel : Nat} (hfuel : rest.length < fuel) (ha : Ahead ts stop i (t :: rest)) :
    Reads ts stop i (statement ts (fuel + 2)) (Syntax.statement stop t rest) := by
  refine .after ha.current_cons ?_
  split
  · next hpipe =>
    rw [Syntax.statement, if_neg (by simp [hpipe]), Syntax.expression, if_pos hpipe]
    exact call_reads (Nat.lt_succ_of_lt hfuel) ha
  · next hassign =>
    rw [Syntax.statement, if_pos hassign]
    exact assignment_reads (Nat.le_of_lt hfuel) ha
  · next hvariable =>
    rw [Syntax.statement, if_neg (by simp [hvariable]), Syntax.expression, if_neg (by simp [hvariable])]
    exact reference_reads ha hvariable
  · next hassign _ =>
    rw [Syntax.statement, if_neg hassign]
    exact expression_reads hfuel ha

/-- A few more rounds than there are tokens before the end mark bring the cursor there, and on the way it
reads all statements. -/
theorem statements_run {fuel : Nat} (hfuel : rest.length + 2 < fuel) (ha : Ahead ts stop i rest)
    (notes : List Diagnostic) :
    ∃ j, (statements ts fuel).run ⟨i, notes⟩ =
      some ((Syntax.statements stop rest).1, ⟨j, notes ++ (Syntax.statements stop rest).2⟩) ∧
      Ahead ts stop j [] := by
  fun_induction Syntax.statements stop rest generalizing i fuel notes with
  | case1 =>
    obtain ⟨fuel, rfl⟩ := Nat.exists_eq_add_one.2 (Nat.zero_lt_of_lt hfuel)
    obtain ⟨m, hkind, -, hcurrent⟩ := ha.current_nil
    refine ⟨i, (run_bind (hcurrent notes)).trans ?_, ha⟩
    rw [if_pos hkind, List.append_nil]
    rfl
  | case2 t rest first =>
    rename_i others ih
    obtain ⟨fuel, rfl⟩ : ∃ k, fuel = k + 3 := Nat.exists_eq_add_of_le' (by omega)
    have hrest : rest.length < fuel := by simpa using hfuel
    obtain ⟨j, hfirst, hahead, -⟩ := statement_reads hrest ha notes
    have hless : first.rest.length ≤ rest.length := statement_rest_length_le stop t rest
    obtain ⟨k, hothers, hk⟩ := ih (show _ < fuel + 2 by omega) hahead (notes ++ first.notes)
    refine ⟨k, (run_bind (ha.current_cons notes)).trans ?_, hk⟩
    rw [if_neg (ha.1 t List.mem_cons_self)]
    refine (run_bind hfirst).trans ((run_bind hothers).trans ?_)
    rw [List.append_assoc]
    rfl

end Cursor

/-! ## Up to the end mark -/

/-- The tokens up to the first end mark, with it. -/
def upToMark : List Token → List Token
  | [] => []
  | t :: ts => if t.kind = .eof then [t] else t :: upToMark ts

theorem upToMark_append {body more : List Token} {mark : Token} (hmark : mark.kind = .eof)
    (hbody : ∀ t ∈ body, t.kind ≠ .eof) : upToMark (body ++ mark :: more) = body ++ [mark] := by
  induction body with
  | nil => simp [upToMark, hmark]
  | cons t body ih =>
    obtain ⟨ht, hbody⟩ := List.forall_mem_cons.1 hbody
    rw [List.cons_append, upToMark, if_neg ht, ih hbody, List.cons_append]

/-- There is an end mark among the closed tokens, and the first one is what the tokens are read up to. -/
theorem exists_closed_eq (ts : List Token) : ∃ body mark more, closed ts = body ++ mark :: more ∧
    mark.kind = .eof ∧ (∀ t ∈ body, t.kind ≠ .eof) ∧
    parse ts = ⟨(statements mark.span body).1, (statements mark.span body).2⟩ := by
  cases hfind : ts.find? (·.kind == .eof) with
  | some mark =>
    obtain ⟨hmark, body, more, hts, hbody⟩ := List.find?_eq_some_iff_append.1 hfind
    have hmark : mark.kind = .eof := by simpa using hmark
    have hbody : ∀ t ∈ body, t.kind ≠ .eof := fun t ht => by simpa using hbody t ht
    have hparse : parse ts = ⟨(statements mark.span body).1, (statements mark.span body).2⟩ := by
      rw [hts]
      exact parse_append_eof hmark hbody
    unfold closed
    split
    · exact ⟨body, mark, more, hts, hmark, hbody, hparse⟩
    · exact ⟨body, mark, _, by rw [hts, List.append_assoc, List.cons_append], hmark, hbody, hparse⟩
  | none =>
    have hbody : ∀ t ∈ ts, t.kind ≠ .eof := fun t ht => by simpa using List.find?_eq_none.1 hfind t ht
    have hlast : ¬ts.getLast?.any (·.kind == .eof) := by
      rw [Option.any_eq_true]
      rintro ⟨t, ht, hkind⟩
      exact hbody t (List.mem_of_getLast? ht) (by simpa using hkind)
    refine ⟨ts, ⟨.eof, "", _⟩, [], if_neg hlast, rfl, hbody, ?_⟩
    have hspan : endSpan ts = (ts.getLast?.map (·.span)).getD .start := by
      rw [endSpan, hfind]
    rw [parse, hspan, List.takeWhile_eq_self_iff.2 fun t ht => bne_iff_ne.2 (hbody t ht)]

end Syntax

open Syntax

/-- Whatever the tokens, the cursor never looks where no token is and comes to its end, and what it reads is
what is read from the list. What comes after the first end mark makes no difference, and no statement is
nested any deeper than a line. -/
theorem parse_total_flat (ts : List Token) :
    Cursor.parse ts = some (parse ts) ∧ (∀ more, parse (upToMark (closed ts) ++ more) = parse ts) ∧
      ∀ s ∈ (parse ts).program, s.Line fun _ => True := by
  obtain ⟨body, mark, more, hclosed, hmark, hbody, hparse⟩ := exists_closed_eq ts
  refine ⟨?_, fun others => ?_, fun s hs => (parse_line ts s hs).imp fun _ _ => trivial⟩
  · have hahead : Cursor.Ahead (closed ts) mark.span 0 body := ⟨hbody, mark, more, hclosed, hmark, rfl⟩
    have hfuel : body.length + 2 < (closed ts).length + 2 := by simp [hclosed]
    obtain ⟨j, hrun, -⟩ := Cursor.statements_run hfuel hahead []
    rw [Cursor.parse, hrun, hparse]
    rfl
  · rw [hclosed, upToMark_append hmark hbody, List.append_assoc, List.singleton_append,
      parse_append_eof hmark hbody, hparse]

end PipeScript
