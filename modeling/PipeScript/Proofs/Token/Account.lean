/-
What becomes of the characters of a source. Every character belongs to one lexeme, and the lexemes come one
after another without gaps. What is no token is blank, or a character that begins none and is reported, or
the point of an access. The place of a token or a diagnostic is that of the first character of its lexeme,
which is told from the line feeds before it.

The points need a look back: whether a point belongs to an access depends on the lexemes right before it. As
the lexemes are found from left to right, the stage of the access that is being read tells as much.
-/
import PipeScript.Proofs.Token.Joined
import PipeScript.Proofs.Token.Mark

namespace PipeScript

/-! ## Places -/

/-- The place right after some text at the start of a source, told from the line feeds in the text. -/
def Span.behind (before : List Char) : Span :=
  ⟨1 + before.count '\n', 1 + (before.reverse.takeWhile (· != '\n')).length⟩

theorem Span.start_after (before : List Char) : start.after before = behind before := by
  induction before using List.reverseRecOn with
  | nil => rfl
  | append_singleton before c ih =>
    rw [after_append, ih, after_cons, after_nil, next, behind, behind]
    by_cases hc : c = '\n'
    · simp [hc, Nat.add_assoc]
    · simp [hc, Nat.add_comm]

namespace Lexeme

/-- Lexemes with the text before each of them, the first one after the text `before`. -/
def located (before : List Char) : List Lexeme → List (List Char × Lexeme)
  | [] => []
  | l :: ls => (before, l) :: located (before ++ l.text) ls

theorem placed_behind (before : List Char) (ls : List Lexeme) :
    placed (.behind before) ls = (located before ls).map fun (before, l) => (l, .behind before) := by
  induction ls generalizing before with
  | nil => rfl
  | cons l ls ih =>
    have hnext : (Span.behind before).after l.text = .behind (before ++ l.text) := by
      rw [← Span.start_after, ← Span.start_after, Span.after_append]
    rw [placed, hnext, ih]
    rfl

theorem mem_located {before front : List Char} {ls : List Lexeme} {l : Lexeme} :
    (front, l) ∈ located before ls ↔
      ∃ as bs, ls = as ++ l :: bs ∧ front = before ++ as.flatMap (·.text) := by
  induction ls generalizing before with
  | nil => simp [located]
  | cons m ls ih =>
    rw [located, List.mem_cons, ih, Prod.mk.injEq]
    constructor
    · rintro (⟨rfl, rfl⟩ | ⟨as, bs, rfl, rfl⟩)
      · exact ⟨[], ls, rfl, by simp⟩
      · exact ⟨m :: as, bs, rfl, by simp⟩
    · rintro ⟨as, bs, hls, rfl⟩
      cases as with
      | nil =>
        obtain ⟨rfl, rfl⟩ := List.cons_eq_cons.1 hls
        exact .inl ⟨by simp, rfl⟩
      | cons a as =>
        obtain ⟨rfl, rfl⟩ := List.cons_eq_cons.1 hls
        exact .inr ⟨as, bs, rfl, by simp⟩

/-- One lexeme begins where all the lexemes before it have ended. -/
theorem pairwise_located (before : List Char) (ls : List Lexeme) :
    (located before ls).Pairwise fun p q => p.1.length + p.2.text.length ≤ q.1.length := by
  induction ls generalizing before with
  | nil => exact .nil
  | cons l ls ih =>
    refine .cons (fun (front, m) hm => ?_) (ih _)
    obtain ⟨as, bs, -, rfl⟩ := mem_located.1 hm
    simp

/-! ## Strings that are cut off -/

theorem not_isOpen_of_mem_ofRun {kind : TokenKind} {run : List Char} {l : Lexeme} (hl : l ∈ ofRun kind run) :
    ¬l.IsOpen := by
  obtain ⟨-, rfl⟩ := mem_ofRun hl
  simp [IsOpen]

/-- Nothing comes after a string that the end of the source cuts off. -/
theorem isOpen_first (c : Char) (cs : List Char) : (∀ l ∈ (first c cs).lexemes, ¬l.IsOpen) ∨
    (∃ l, (first c cs).lexemes = [l]) ∧ (first c cs).rest = [] := by
  revert cs
  apply first_cases (motive := fun f => ∀ cs, (∀ l ∈ (f cs).lexemes, ¬l.IsOpen) ∨
    (∃ l, (f cs).lexemes = [l]) ∧ (f cs).rest = [])
  case string =>
    intro _ cs
    have hbody := stringBody_written cs
    simp only [string]
    generalize stringBody cs = body at hbody
    cases hbody with
    | closed => exact .inl (by simp [IsOpen])
    | cut | backslash => exact .inr ⟨⟨_, rfl⟩, rfl⟩
  case blank | pipe | symbol | number | word | stray => exact fun _ cs => .inl (by simp [running, single, IsOpen])
  case mark =>
    exact fun kind _ cs => .inl (List.forall_mem_cons.2 ⟨by simp [IsOpen], fun _ => not_isOpen_of_mem_ofRun⟩)
  case access =>
    rintro kind index (⟨-, -, rfl⟩ | ⟨-, -, rfl⟩) cs <;>
      exact .inl (forall_mem_access (by simp [IsOpen]) (by simp [IsOpen]) (fun _ _ => not_isOpen_of_mem_ofRun)
        (fun _ _ => not_isOpen_of_mem_ofRun) cs)

theorem pairwise_scan (cs : List Char) : (scan cs).Pairwise fun l _ => ¬l.IsOpen := by
  fun_induction scan cs with
  | case1 => exact .nil
  | case2 c rest ih =>
    rcases isOpen_first c rest with hclosed | ⟨⟨l, hl⟩, hrest⟩
    · refine List.pairwise_append.2 ⟨List.pairwise_of_forall_mem_list fun l hl _ _ => hclosed l hl, ih, ?_⟩
      exact fun l hl _ _ => hclosed l hl
    · rw [hl, hrest, scan_nil]
      exact List.pairwise_singleton _ _

/-! ## Points -/

/-- The mark of an access to a dictionary or a list. -/
def MarksAccess (l : Lexeme) : Prop :=
  ∃ slice, l.role = .token .objectAccess slice ∨ l.role = .token .arrayAccess slice

/-- A word. -/
def IsName (l : Lexeme) : Prop :=
  ∃ slice, l.role = .token .identifier slice

/-- The last of the lexemes is the mark of an access, or the name right after such a mark. -/
def AfterAccess (ls : List Lexeme) : Prop :=
  ∃ front m, m.MarksAccess ∧ (ls = front ++ [m] ∨ ∃ n, n.IsName ∧ ls = front ++ [m, n])

/-- How far an access has been read: its mark, or its mark and a name. -/
inductive Stage where
  | outside
  | marked
  | named

namespace Stage

/-- The stage after a lexeme. -/
def next (s : Stage) (l : Lexeme) : Stage :=
  match l.role, s with
  | .token .objectAccess _, _ => .marked
  | .token .arrayAccess _, _ => .marked
  | .token .identifier _, .marked => .named
  | _, _ => .outside

/-- The stage after some lexemes. -/
def after (s : Stage) (ls : List Lexeme) : Stage :=
  ls.foldl next s

theorem next_eq_marked {s : Stage} {l : Lexeme} : s.next l = .marked ↔ l.MarksAccess := by
  rcases l with ⟨text, role⟩
  cases role with
  | token kind slice => cases kind <;> cases s <;> simp [next, MarksAccess]
  | _ => simp [next, MarksAccess]

theorem next_eq_named {s : Stage} {l : Lexeme} : s.next l = .named ↔ s = .marked ∧ l.IsName := by
  rcases l with ⟨text, role⟩
  cases role with
  | token kind slice => cases kind <;> cases s <;> simp [next, IsName]
  | _ => simp [next, IsName]

theorem next_eq_outside {s : Stage} {l : Lexeme} (hmark : ¬l.MarksAccess) (hname : s = .marked → ¬l.IsName) :
    s.next l = .outside := by
  cases hs : s.next l with
  | outside => rfl
  | marked => exact absurd (next_eq_marked.1 hs) hmark
  | named => exact absurd (next_eq_named.1 hs).2 (hname (next_eq_named.1 hs).1)

theorem after_append_singleton (s : Stage) (ls : List Lexeme) (l : Lexeme) :
    s.after (ls ++ [l]) = (s.after ls).next l :=
  List.foldl_append

theorem after_eq_marked {ls : List Lexeme} :
    outside.after ls = .marked ↔ ∃ front m, m.MarksAccess ∧ ls = front ++ [m] := by
  induction ls using List.reverseRecOn with
  | nil => simp [after]
  | append_singleton ls l =>
    rw [after_append_singleton, next_eq_marked]
    constructor
    · exact fun hl => ⟨ls, l, hl, rfl⟩
    · rintro ⟨front, m, hm, heq⟩
      rwa [(List.append_singleton_inj.1 heq).2]

theorem after_eq_named {ls : List Lexeme} :
    outside.after ls = .named ↔ ∃ front m n, m.MarksAccess ∧ n.IsName ∧ ls = front ++ [m, n] := by
  induction ls using List.reverseRecOn with
  | nil => simp [after]
  | append_singleton ls l =>
    rw [after_append_singleton, next_eq_named, after_eq_marked]
    constructor
    · rintro ⟨⟨front, m, hm, rfl⟩, hl⟩
      exact ⟨front, m, l, hm, hl, by simp⟩
    · rintro ⟨front, m, n, hm, hn, heq⟩
      rw [List.append_cons front m [n], List.append_singleton_inj] at heq
      exact ⟨⟨front, m, hm, heq.1⟩, heq.2 ▸ hn⟩

theorem after_ne_outside {ls : List Lexeme} : outside.after ls ≠ .outside ↔ AfterAccess ls := by
  have hcases (s : Stage) : s ≠ .outside ↔ s = .marked ∨ s = .named := by cases s <;> simp
  rw [hcases, after_eq_marked, after_eq_named]
  constructor
  · rintro (⟨front, m, hm, h⟩ | ⟨front, m, n, hm, hn, h⟩)
    · exact ⟨front, m, hm, .inl h⟩
    · exact ⟨front, m, hm, .inr ⟨n, hn, h⟩⟩
  · rintro ⟨front, m, hm, h | ⟨n, hn, h⟩⟩
    · exact .inl ⟨front, m, hm, h⟩
    · exact .inr ⟨front, m, n, hm, hn, h⟩

/-- The source does not go on with the access that is being read. -/
structure Ends (s : Stage) (cs : List Char) : Prop where
  point : s ≠ .outside → ∀ c ∈ cs.head?, c ≠ '.'
  name : s = .marked → ∀ c ∈ cs.head?, isNameChar c = false

theorem ends_outside (cs : List Char) : outside.Ends cs where
  point h := absurd rfl h
  name := nofun

end Stage

/-- The lexemes that are points are those that begin with one while an access is being read. -/
def Pointed (s : Stage) : List Lexeme → Prop
  | [] => True
  | l :: ls => (l.role = .point ↔ s ≠ .outside ∧ l.text.head? = some '.') ∧ Pointed (s.next l) ls

theorem pointed_append {s : Stage} {ls ms : List Lexeme} :
    Pointed s (ls ++ ms) ↔ Pointed s ls ∧ Pointed (s.after ls) ms := by
  induction ls generalizing s with
  | nil => exact (true_and _).symm.to_iff
  | cons l ls ih => rw [List.cons_append, Pointed, Pointed, ih, and_assoc]; rfl

/-- What a rule finds has the points in their places, and the source does not go on with an access. -/
structure Found.Pointed (s : Stage) (f : Found) : Prop where
  lexemes : Lexeme.Pointed s f.lexemes
  rest : (s.after f.lexemes).Ends f.rest

theorem Found.Pointed.cons {s : Stage} {l : Lexeme} {f : Found}
    (hl : l.role = .point ↔ s ≠ .outside ∧ l.text.head? = some '.') (hf : f.Pointed (s.next l)) :
    Found.Pointed s ⟨l :: f.lexemes, f.rest⟩ :=
  ⟨⟨hl, hf.lexemes⟩, hf.rest⟩

/-- A lexeme on its own that does not go on with an access. -/
theorem pointed_single {s : Stage} {l : Lexeme} {rest : List Char} (hrole : l.role ≠ .point)
    (hhead : s ≠ .outside → l.text.head? ≠ some '.') (hmark : ¬l.MarksAccess) (hname : s = .marked → ¬l.IsName) :
    Found.Pointed s ⟨[l], rest⟩ where
  lexemes := ⟨iff_of_false hrole fun h => hhead h.1 h.2, trivial⟩
  rest := by
    rw [Stage.after, List.foldl_cons, Stage.next_eq_outside hmark hname]
    exact Stage.ends_outside rest

/-- A run that is read outside of an access. -/
theorem pointed_ofRun {kind : TokenKind} (hkind : kind ≠ .objectAccess ∧ kind ≠ .arrayAccess) (run rest : List Char) :
    Found.Pointed .outside ⟨ofRun kind run, rest⟩ := by
  unfold ofRun
  split
  · exact ⟨trivial, Stage.ends_outside rest⟩
  · exact pointed_single (by simp) (absurd rfl) (by simp [MarksAccess, hkind]) nofun

/-- The name after the mark of an access, or nothing, and then the access may go on with a point. -/
theorem pointed_name (cs : List Char) : Pointed .marked (name cs).lexemes ∧
    Stage.marked.after (name cs).lexemes ≠ .outside := by
  have hpoint : '.' ∉ cs.takeWhile isNameChar := fun h => absurd (List.mem_takeWhile_imp h) (by decide)
  simp only [name, ofRun]
  split
  · exact ⟨trivial, by simp [Stage.after]⟩
  · exact ⟨⟨iff_of_false (by simp) fun h => hpoint (List.mem_of_mem_head? h.2), trivial⟩,
      by simp [Stage.after, Stage.next]⟩

theorem pointed_access {s : Stage} {mark : Char} {kind : TokenKind} {index : List Char → Found}
    (hkind : kind = .objectAccess ∨ kind = .arrayAccess) (hmark : s ≠ .outside → mark ≠ '.')
    (hindex : ∀ cs, (index cs).Pointed .outside) (cs : List Char) : (access mark kind index cs).Pointed s := by
  obtain ⟨hname, hafter⟩ := pointed_name cs
  have hnext : s.next ⟨[mark], .token kind []⟩ = .marked :=
    Stage.next_eq_marked.2 ⟨[], by rcases hkind with rfl | rfl <;> simp⟩
  have hfirst : Pointed s (⟨[mark], .token kind []⟩ :: (name cs).lexemes) :=
    ⟨iff_of_false (by simp) fun h => hmark h.1 (Option.some.inj h.2), hnext ▸ hname⟩
  have hstage : s.after (⟨[mark], .token kind []⟩ :: (name cs).lexemes) = Stage.marked.after (name cs).lexemes := by
    rw [Stage.after, List.foldl_cons, hnext, Stage.after]
  unfold access
  simp only
  split
  · next rest hrest =>
    have hpoint (t : Stage) : t.next ⟨['.'], .point⟩ = .outside := by cases t <;> rfl
    refine ⟨pointed_append.2 ⟨hfirst, ?_⟩, ?_⟩
    · rw [hstage]
      exact ⟨iff_of_true rfl ⟨hafter, rfl⟩, hpoint _ ▸ (hindex rest).lexemes⟩
    · rw [Stage.after, List.foldl_append, List.foldl_cons, hpoint]
      exact (hindex rest).rest
  · next hrest =>
    refine ⟨hfirst, fun _ c hc => ?_, fun _ => isNameChar_rest_name cs⟩
    rintro rfl
    obtain ⟨rest, hdot⟩ := List.head?_eq_some_iff.1 hc
    exact hrest rest hdot

theorem pointed_first {s : Stage} {c : Char} {cs : List Char} (hs : s.Ends (c :: cs)) : (first c cs).Pointed s := by
  have hhead (h : s ≠ .outside) : c ≠ '.' := hs.point h c rfl
  have hname (h : s = .marked) : isNameChar c = false := hs.name h c rfl
  clear hs
  revert cs
  apply first_cases (motive := fun f => ∀ {cs : List Char}, (f cs).Pointed s)
  case blank | pipe | symbol | number | stray =>
    intro _ cs
    exact pointed_single (by simp) (by simpa using hhead) (by simp [MarksAccess]) (by simp [IsName])
  case mark =>
    intro kind hkind cs
    have hmark : kind ≠ .objectAccess ∧ kind ≠ .arrayAccess ∧ kind ≠ .identifier := by
      rcases hkind with ⟨-, rfl⟩ | ⟨-, rfl⟩ <;> decide
    have hnext : s.next ⟨[c], .token kind []⟩ = .outside :=
      Stage.next_eq_outside (by simp [MarksAccess, hmark]) (by simp [IsName, hmark])
    have hrest : (name cs).Pointed .outside := pointed_ofRun (by decide) _ _
    exact .cons (iff_of_false (by simp) fun h => hhead h.1 (Option.some.inj h.2)) (hnext ▸ hrest)
  case access =>
    rintro kind index (⟨-, rfl, rfl⟩ | ⟨-, rfl, rfl⟩) cs
    · exact pointed_access (.inl rfl) hhead (fun _ => pointed_ofRun (by decide) _ _) cs
    · exact pointed_access (.inr rfl) hhead (fun _ => pointed_ofRun (by decide) _ _) cs
  case string =>
    rintro rfl cs
    simp only [string]
    split <;> exact pointed_single (by simp) (fun _ => by simp) (by simp [MarksAccess]) (by simp [IsName])
  case word =>
    intro hletter cs
    have hmark : s ≠ .marked := fun h => by simp [isNameChar_of_isLetter hletter] at hname; exact hname h
    rcases wordKind_eq (c :: cs.takeWhile isWordChar) with hkind | hkind <;> simp only [running, hkind] <;>
      exact pointed_single (by simp) (by simpa using hhead) (by simp [MarksAccess]) (absurd · hmark)

theorem pointed_scan {s : Stage} {cs : List Char} (hs : s.Ends cs) : Pointed s (scan cs) := by
  fun_induction scan cs generalizing s with
  | case1 => trivial
  | case2 c rest ih =>
    have hfirst := pointed_first hs
    exact pointed_append.2 ⟨hfirst.lexemes, ih hfirst.rest⟩

/-! ## The account -/

/-- A string, whether it has a closing quote or not. -/
def IsString (l : Lexeme) : Prop :=
  ∃ value, l.role = .token .string value ∨ l.role = .openString value

/-- The lexemes account for every character of the source. -/
structure Accounts (source : List Char) (ls : List Lexeme) : Prop where
  text : ls.flatMap (·.text) = source
  within : ∀ p ∈ located [] ls, p.1 ++ p.2.text <+: source
  apart : (located [] ls).Pairwise fun p q => p.1.length + p.2.text.length ≤ q.1.length
  ne_nil : ∀ l ∈ ls, l.text ≠ []
  written : ∀ l ∈ ls, l.Written
  /-- What begins with a point is one exactly where an access goes on with it. -/
  point : ∀ before l after, ls = before ++ l :: after →
    (l.role = .point ↔ AfterAccess before ∧ l.text.head? = some '.')
  /-- Only the end of the source cuts a string off. -/
  last : ∀ before l after, ls = before ++ l :: after → l.IsOpen → after = []

theorem accounts_scan (source : List Char) : Accounts source (scan source) where
  text := flatMap_text_scan source
  within := by
    rintro ⟨before, l⟩ hl
    obtain ⟨as, bs, hscan, rfl⟩ := mem_located.1 hl
    refine ⟨bs.flatMap (·.text), ?_⟩
    conv_rhs => rw [← flatMap_text_scan source, hscan]
    simp
  apart := pairwise_located [] _
  ne_nil l hl := (written_of_mem_scan hl).ne_nil
  written l hl := written_of_mem_scan hl
  point before l after hscan := by
    have hpointed := pointed_scan (Stage.ends_outside source)
    rw [hscan, pointed_append] at hpointed
    rw [hpointed.2.1, Stage.after_ne_outside]
  last before l after hscan hopen := by
    have hpairwise := pairwise_scan source
    rw [hscan, List.pairwise_append, List.pairwise_cons] at hpairwise
    exact List.eq_nil_iff_forall_not_mem.2 fun m hm => hpairwise.2.1.1 m hm hopen

/-- A string is reported exactly when it goes up to the end without a closing quote. -/
theorem Accounts.unterminated_iff {source : List Char} {ls : List Lexeme} (h : Accounts source ls) (s : Span) :
    ⟨.unterminatedString, s⟩ ∈ ((located [] ls).filterMap fun (before, l) => l.diagnostic? (.behind before)) ↔
      ∃ before l, ls = before ++ [l] ∧ s = .behind (before.flatMap (·.text)) ∧ l.IsString ∧
        ∀ value, ¬Closed l.text value := by
  rw [List.mem_filterMap]
  constructor
  · rintro ⟨⟨before, l⟩, hl, hdiagnostic⟩
    obtain ⟨as, bs, hls, rfl⟩ := mem_located.1 hl
    obtain ⟨value, hrole, hs⟩ : ∃ value, l.role = .openString value ∧ .behind (as.flatMap (·.text)) = s := by
      simp only [diagnostic?] at hdiagnostic
      split at hdiagnostic <;> simp_all
    obtain rfl := h.last as l bs hls ⟨value, hrole⟩
    have hwritten := h.written l (by simp [hls])
    simp only [Written, hrole] at hwritten
    exact ⟨as, l, hls, hs.symm, ⟨value, .inr hrole⟩, hwritten.not_closed⟩
  · rintro ⟨before, l, hls, rfl, ⟨value, hrole | hrole⟩, hclosed⟩
    · have hwritten := h.written l (by simp [hls])
      simp only [Written, hrole] at hwritten
      exact absurd hwritten (hclosed value)
    · refine ⟨(before.flatMap (·.text), l), mem_located.2 ⟨before, [], hls, rfl⟩, ?_⟩
      simp [diagnostic?, hrole]

end Lexeme

/-- What is known of the slice of a token before the end mark, by its kind. -/
structure Token.Sliced (t : Token) : Prop where
  ne_eof : t.kind ≠ .eof
  run : t.kind = .identifier ∨ t.kind = .number → t.slice ≠ ""
  keyword : t.kind = .keyword → t.slice ∈ ["true", "false", "null"]
  symbol : t.kind = .symbol → ∃ c ∈ symbols, t.slice = String.ofList [c]

open Lexeme

theorem Lexeme.Written.sliced {l : Lexeme} (hl : l.Written) {s : Span} {t : Token} (ht : l.token? s = some t) :
    t.Sliced := by
  rcases (of_token?_eq_some ht).2 with hrole | ⟨hstring, -⟩
  · simp only [Written, hrole] at hl
    have hslice (value : List Char) (h : t.slice.toList = value) : t.slice = String.ofList value := by
      rw [← h, String.ofList_toList]
    constructor
    · intro hk
      rwa [hk] at hl
    · rintro (hk | hk) hempty <;> simp [hk, Spells, hempty] at hl
    · intro hk
      rw [hk] at hl
      have hmem : t.slice.toList ∈ ["true", "false", "null"].map String.toList := hl.2
      obtain ⟨word, hword, heq⟩ := List.mem_map.1 hmem
      rwa [← String.toList_inj.1 heq]
    · intro hk
      rw [hk] at hl
      obtain ⟨-, c, hc, h⟩ := hl
      exact ⟨c, hc, hslice _ h⟩
  · constructor <;> simp [hstring]

/-- The lexemes of a source account for it. Its tokens are those of the lexemes, each at the place of its
first character, and after them the one end mark, at the end of the source; and its diagnostics are those of
the lexemes. A string is reported exactly when it goes up to the end of the source without a closing quote. -/
theorem lex_accounts (source : String) :
    Accounts source.toList (scan source.toList) ∧
    (∃ tokens, (lex source).tokens = tokens ++ [⟨.eof, "", .behind source.toList⟩] ∧ (∀ t ∈ tokens, t.Sliced) ∧
      tokens = (located [] (scan source.toList)).filterMap fun (before, l) => l.token? (.behind before)) ∧
    ((lex source).diagnostics =
      (located [] (scan source.toList)).filterMap fun (before, l) => l.diagnostic? (.behind before)) ∧
    ∀ s, ⟨.unterminatedString, s⟩ ∈ (lex source).diagnostics ↔
      ∃ before l, scan source.toList = before ++ [l] ∧ s = .behind (before.flatMap (·.text)) ∧ l.IsString ∧
        ∀ value, ¬Closed l.text value := by
  have hplaced : placed .start (scan source.toList) =
      (located [] (scan source.toList)).map fun (before, l) => (l, .behind before) := placed_behind [] _
  have hdiagnostics : (lex source).diagnostics =
      (located [] (scan source.toList)).filterMap fun (before, l) => l.diagnostic? (.behind before) := by
    simp only [lex, hplaced, List.filterMap_map]
    rfl
  have haccounts := accounts_scan source.toList
  refine ⟨haccounts, ⟨_, ?_, ?_, rfl⟩, hdiagnostics, fun s => ?_⟩
  · simp only [lex, hplaced, List.filterMap_map, Span.start_after]
    rfl
  · intro t ht
    obtain ⟨⟨before, l⟩, hl, ht⟩ := List.mem_filterMap.1 ht
    obtain ⟨as, bs, hscan, -⟩ := mem_located.1 hl
    exact (haccounts.written l (by simp [hscan])).sliced ht
  · rw [hdiagnostics]
    exact haccounts.unterminated_iff s

end PipeScript
