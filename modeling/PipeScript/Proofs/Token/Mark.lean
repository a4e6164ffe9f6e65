/-
Marks of variables and the words after them. The word that directly follows a mark is a name, since
the mark takes with it only what names consist of. A word on its own may hold dashes, and it comes
after a mark only where something stands between the two.
-/
import Mathlib.Data.List.Chain
import PipeScript.Proofs.Token.Line

namespace PipeScript

/-- The place after some text is another one, unless the text is empty. -/
theorem Span.after_eq_self {s : Span} {cs : List Char} (h : s.after cs = s) : cs = [] := by
  have hline := congrArg Span.line h
  rw [line_after] at hline
  have hnone : '\n' ∉ cs := List.count_eq_zero.1 (by omega)
  have hcolumn : (s.after cs).column = s.column + cs.length := by
    clear h hline
    induction cs generalizing s with
    | nil => rfl
    | cons c cs ih =>
      rw [List.mem_cons, not_or] at hnone
      rw [after_cons, ih hnone.2, next, if_neg (Ne.symm hnone.1), List.length_cons]
      exact Nat.add_right_comm ..
  rw [h] at hcolumn
  exact List.eq_nil_of_length_eq_zero (by omega)

namespace Lexeme

/-! ## A mark and the word directly after it -/

/-- The lexeme is the mark of a variable. -/
def OpensName (l : Lexeme) : Prop :=
  ∃ kind slice, l.role = .token kind slice ∧ (kind = .variable ∨ kind = .assign)

/-- If the first lexeme is the mark of a variable and the second one a word, the word is a name. -/
def NameAfter (m l : Lexeme) : Prop :=
  m.OpensName → ∀ word, l.role = .token .identifier word → ∀ c ∈ word, isNameChar c = true

/-- The lexemes that a rule finds hold a name after each mark of a variable, and a mark at their end is
followed by nothing that a name consists of. -/
structure Found.TakesName (f : Found) : Prop where
  chain : f.lexemes.IsChain NameAfter
  last : ∀ m ∈ f.lexemes.getLast?, m.OpensName → ∀ c ∈ f.rest.head?, isNameChar c = false

theorem Found.TakesName.of_not_opensName {f : Found} (h : ∀ m ∈ f.lexemes, ¬m.OpensName) : f.TakesName where
  chain := List.isChain_iff_forall_rel_of_append_cons_cons.2 fun m _ _ _ heq hopens =>
    absurd hopens (h m (heq ▸ List.mem_append_right _ List.mem_cons_self))
  last m hm hopens := absurd hopens (h m (List.mem_of_getLast? hm))

theorem not_opensName {l : Lexeme} (h : ∀ kind slice, l.role = .token kind slice → kind ≠ .variable ∧ kind ≠ .assign) :
    ¬l.OpensName := by
  rintro ⟨kind, slice, hrole, hkind⟩
  exact absurd hkind (not_or.2 (h kind slice hrole))

theorem not_opensName_of_mem_ofRun {kind : TokenKind} (hkind : kind ≠ .variable ∧ kind ≠ .assign) {run : List Char}
    {l : Lexeme} (hl : l ∈ ofRun kind run) : ¬l.OpensName := by
  obtain ⟨-, rfl⟩ := mem_ofRun hl
  exact not_opensName fun kind' slice h => by cases h; exact hkind

theorem isNameChar_rest_name (cs : List Char) : ∀ d ∈ (name cs).rest.head?, isNameChar d = false := by
  intro d hd
  have hnot := List.head?_dropWhile_not isNameChar cs
  rwa [show (cs.dropWhile isNameChar).head? = some d from hd] at hnot

theorem takesName_marked (c : Char) (kind : TokenKind) (cs : List Char) : (marked c kind cs).TakesName where
  chain := by
    simp only [marked, name, ofRun]
    split
    · exact .singleton _
    · rw [List.isChain_pair]
      rintro - word ⟨⟩ d hd
      exact List.mem_takeWhile_imp hd
  last _ _ _ := isNameChar_rest_name cs

theorem takesName_access {mark : Char} {kind : TokenKind} {index : List Char → Found}
    (hkind : kind ≠ .variable ∧ kind ≠ .assign) (hindex : ∀ cs, ∀ l ∈ (index cs).lexemes, ¬l.OpensName)
    (cs : List Char) : (access mark kind index cs).TakesName := by
  have hname (cs : List Char) : ∀ l ∈ (name cs).lexemes, ¬l.OpensName :=
    fun l hl => not_opensName_of_mem_ofRun (by decide) hl
  have hfirst : ¬OpensName ⟨[mark], .token kind []⟩ := not_opensName fun kind' _ h => by cases h; exact hkind
  exact .of_not_opensName (forall_mem_access hfirst (not_opensName (by simp)) hname hindex cs)

theorem takesName_of_lexemes {f : Found} {l : Lexeme} (hf : f.lexemes = [l])
    (h : ∀ kind slice, l.role = .token kind slice → kind ≠ .variable ∧ kind ≠ .assign) : f.TakesName :=
  .of_not_opensName fun m hm => by
    rw [hf, List.mem_singleton] at hm
    exact hm ▸ not_opensName h

theorem takesName_first (c : Char) (cs : List Char) : (first c cs).TakesName := by
  revert cs
  apply first_cases (motive := fun f => ∀ cs, (f cs).TakesName)
  case blank | stray => intros; exact takesName_of_lexemes rfl (by simp)
  case pipe | number | symbol =>
    intro _ cs
    refine takesName_of_lexemes rfl ?_
    rintro kind slice ⟨⟩
    decide
  case mark => exact fun kind _ cs => takesName_marked c kind cs
  case access =>
    rintro kind index (⟨-, rfl, rfl⟩ | ⟨-, rfl, rfl⟩)
    · exact takesName_access (by decide) fun cs l hl => not_opensName_of_mem_ofRun (by decide) hl
    · exact takesName_access (by decide) fun cs l hl => not_opensName_of_mem_ofRun (by decide) hl
  case string =>
    intro _ cs
    refine takesName_of_lexemes rfl ?_
    intro kind slice h
    simp only at h
    split at h <;> cases h
    decide
  case word =>
    intro _ cs
    refine takesName_of_lexemes rfl ?_
    rintro kind slice ⟨⟩
    rcases wordKind_eq (c :: cs.takeWhile isWordChar) with hkind | hkind <;> rw [hkind] <;> decide

/-- Only a letter begins a word. -/
theorem isLetter_of_head_scan {cs : List Char} {l : Lexeme} (hl : l ∈ (scan cs).head?) {word : List Char}
    (hrole : l.role = .token .identifier word) : ∃ c ∈ cs.head?, Text.isLetter c = true := by
  cases cs with
  | nil => simp [scan_nil] at hl
  | cons c rest =>
    refine ⟨c, rfl, ?_⟩
    rw [scan_cons] at hl
    generalize scan (first c rest).rest = others at hl
    revert rest
    apply first_cases (motive := fun f => ∀ cs, l ∈ ((f cs).lexemes ++ others).head? → Text.isLetter c = true)
    case word => exact fun hletter _ _ => hletter
    case access =>
      intro kind index hkind cs hl
      have hl : l = ⟨[c], .token kind []⟩ := by
        unfold access at hl
        simp only at hl
        split at hl <;> exact (Option.some.inj hl).symm
      subst hl
      cases hrole
      simp at hkind
    case mark =>
      rintro kind hkind cs ⟨⟩
      cases hrole
      simp at hkind
    case string =>
      rintro - cs ⟨⟩
      simp only at hrole
      split at hrole <;> cases hrole
    case blank | pipe | symbol | number | stray =>
      rintro - cs ⟨⟩
      cases hrole

theorem scan_isChain (cs : List Char) : (scan cs).IsChain NameAfter := by
  fun_induction scan cs with
  | case1 => exact .nil
  | case2 c rest ih =>
    have hfirst := takesName_first c rest
    refine List.isChain_append.2 ⟨hfirst.chain, ih, fun m hm l hl hopens word hrole => ?_⟩
    obtain ⟨d, hd, hletter⟩ := isLetter_of_head_scan hl hrole
    have hname := isNameChar_of_isLetter hletter
    rw [hfirst.last m hm hopens d hd] at hname
    cases hname

/-! ## A mark and the word that is the next token -/

theorem exists_lexemes_of_adjacent {ls : List Lexeme} {s : Span} {before after : List Token} {u t : Token}
    (h : tokensAt s ls = before ++ u :: t :: after) : ∃ as m bs l cs, ls = as ++ m :: (bs ++ l :: cs) ∧
      m.token? (s.after (as.flatMap (·.text))) = some u ∧
      l.token? (s.after ((as ++ m :: bs).flatMap (·.text))) = some t := by
  obtain ⟨as, m, rest, rfl, hm, hrest⟩ := exists_lexeme_of_tokensAt h
  rw [← List.nil_append (t :: after)] at hrest
  obtain ⟨bs, l, cs, rfl, hl, -⟩ := exists_lexeme_of_tokensAt hrest
  refine ⟨as, m, bs, l, cs, rfl, hm, ?_⟩
  rwa [← Span.after_append, ← List.flatMap_append, List.append_assoc] at hl

theorem role_of_token? {l : Lexeme} {s : Span} {t : Token} (h : l.token? s = some t) (ht : t.kind ≠ .string) :
    l.role = .token t.kind t.slice.toList :=
  (of_token?_eq_some h).2.resolve_right fun hstring => ht hstring.1

/-- A word consists of what words consist of, and one that stands directly after the mark of a variable
of what names consist of. -/
theorem chars_of_word {source : List Char} {before after : List Token} {mark t : Token}
    (h : tokensAt .start (scan source) = before ++ mark :: t :: after)
    (hmark : mark.kind = .variable ∨ mark.kind = .assign) (ht : t.kind = .identifier) :
    (∀ d ∈ t.slice.toList, isWordChar d = true) ∧
      (t.span = mark.span.next '!' → ∀ d ∈ t.slice.toList, isNameChar d = true) := by
  obtain ⟨as, m, bs, l, cs, hscan, hm, hl⟩ := exists_lexemes_of_adjacent h
  have hm_mem : m ∈ scan source := by simp [hscan]
  have hl_mem : l ∈ scan source := by simp [hscan]
  have hm_role := role_of_token? hm (by rcases hmark with hk | hk <;> simp [hk])
  have hl_role : l.role = .token .identifier t.slice.toList := ht ▸ role_of_token? hl (by simp [ht])
  have hopens : m.OpensName := ⟨_, _, hm_role, hmark⟩
  refine ⟨((written_of_mem_scan hl_mem).spells hl_role).2.2, fun hspan => ?_⟩
  -- the word begins where the mark ends, so there is no text between the two and no lexeme either
  have hnext : mark.span.after m.text = mark.span.next '!' := by
    have hwritten := (written_of_mem_scan hm_mem).spells hm_role
    rcases hmark with hk | hk <;> rw [hk] at hwritten <;> rw [hwritten.1] <;> rfl
  have hplace : (mark.span.next '!').after (bs.flatMap (·.text)) = mark.span.next '!' := by
    calc (mark.span.next '!').after (bs.flatMap (·.text))
        = mark.span.after (m.text ++ bs.flatMap (·.text)) := by rw [← hnext, Span.after_append]
      _ = t.span := by
        rw [(of_token?_eq_some hl).1, (of_token?_eq_some hm).1, ← Span.after_append]
        simp
      _ = mark.span.next '!' := hspan
  obtain rfl : bs = [] := by
    refine List.eq_nil_iff_forall_not_mem.2 fun b hb => ?_
    have hb_mem : b ∈ scan source := by simp [hscan, hb]
    exact (written_of_mem_scan hb_mem).ne_nil (List.flatMap_eq_nil_iff.1 (Span.after_eq_self hplace) b hb)
  have hchain := scan_isChain source
  rw [hscan, List.nil_append, List.isChain_append_cons_cons] at hchain
  exact hchain.2.1 hopens _ hl_role

end Lexeme

end PipeScript
