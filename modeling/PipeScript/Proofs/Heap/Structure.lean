/-
The text of a list or dictionary tells its structure. The texts inside are told from each other by how they
begin, and each one from what follows it by how it ends: an integer goes on as long as there are digits, a
quoted text and a container have an end of their own. So a tree of null, booleans, integers and texts is the
only one with its text, and of two containers without cycles that hold such values the texts are equal just
if item for item and key for key the same is in them.
-/
import PipeScript.Proofs.Heap.Display
import PipeScript.Proofs.Text.Quoted

namespace PipeScript

/-- Neither a float nor a function. -/
def Value.IsData : Value → Prop
  | .float _ | .function _ => False
  | _ => True

namespace Heap

open Relation

/-! ## Texts one after the other -/

/-- What a value inside a container is followed by: a comma, or a bracket that closes. -/
def Ends (rest : List Char) : Prop :=
  ∀ c ∈ rest.head?, c ∈ [',', ']', '\x7d']

/-- The text of the thing tells it among the things of a sort, wherever its end can be. -/
def Told {α : Type} (text : α → List Char) (S : α → Prop) (a : α) : Prop :=
  ∀ ⦃b⦄, S b → ∀ ⦃rest rest'⦄, Ends rest → Ends rest' → text a ++ rest = text b ++ rest' → a = b ∧ rest = rest'

theorem ends_nil : Ends [] := by
  rintro _ ⟨⟩

theorem ends_cons {c : Char} {rest : List Char} (hc : c ∈ [',', ']', '\x7d']) : Ends (c :: rest) := by
  rintro _ ⟨⟩
  exact hc

theorem listed_cons (t : List Char) (ts : List (List Char)) :
    listed (t :: ts) = t ++ ts.flatMap ([',', ' '] ++ ·) := by
  induction ts generalizing t with
  | nil => simp [listed, List.intercalate]
  | cons u us ih =>
    calc listed (t :: u :: us) = t ++ ([',', ' '] ++ listed (u :: us)) := by
          simp [listed, List.intercalate]
      _ = t ++ (u :: us).flatMap ([',', ' '] ++ ·) := by rw [ih, List.flatMap_cons, List.append_assoc]

section

variable {α : Type} {text : α → List Char} {S : α → Prop} {as bs : List α} {close : Char} {rest rest' : List Char}

theorem ends_more (hclose : close ∈ [']', '\x7d']) (as : List α) (rest : List Char) :
    Ends ((as.map text).flatMap ([',', ' '] ++ ·) ++ close :: rest) := by
  cases as with
  | nil => exact ends_cons (List.mem_cons_of_mem _ hclose)
  | cons a as => exact ends_cons List.mem_cons_self

/-- Behind the first one the texts come with a comma before each, up to the bracket. -/
theorem more_append_inj (hclose : close ∈ [']', '\x7d']) (has : ∀ a ∈ as, Told text S a) (hbs : ∀ b ∈ bs, S b)
    (h : (as.map text).flatMap ([',', ' '] ++ ·) ++ close :: rest =
      (bs.map text).flatMap ([',', ' '] ++ ·) ++ close :: rest') : as = bs ∧ rest = rest' := by
  have hcomma : close ≠ ',' := by
    rintro rfl
    exact absurd hclose (by decide)
  induction as generalizing bs with
  | nil =>
    cases bs with
    | nil => exact ⟨rfl, (List.cons.inj h).2⟩
    | cons b bs => exact absurd (List.cons.inj h).1 hcomma
  | cons a as ih =>
    cases bs with
    | nil => exact absurd (List.cons.inj h).1.symm hcomma
    | cons b bs =>
      rw [List.forall_mem_cons] at has hbs
      have htexts : text a ++ ((as.map text).flatMap ([',', ' '] ++ ·) ++ close :: rest) =
          text b ++ ((bs.map text).flatMap ([',', ' '] ++ ·) ++ close :: rest') := by
        simpa using h
      obtain ⟨rfl, hmore⟩ := has.1 hbs.1 (ends_more hclose as rest) (ends_more hclose bs rest') htexts
      obtain ⟨rfl, hrest⟩ := ih has.2 hbs.2 hmore
      exact ⟨rfl, hrest⟩

/-- The texts between two brackets tell the things, if none begins like the bracket that closes. -/
theorem listed_append_inj (hclose : close ∈ [']', '\x7d']) (has : ∀ a ∈ as, Told text S a) (hbs : ∀ b ∈ bs, S b)
    (hfirst : ∀ a ∈ as ++ bs, ∀ rest rest', text a ++ rest ≠ close :: rest')
    (h : listed (as.map text) ++ close :: rest = listed (bs.map text) ++ close :: rest') :
    as = bs ∧ rest = rest' := by
  cases as with
  | nil =>
    cases bs with
    | nil => exact ⟨rfl, (List.cons.inj h).2⟩
    | cons b bs =>
      rw [List.map_cons, listed_cons, List.append_assoc] at h
      exact absurd h.symm (hfirst b (by simp) _ _)
  | cons a as =>
    cases bs with
    | nil =>
      rw [List.map_cons, listed_cons, List.append_assoc] at h
      exact absurd h (hfirst a (by simp) _ _)
    | cons b bs =>
      rw [List.forall_mem_cons] at has hbs
      simp only [List.map_cons, listed_cons, List.append_assoc] at h
      obtain ⟨rfl, hmore⟩ := has.1 hbs.1 (ends_more hclose as rest) (ends_more hclose bs rest') h
      obtain ⟨rfl, hrest⟩ := more_append_inj hclose has.2 hbs.2 hmore
      exact ⟨rfl, hrest⟩

end

variable {rest rest' : List Char}

/-! ## Integers -/

/-- The characters of integers. -/
def isSignOrDigit (c : Char) : Bool :=
  c == '-' || c.isDigit

theorem isSignOrDigit_of_mem_text {n : Int64} {c : Char} (hc : c ∈ Integer.text n) : isSignOrDigit c = true := by
  rw [Integer.text, List.mem_append] at hc
  rw [isSignOrDigit, Bool.or_eq_true, beq_iff_eq]
  rcases hc with hc | hc
  · split at hc
    · exact .inl (List.mem_singleton.1 hc)
    · cases hc
  · exact .inr (Text.isDigit_of_mem_digitsOf hc)

/-- No integer goes on with what ends a value. -/
theorem not_isSignOrDigit {c : Char} (hc : c ∈ [',', ']', '\x7d']) : isSignOrDigit c = false := by
  simp only [List.mem_cons, List.not_mem_nil, or_false] at hc
  rcases hc with rfl | rfl | rfl <;> rfl

theorem not_isSignOrDigit_of_ends (h : Ends rest) : ∀ c ∈ rest.head?, isSignOrDigit c = false :=
  fun c hc => not_isSignOrDigit (h c hc)

theorem integer_text_inj {n m : Int64} (h : Integer.text n = Integer.text m) : n = m := by
  have hdash (k : Nat) (cs : List Char) : '-' :: cs ≠ Text.digitsOf k := by
    intro he
    cases Text.isDigit_of_mem_digitsOf (he ▸ List.mem_cons_self)
  have hmagnitude {k l : Nat} (hkl : Text.digitsOf k = Text.digitsOf l) : k = l := by
    rw [← Text.ofDigits_digitsOf k, hkl, Text.ofDigits_digitsOf]
  refine Int64.toInt_inj.1 ?_
  unfold Integer.text at h
  split at h <;> split at h
  · have := hmagnitude (List.cons.inj h).2
    omega
  · exact absurd h (hdash _ _)
  · exact absurd h.symm (hdash _ _)
  · have := hmagnitude h
    omega

/-! ## Trees -/

namespace Tree

/-- Only null, booleans, integers and texts are at its leaves. -/
inductive OfData : Tree → Prop
  | leaf {v : Value} : v.IsData → v.container? = none → OfData (.leaf v)
  | list {ts : List Tree} : (∀ t ∈ ts, OfData t) → OfData (.list ts)
  | dict {es : List (String × Tree)} : (∀ e ∈ es, OfData e.2) → OfData (.dict es)

/-- The type of the value that the tree is of. -/
def kind : Tree → Kind
  | .leaf v => v.kind
  | .list _ => .list
  | .dict _ => .dict

/-- The text of a key and the tree behind it. -/
def entryText (e : String × Tree) : List Char :=
  Text.quotedBy '"' e.1.toList ++ [':', ' '] ++ e.2.text true

theorem itemTexts_eq_map (ts : List Tree) : itemTexts ts = ts.map (text true) := by
  induction ts with
  | nil => rfl
  | cons t ts ih => rw [itemTexts, ih, List.map_cons]

theorem entryTexts_eq_map (es : List (String × Tree)) : entryTexts es = es.map entryText := by
  induction es with
  | nil => rfl
  | cons e es ih => rw [entryTexts, ih, List.map_cons, entryText]

/-- The type whose texts begin with a character. -/
def kindFrom (c : Char) : Kind :=
  if c = 'n' then .null else if c = 't' ∨ c = 'f' then .bool else if c = '"' then .str
  else if c = '[' then .list else if c = '\x7b' then .dict else .int

theorem kindFrom_of_isSignOrDigit {c : Char} (hc : isSignOrDigit c = true) : kindFrom c = .int := by
  unfold kindFrom
  split_ifs with hn ht hq hl hd
  · subst hn
    cases hc
  · rcases ht with rfl | rfl <;> cases hc
  · subst hq
    cases hc
  · subst hl
    cases hc
  · subst hd
    cases hc
  · rfl

variable {t s : Tree}

/-- How the text begins tells the type. -/
theorem OfData.exists_text_eq (ht : t.OfData) :
    ∃ c cs, t.text true = c :: cs ∧ kindFrom c = t.kind ∧ c ∉ [']', '\x7d'] := by
  cases ht with
  | @leaf v hv hc =>
    cases v with
    | null => exact ⟨_, _, rfl, rfl, by decide⟩
    | bool b => cases b <;> exact ⟨_, _, rfl, rfl, by decide⟩
    | int n =>
      obtain ⟨c, cs, hcs⟩ : ∃ c cs, Integer.text n = c :: cs := by
        refine List.exists_cons_of_ne_nil fun he => ?_
        exact Text.digitsOf_ne_nil _ (List.append_eq_nil_iff.1 he).2
      have hsort : isSignOrDigit c = true := isSignOrDigit_of_mem_text (hcs ▸ List.mem_cons_self)
      refine ⟨c, cs, hcs, kindFrom_of_isSignOrDigit hsort, fun hmem => ?_⟩
      rw [not_isSignOrDigit (List.mem_cons_of_mem _ hmem)] at hsort
      cases hsort
    | str s => exact ⟨_, _, rfl, rfl, by decide⟩
    | float | function => cases hv
    | list | dict => cases hc
  | list => exact ⟨_, _, rfl, rfl, by decide⟩
  | dict => exact ⟨_, _, rfl, rfl, by decide⟩

theorem OfData.text_append_ne (ht : t.OfData) {close : Char} (hclose : close ∈ [']', '\x7d'])
    (rest rest' : List Char) : t.text true ++ rest ≠ close :: rest' := by
  obtain ⟨c, cs, hcs, -, hc⟩ := ht.exists_text_eq
  rw [hcs]
  intro he
  exact hc ((List.cons.inj he).1 ▸ hclose)

theorem OfData.kind_eq (ht : t.OfData) (hs : s.OfData) (h : t.text true ++ rest = s.text true ++ rest') :
    t.kind = s.kind := by
  obtain ⟨c, cs, hcs, hc, -⟩ := ht.exists_text_eq
  obtain ⟨d, ds, hds, hd, -⟩ := hs.exists_text_eq
  rw [hcs, hds] at h
  rw [← hc, ← hd, (List.cons.inj h).1]

theorem quoted_append_inj {k l : String}
    (h : Text.quotedBy '"' k.toList ++ rest = Text.quotedBy '"' l.toList ++ rest') : k = l ∧ rest = rest' := by
  obtain ⟨hkl, hrest⟩ := Text.quotedBy_append_inj (by decide) h
  exact ⟨String.toList_inj.1 hkl, hrest⟩

theorem leaf_append_inj {v w : Value} (hv : v.IsData) (hc : v.container? = none) (hkind : v.kind = w.kind)
    (hrest : Ends rest) (hrest' : Ends rest')
    (h : nested leafText v ++ rest = nested leafText w ++ rest') : v = w ∧ rest = rest' := by
  cases v with
  | null =>
    cases w <;> cases hkind
    exact ⟨rfl, List.append_cancel_left h⟩
  | bool b =>
    cases w <;> cases hkind
    next b' =>
    cases b <;> cases b' <;> first | exact ⟨rfl, List.append_cancel_left h⟩ | cases (List.cons.inj h).1
  | int n =>
    cases w <;> cases hkind
    next m =>
    obtain ⟨htext, hrest⟩ := Text.run_append_inj (fun _ => isSignOrDigit_of_mem_text)
      (fun _ => isSignOrDigit_of_mem_text) (not_isSignOrDigit_of_ends hrest) (not_isSignOrDigit_of_ends hrest') h
    exact ⟨congrArg _ (integer_text_inj htext), hrest⟩
  | str k =>
    cases w <;> cases hkind
    next l =>
    obtain ⟨rfl, hrest⟩ := quoted_append_inj h
    exact ⟨rfl, hrest⟩
  | float | function => cases hv
  | list | dict => cases hc

theorem told_entryText {e : String × Tree} (he : Told (text true) OfData e.2) :
    Told entryText (fun e => e.2.OfData) e := by
  intro e' he' rest rest' hrest hrest' h
  obtain ⟨key, t⟩ := e
  obtain ⟨key', t'⟩ := e'
  simp only [entryText, List.append_assoc] at h
  obtain ⟨rfl, hvalue⟩ := quoted_append_inj h
  obtain ⟨rfl, hend⟩ := he he' hrest hrest' (List.append_cancel_left hvalue)
  exact ⟨rfl, hend⟩

/-- The text of a tree tells the tree, and where it ends. -/
theorem OfData.told (ht : t.OfData) : Told (text true) OfData t := by
  induction ht with
  | @leaf v hv hc =>
    intro s hs rest rest' hrest hrest' h
    have hkind := (OfData.leaf hv hc).kind_eq hs h
    cases hs with
    | leaf hw hd =>
      obtain ⟨rfl, hend⟩ := leaf_append_inj hv hc hkind hrest hrest' h
      exact ⟨rfl, hend⟩
    | list | dict =>
      cases v <;> cases hkind
      cases hc
  | @list ts hts ih =>
    intro s hs rest rest' hrest hrest' h
    have hkind := (OfData.list hts).kind_eq hs h
    cases hs with
    | @leaf w _ hd =>
      cases w <;> cases hkind
      cases hd
    | @list ss hss =>
      have hitems : listed (ts.map (text true)) ++ ']' :: rest = listed (ss.map (text true)) ++ ']' :: rest' := by
        simpa [text, itemTexts_eq_map] using h
      have hfirst : ∀ t ∈ ts ++ ss, ∀ rest rest', t.text true ++ rest ≠ ']' :: rest' := fun t ht =>
        ((List.mem_append.1 ht).elim (hts t) (hss t)).text_append_ne (by decide)
      obtain ⟨rfl, hend⟩ := listed_append_inj (by decide) ih hss hfirst hitems
      exact ⟨rfl, hend⟩
    | dict => cases hkind
  | @dict es hes ih =>
    intro s hs rest rest' hrest hrest' h
    have hkind := (OfData.dict hes).kind_eq hs h
    cases hs with
    | @leaf w _ hd =>
      cases w <;> cases hkind
      cases hd
    | list => cases hkind
    | @dict fs hfs =>
      have hentries : listed (es.map entryText) ++ '\x7d' :: rest = listed (fs.map entryText) ++ '\x7d' :: rest' := by
        simpa [text, entryTexts_eq_map] using h
      -- an entry begins with the quote mark of its key
      have hfirst : ∀ e ∈ es ++ fs, ∀ rest rest', entryText e ++ rest ≠ '\x7d' :: rest' := fun e _ rest rest' he =>
        absurd (List.cons.inj he).1 (by decide)
      obtain ⟨rfl, hend⟩ :=
        listed_append_inj (by decide) (fun e he => told_entryText (ih e he)) hfs hfirst hentries
      exact ⟨rfl, hend⟩

end Tree

/-! ## Structures -/

/-- Neither the value nor what lies in it at any depth is a float or a function. -/
def Data (h : Heap) (v : Value) : Prop :=
  ∀ w, ReflTransGen h.Inside w v → w.IsData

/-- The same is in the two values: they are the same leaf, or lists with the same in them item by item, or
dictionaries with the same keys and the same behind each of them. -/
inductive SameStructure (h h' : Heap) : Value → Value → Prop
  | leaf {v : Value} : v.container? = none → SameStructure h h' v v
  | list {r s : ListRef} : List.Forall₂ (SameStructure h h') (h.items r) (h'.items s) →
      SameStructure h h' (.list r) (.list s)
  | dict {r s : DictRef} : (h.entries r).keys = (h'.entries s).keys →
      List.Forall₂ (SameStructure h h') (h.entries r).values (h'.entries s).values →
      SameStructure h h' (.dict r) (.dict s)

variable {h h' : Heap} {v w : Value} {t : Tree}

theorem Data.inside (hv : h.Data v) (hw : h.Inside w v) : h.Data w := fun x hx => hv x (hx.tail hw)

theorem exists_mem_of_forall₂ {α β : Type} {R : α → β → Prop} {xs : List α} {ys : List β}
    (hxy : List.Forall₂ R xs ys) {y : β} (hy : y ∈ ys) : ∃ x ∈ xs, R x y := by
  induction hxy with
  | nil => cases hy
  | cons hhead _ ih =>
    rcases List.mem_cons.1 hy with rfl | hy
    · exact ⟨_, List.mem_cons_self, hhead⟩
    · obtain ⟨x, hx, hR⟩ := ih hy
      exact ⟨x, List.mem_cons_of_mem _ hx, hR⟩

theorem Unfolds.ofData (hv : h.Acyclic v) (ht : h.Unfolds v t) (hdata : h.Data v) : t.OfData := by
  induction acyclic_iff_acc.1 hv generalizing t with
  | intro v _ ih =>
  cases ht with
  | leaf hleaf => exact .leaf (hdata v .refl) hleaf
  | @list r ts hts =>
    refine .list fun t ht => ?_
    obtain ⟨w, hw, hwt⟩ := exists_mem_of_forall₂ hts ht
    have hwv : h.Inside w (.list r) := ⟨.list r, rfl, hw⟩
    exact ih w hwv (fun u hu => hv u (hu.tail hwv)) hwt (hdata.inside hwv)
  | @dict r es _ hes =>
    refine .dict fun e he => ?_
    obtain ⟨w, hw, hwt⟩ := exists_mem_of_forall₂ hes (List.mem_map_of_mem he)
    have hwv : h.Inside w (.dict r) := ⟨.dict r, rfl, hw⟩
    exact ih w hwv (fun u hu => hv u (hu.tail hwv)) hwt (hdata.inside hwv)

/-- Where each item has a tree, the items of the other list have the same trees just if they are related to them. -/
theorem forall₂_iff_of_forall₂ {α β γ : Type} {R : α → β → Prop} {P : α → γ → Prop} {Q : β → γ → Prop}
    {xs : List α} {ys : List β} {ts : List γ} (hxs : List.Forall₂ P xs ts)
    (hPQ : ∀ x ∈ xs, ∀ y t, P x t → (R x y ↔ Q y t)) : List.Forall₂ R xs ys ↔ List.Forall₂ Q ys ts := by
  induction hxs generalizing ys with
  | nil => cases ys <;> simp
  | @cons x t xs ts hxt _ ih =>
    cases ys with
    | nil => simp
    | cons y ys =>
      rw [List.forall₂_cons, List.forall₂_cons, hPQ x List.mem_cons_self y t hxt,
        ih fun x hx => hPQ x (List.mem_cons_of_mem _ hx)]

/-- The same is in what unfolds to the same tree, and nowhere else. -/
theorem sameStructure_iff_unfolds (hv : h.Acyclic v) (ht : h.Unfolds v t) :
    SameStructure h h' v w ↔ h'.Unfolds w t := by
  induction acyclic_iff_acc.1 hv generalizing t w with
  | intro v _ ih =>
  have hinside (c : Container) (hc : v = c.value) (u : Value) (hu : u ∈ h.contents c) (w : Value) (t : Tree)
      (hut : h.Unfolds u t) : SameStructure h h' u w ↔ h'.Unfolds w t := by
    have huv : h.Inside u v := ⟨c, hc, hu⟩
    exact ih u huv (fun x hx => hv x (hx.tail huv)) hut
  cases ht with
  | leaf hleaf =>
    constructor
    · rintro (hleaf | _ | _)
      · exact .leaf hleaf
      · cases hleaf
      · cases hleaf
    · rintro ⟨⟩
      exact .leaf hleaf
  | @list r ts hts =>
    have hitems {s : ListRef} : List.Forall₂ (SameStructure h h') (h.items r) (h'.items s) ↔
        List.Forall₂ h'.Unfolds (h'.items s) ts := forall₂_iff_of_forall₂ hts (hinside (.list r) rfl)
    constructor
    · rintro (hleaf | hsame | _)
      · cases hleaf
      · exact .list (hitems.1 hsame)
    · intro hw
      cases hw with
      | list hts' => exact .list (hitems.2 hts')
  | @dict r es hkeys hes =>
    have hvalues {s : DictRef} : List.Forall₂ (SameStructure h h') (h.entries r).values (h'.entries s).values ↔
        List.Forall₂ h'.Unfolds (h'.entries s).values (es.map (·.2)) :=
      forall₂_iff_of_forall₂ hes (hinside (.dict r) rfl)
    constructor
    · rintro (hleaf | _ | ⟨hsame, hall⟩)
      · cases hleaf
      · exact .dict (hsame ▸ hkeys) (hvalues.1 hall)
    · intro hw
      cases hw with
      | dict hkeys' hes' => exact .dict (hkeys.trans hkeys'.symm) (hvalues.2 hes')

theorem Unfolds.display_eq {c : Container} (hc : h.Acyclic c.value) (ht : h.Unfolds c.value t) :
    h.display c.value = t.text true := by
  have htext := (ht.text_eq hc (List.forall_mem_nil _)).2
  rwa [nested_container] at htext

/-- Two lists or dictionaries without cycles, with null, booleans, integers and texts as their leaves, have the
same text exactly if the same is in them. -/
theorem display_eq_iff {c d : Container} (hc : h.Acyclic c.value) (hd : h'.Acyclic d.value)
    (hcdata : h.Data c.value) (hddata : h'.Data d.value) :
    h.display c.value = h'.display d.value ↔ SameStructure h h' c.value d.value := by
  obtain ⟨t, ht⟩ := hc.exists_unfolds
  obtain ⟨s, hs⟩ := hd.exists_unfolds
  rw [sameStructure_iff_unfolds hc ht, ht.display_eq hc]
  constructor
  · intro htext
    rw [hs.display_eq hd] at htext
    have hrests : t.text true ++ [] = s.text true ++ [] := by rw [htext]
    obtain ⟨rfl, -⟩ := (ht.ofData hc hcdata).told (hs.ofData hd hddata) ends_nil ends_nil hrests
    exact hs
  · intro hsame
    exact (hsame.display_eq hd).symm

/-- A list of one text that looks like the inside of a list of two, that list, and a copy of it. -/
def lookAlike : Heap where
  lists := #[[.str "a\", \"b"], [.str "a", .str "b"], [.str "a", .str "b"]]

/-- The text that looks like a list is told from the list, and the copy is not. -/
theorem display_lookAlike :
    (∀ i < 3, lookAlike.Acyclic (.list ⟨i⟩) ∧ lookAlike.Data (.list ⟨i⟩)) ∧
    lookAlike.display (.list ⟨0⟩) ≠ lookAlike.display (.list ⟨1⟩) ∧
    lookAlike.display (.list ⟨1⟩) = lookAlike.display (.list ⟨2⟩) := by
  have hitems (i : Nat) : ∀ v ∈ lookAlike.items ⟨i⟩, ∃ s, v = .str s :=
    forall_mem_items (by simp [lookAlike]) ⟨i⟩
  have hflat (i : Nat) (v : Value) (hv : lookAlike.Inside v (.list ⟨i⟩)) : ∃ s, v = .str s :=
    hitems i v (inside_list_iff.1 hv)
  have hleaf (s : String) (v : Value) : ¬lookAlike.Inside v (.str s) := by
    rintro ⟨_ | _, hc, _⟩ <;> cases hc
  have hacyclic (i : Nat) : lookAlike.Acyclic (Container.list ⟨i⟩).value := by
    refine acyclic_iff_acc.2 ⟨_, fun v hv => ?_⟩
    obtain ⟨s, rfl⟩ := hflat i v hv
    exact ⟨_, fun w hw => absurd hw (hleaf s w)⟩
  have hdata (i : Nat) : lookAlike.Data (Container.list ⟨i⟩).value := by
    intro v hv
    rcases ReflTransGen.cases_tail hv with rfl | ⟨w, hvw, hw⟩
    · trivial
    · obtain ⟨s, rfl⟩ := hflat i w hw
      rcases ReflTransGen.cases_tail hvw with rfl | ⟨u, _, hu⟩
      · trivial
      · exact absurd hu (hleaf s u)
  refine ⟨fun i _ => ⟨hacyclic i, hdata i⟩, fun htext => ?_, ?_⟩
  · have hsame : SameStructure lookAlike lookAlike (.list ⟨0⟩) (.list ⟨1⟩) :=
      (display_eq_iff (hacyclic 0) (hacyclic 1) (hdata 0) (hdata 1)).1 htext
    cases hsame with
    | list hitems => exact absurd hitems.length_eq (by decide)
  · have hsame : SameStructure lookAlike lookAlike (.list ⟨1⟩) (.list ⟨2⟩) :=
      .list (.cons (.leaf rfl) (.cons (.leaf rfl) .nil))
    exact (display_eq_iff (hacyclic 1) (hacyclic 2) (hdata 1) (hdata 2)).2 hsame

end Heap

end PipeScript
