/-
Heaps that are the same but for which container is which. A renaming says which containers of the one heap
stand for which of the other; it need not say so of all. Where the contents of containers that stand for one
another are the same but for the containers in them, nothing that is seen of values depends on which
containers these are: truth, texts, equality and order are the same in both heaps. What is done to both
heaps alike leaves them alike, with new containers standing for new ones. In the first heap no container
that stands for none is touched on the way.
-/
import PipeScript.Proofs.Builtin.Frame
import PipeScript.Proofs.Heap.Display
import PipeScript.Proofs.Heap.Equality
import PipeScript.Proofs.Heap.Level

namespace PipeScript

open List (Forall₂)

/-- Which containers of the one heap stand for which of the other. Each stands for one at most. -/
structure Renaming where
  maps : Container → Container → Prop
  inj : ∀ {c c' d d'}, maps c c' → maps d d' → (c = d ↔ c' = d')

namespace Renaming

theorem biUnique (ρ : Renaming) : Relator.BiUnique ρ.maps :=
  ⟨fun _ _ _ hc hd => (ρ.inj hc hd).2 rfl, fun _ _ _ hc hd => (ρ.inj hc hd).1 rfl⟩

/-- The values are the same, or containers that stand for one another. -/
inductive Like (ρ : Renaming) : Value → Value → Prop
  | null : Like ρ .null .null
  | bool (b : Bool) : Like ρ (.bool b) (.bool b)
  | int (n : Int64) : Like ρ (.int n) (.int n)
  | float (x : Float) : Like ρ (.float x) (.float x)
  | str (s : String) : Like ρ (.str s) (.str s)
  | function (f : Callable) : Like ρ (.function f) (.function f)
  | list {r s : ListRef} : ρ.maps (.list r) (.list s) → Like ρ (.list r) (.list s)
  | dict {r s : DictRef} : ρ.maps (.dict r) (.dict s) → Like ρ (.dict r) (.dict s)

/-- More containers stand for others. -/
instance : LE Renaming where
  le ρ ρ' := ∀ c d, ρ.maps c d → ρ'.maps c d

instance : Preorder Renaming where
  le_refl _ _ _ := id
  le_trans _ _ _ h h' c d hcd := h' c d (h c d hcd)

variable {ρ ρ' : Renaming} {v w : Value} {c d : Container}

theorem Like.mono (h : ρ ≤ ρ') (hv : ρ.Like v w) : ρ'.Like v w := by
  cases hv with
  | list hr => exact .list (h _ _ hr)
  | dict hr => exact .dict (h _ _ hr)
  | _ => constructor

theorem Like.of_isLeaf (hv : v.IsLeaf) : ρ.Like v v := by
  cases v with
  | list _ | dict _ | function _ => exact hv.elim
  | _ => constructor

theorem Like.kind_eq (hv : ρ.Like v w) : v.kind = w.kind := by
  cases hv <;> rfl

/-- Two more containers stand for one another. -/
def extended (ρ : Renaming) (c d : Container) (hc : ∀ d, ¬ρ.maps c d) (hd : ∀ c, ¬ρ.maps c d) : Renaming where
  maps a b := ρ.maps a b ∨ a = c ∧ b = d
  inj := by
    rintro a a' b b' (ha | ⟨rfl, rfl⟩) (hb | ⟨rfl, rfl⟩)
    · exact ρ.inj ha hb
    · exact ⟨fun he => (hc _ (he ▸ ha)).elim, fun he => (hd _ (he ▸ ha)).elim⟩
    · exact ⟨fun he => (hc _ (he ▸ hb)).elim, fun he => (hd _ (he ▸ hb)).elim⟩
    · exact ⟨fun _ => rfl, fun _ => rfl⟩

/-- The entries have the same keys, with values that are the same but for the containers. -/
def LikeEntries (ρ : Renaming) (t u : Table Value) : Prop :=
  ∀ key, Option.Rel ρ.Like (t.get? key) (u.get? key)

theorem LikeEntries.forall₂ {t u : Table Value} (h : ρ.LikeEntries t u) :
    Forall₂ (fun a b => a.1 = b.1 ∧ ρ.Like a.2 b.2) t.entries u.entries :=
  Table.forall₂_entries_iff.2 h

theorem rel_mono (h : ρ ≤ ρ') {a b : Option Value} (hab : Option.Rel ρ.Like a b) : Option.Rel ρ'.Like a b := by
  cases hab with
  | none => exact .none
  | some hv => exact .some (hv.mono h)

/-- Where there is no value on either side, null stands on both. -/
theorem getD_like {a b : Option Value} (hab : Option.Rel ρ.Like a b) : ρ.Like (a.getD .null) (b.getD .null) := by
  cases hab with
  | none => exact .null
  | some hv => exact hv

theorem LikeEntries.mono (h : ρ ≤ ρ') {t u : Table Value} (htu : ρ.LikeEntries t u) : ρ'.LikeEntries t u :=
  fun key => rel_mono h (htu key)

theorem likes_mono (h : ρ ≤ ρ') {vs ws : List Value} (hvs : Forall₂ ρ.Like vs ws) : Forall₂ ρ'.Like vs ws :=
  hvs.imp fun _ _ hv => hv.mono h

theorem LikeEntries.insert {t u : Table Value} (h : ρ.LikeEntries t u) (key : String) (hv : ρ.Like v w) :
    ρ.LikeEntries (t.insert key v) (u.insert key w) := by
  intro k
  rw [Table.get?_insert, Table.get?_insert]
  split
  · exact .some hv
  · exact h k

end Renaming

namespace Heap

/-! ## Heaps that are alike -/

/-- Both heaps have the containers that stand for one another, with contents that are alike. -/
structure Alike (ρ : Renaming) (h h' : Heap) : Prop where
  has : ∀ {c d}, ρ.maps c d → h.Has c ∧ h'.Has d
  items : ∀ {r s}, ρ.maps (.list r) (.list s) → Forall₂ ρ.Like (h.items r) (h'.items s)
  entries : ∀ {r s}, ρ.maps (.dict r) (.dict s) → ρ.LikeEntries (h.entries r) (h'.entries s)

/-- The container has the same contents in both heaps. -/
def SameAt (h h' : Heap) : Container → Prop
  | .list r => h'.items r = h.items r
  | .dict r => h'.entries r = h.entries r

/-- Two heaps that are alike become two that are alike. New containers may come to stand for one another. In
the first heap, what stood for nothing is as it was. -/
structure Moves (ρ : Renaming) (h h' : Heap) (ρ₁ : Renaming) (h₁ h₁' : Heap) : Prop where
  le : ρ ≤ ρ₁
  alike : Alike ρ₁ h₁ h₁'
  fresh : ∀ {c d}, ρ₁.maps c d → ρ.maps c d ∨ ¬h.Has c ∧ ¬h'.Has d
  has : ∀ c, h.Has c → h₁.Has c
  has' : ∀ c, h'.Has c → h₁'.Has c
  same : ∀ c, h.Has c → (∀ d, ¬ρ.maps c d) → SameAt h h₁ c

variable {ρ ρ₁ ρ₂ : Renaming} {h h' h₁ h₁' h₂ h₂' : Heap} {v w : Value} {vs ws : List Value}

theorem sameAt_refl (h : Heap) (c : Container) : SameAt h h c := by
  cases c <;> rfl

theorem Alike.moves_refl (hh : Alike ρ h h') : Moves ρ h h' ρ h h' where
  le := le_refl ρ
  alike := hh
  fresh := .inl
  has _ := id
  has' _ := id
  same c _ _ := sameAt_refl h c

theorem Moves.trans (hm : Moves ρ h h' ρ₁ h₁ h₁') (hm' : Moves ρ₁ h₁ h₁' ρ₂ h₂ h₂') : Moves ρ h h' ρ₂ h₂ h₂' where
  le := le_trans hm.le hm'.le
  alike := hm'.alike
  fresh hcd := by
    rcases hm'.fresh hcd with hcd | ⟨hc, hd⟩
    · exact hm.fresh hcd
    · exact .inr ⟨fun h => hc (hm.has _ h), fun h => hd (hm.has' _ h)⟩
  has c hc := hm'.has c (hm.has c hc)
  has' c hc := hm'.has' c (hm.has' c hc)
  same c hc hout := by
    have hout' : ∀ d, ¬ρ₁.maps c d := fun d hcd => (hm.fresh hcd).elim (hout d) fun h => h.1 hc
    have hfirst := hm.same c hc hout
    have hsecond := hm'.same c (hm.has c hc) hout'
    cases c <;> exact Eq.trans hsecond hfirst

/-- What happens to the other containers of the first heap is no matter. -/
theorem Alike.of_same (hh : Alike ρ h h') (hhas : ∀ c, h.Has c → h₁.Has c)
    (hsame : ∀ c d, ρ.maps c d → SameAt h h₁ c) : Alike ρ h₁ h' where
  has hcd := ⟨hhas _ (hh.has hcd).1, (hh.has hcd).2⟩
  items {r s} hrs := by
    have hitems : h₁.items r = h.items r := hsame _ _ hrs
    rw [hitems]
    exact hh.items hrs
  entries {r s} hrs := by
    have hentries : h₁.entries r = h.entries r := hsame _ _ hrs
    rw [hentries]
    exact hh.entries hrs

/-! ## What is done to both heaps -/

theorem Alike.not_maps_of_not_has (hh : Alike ρ h h') {c : Container} (hc : ¬h.Has c) (d : Container) : ¬ρ.maps c d :=
  fun hcd => hc (hh.has hcd).1

theorem Alike.not_maps_of_not_has' (hh : Alike ρ h h') {d : Container} (hd : ¬h'.Has d) (c : Container) :
    ¬ρ.maps c d :=
  fun hcd => hd (hh.has hcd).2

/-- The heap gets the container, and all others are as they were. -/
structure Adds (h : Heap) (c : Container) (h₁ : Heap) : Prop where
  new : ¬h.Has c
  has : ∀ {a}, h₁.Has a ↔ h.Has a ∨ a = c
  same : ∀ a, a ≠ c → SameAt h h₁ a

theorem newList_adds (h : Heap) (xs : List Value) : Adds h (.list (h.newList xs).1) (h.newList xs).2 where
  new := by simp [Has, newList]
  has := has_newList
  same a ha := by
    cases a with
    | list r =>
      have hr : r ≠ (h.newList xs).1 := fun he => ha (congrArg _ he)
      show (h.newList xs).2.items r = _
      rw [items_newList, if_neg hr]
    | dict r => rfl

theorem entries_newDict (h : Heap) (t : Table Value) (r : DictRef) :
    (h.newDict t).2.entries r = if r = (h.newDict t).1 then t else h.entries r := by
  rcases r with ⟨i⟩
  simp only [entries, newDict, DictRef.mk.injEq, Array.getD_eq_getD_getElem?, Array.getElem?_push]
  split <;> rfl

theorem newDict_adds (h : Heap) (t : Table Value) : Adds h (.dict (h.newDict t).1) (h.newDict t).2 where
  new := by simp [Has, newDict]
  has {a} := by
    cases a with
    | list r => simp [Has, newDict]
    | dict r =>
      rcases r with ⟨i⟩
      simp only [Has, newDict, Array.size_push, Container.dict.injEq, DictRef.mk.injEq]
      omega
  same a ha := by
    cases a with
    | list r => rfl
    | dict r =>
      have hr : r ≠ (h.newDict t).1 := fun he => ha (congrArg _ he)
      show (h.newDict t).2.entries r = _
      rw [entries_newDict, if_neg hr]

/-- New containers with contents that are alike stand for one another. -/
theorem Alike.added (hh : Alike ρ h h') {c d : Container} (hc : Adds h c h₁) (hd : Adds h' d h₁')
    (hitems : ∀ r s, c = .list r → d = .list s → Forall₂ ρ.Like (h₁.items r) (h₁'.items s))
    (hentries : ∀ r s, c = .dict r → d = .dict s → ρ.LikeEntries (h₁.entries r) (h₁'.entries s)) :
    ∃ ρ₁, Moves ρ h h' ρ₁ h₁ h₁' ∧ ρ₁.maps c d := by
  have hout := hh.not_maps_of_not_has hc.new
  have hout' := hh.not_maps_of_not_has' hd.new
  have hle : ρ ≤ ρ.extended _ _ hout hout' := fun _ _ => .inl
  have hsame {a b : Container} (hab : ρ.maps a b) : SameAt h h₁ a ∧ SameAt h' h₁' b :=
    ⟨hc.same a fun he => hout _ (he ▸ hab), hd.same b fun he => hout' _ (he ▸ hab)⟩
  refine ⟨ρ.extended _ _ hout hout', ⟨hle, ⟨?_, ?_, ?_⟩, ?_, ?_, ?_, ?_⟩, .inr ⟨rfl, rfl⟩⟩
  · rintro a b (hab | ⟨rfl, rfl⟩)
    · exact ⟨hc.has.2 (.inl (hh.has hab).1), hd.has.2 (.inl (hh.has hab).2)⟩
    · exact ⟨hc.has.2 (.inr rfl), hd.has.2 (.inr rfl)⟩
  · rintro r s (hrs | ⟨hr, hs⟩)
    · have hitems : h₁.items r = h.items r := (hsame hrs).1
      have hitems' : h₁'.items s = h'.items s := (hsame hrs).2
      rw [hitems, hitems']
      exact Renaming.likes_mono hle (hh.items hrs)
    · exact Renaming.likes_mono hle (hitems r s hr.symm hs.symm)
  · rintro r s (hrs | ⟨hr, hs⟩)
    · have hentries : h₁.entries r = h.entries r := (hsame hrs).1
      have hentries' : h₁'.entries s = h'.entries s := (hsame hrs).2
      rw [hentries, hentries']
      exact (hh.entries hrs).mono hle
    · exact (hentries r s hr.symm hs.symm).mono hle
  · rintro a b (hab | ⟨rfl, rfl⟩)
    · exact .inl hab
    · exact .inr ⟨hc.new, hd.new⟩
  · exact fun a ha => hc.has.2 (.inl ha)
  · exact fun a ha => hd.has.2 (.inl ha)
  · exact fun a ha _ => hc.same a fun he => hc.new (he ▸ ha)

/-- Two new lists with items that are alike stand for one another. -/
theorem Alike.newList (hh : Alike ρ h h') (hvs : Forall₂ ρ.Like vs ws) : ∃ ρ₁,
    Moves ρ h h' ρ₁ (h.newList vs).2 (h'.newList ws).2 ∧
      ρ₁.maps (.list (h.newList vs).1) (.list (h'.newList ws).1) := by
  refine hh.added (newList_adds h vs) (newList_adds h' ws) (fun r s hr hs => ?_) nofun
  cases hr
  cases hs
  rw [items_newList, items_newList, if_pos rfl, if_pos rfl]
  exact hvs

/-- Two new dictionaries with entries that are alike stand for one another. -/
theorem Alike.newDict (hh : Alike ρ h h') {t u : Table Value} (htu : ρ.LikeEntries t u) : ∃ ρ₁,
    Moves ρ h h' ρ₁ (h.newDict t).2 (h'.newDict u).2 ∧
      ρ₁.maps (.dict (h.newDict t).1) (.dict (h'.newDict u).1) := by
  refine hh.added (newDict_adds h t) (newDict_adds h' u) nofun fun r s hr hs => ?_
  cases hr
  cases hs
  rw [entries_newDict, entries_newDict, if_pos rfl, if_pos rfl]
  exact htu

/-- Lists that stand for one another take items that are alike. -/
theorem Alike.setItems (hh : Alike ρ h h') {r s : ListRef} (hrs : ρ.maps (.list r) (.list s))
    (hvs : Forall₂ ρ.Like vs ws) : Moves ρ h h' ρ (h.setItems r vs) (h'.setItems s ws) where
  le := le_refl ρ
  alike := {
    has := fun hcd => ⟨has_setItems.2 (hh.has hcd).1, has_setItems.2 (hh.has hcd).2⟩
    items := by
      intro a b hab
      have heq : r = a ↔ s = b := by simpa using ρ.inj hrs hab
      rw [items_setItems (hh.has hab).1, items_setItems (hh.has hab).2]
      by_cases hr : r = a
      · rw [if_pos hr, if_pos (heq.1 hr)]
        exact hvs
      · rw [if_neg hr, if_neg fun hs => hr (heq.2 hs)]
        exact hh.items hab
    entries := hh.entries }
  fresh := .inl
  has _ := has_setItems.2
  has' _ := has_setItems.2
  same c hc hout := by
    cases c with
    | list a =>
      have hne : r ≠ a := fun he => hout _ (he ▸ hrs)
      show (h.setItems r vs).items a = _
      rw [items_setItems hc, if_neg hne]
    | dict a => rfl

/-- Dictionaries that stand for one another take entries that are alike. -/
theorem Alike.setEntries (hh : Alike ρ h h') {r s : DictRef} (hrs : ρ.maps (.dict r) (.dict s)) {t u : Table Value}
    (htu : ρ.LikeEntries t u) : Moves ρ h h' ρ (h.setEntries r t) (h'.setEntries s u) where
  le := le_refl ρ
  alike := {
    has := fun hcd => ⟨has_setEntries.2 (hh.has hcd).1, has_setEntries.2 (hh.has hcd).2⟩
    items := hh.items
    entries := by
      intro a b hab
      have heq : r = a ↔ s = b := by simpa using ρ.inj hrs hab
      rw [entries_setEntries (hh.has hab).1, entries_setEntries (hh.has hab).2]
      by_cases hr : r = a
      · rw [if_pos hr, if_pos (heq.1 hr)]
        exact htu
      · rw [if_neg hr, if_neg fun hs => hr (heq.2 hs)]
        exact hh.entries hab }
  fresh := .inl
  has _ := has_setEntries.2
  has' _ := has_setEntries.2
  same c hc hout := by
    cases c with
    | list a => rfl
    | dict a =>
      have hne : r ≠ a := fun he => hout _ (he ▸ hrs)
      show (h.setEntries r t).entries a = _
      rw [entries_setEntries hc, if_neg hne]

/-! ## What is seen of values -/

theorem isEmpty_eq_of_forall₂ {α β : Type} {R : α → β → Prop} {xs : List α} {ys : List β} (hxs : Forall₂ R xs ys) :
    xs.isEmpty = ys.isEmpty := by
  cases hxs <;> rfl

theorem Alike.truthy_eq (hh : Alike ρ h h') (hv : ρ.Like v w) : h.truthy v = h'.truthy w := by
  cases hv with
  | list hrs => exact congrArg (!·) (isEmpty_eq_of_forall₂ (hh.items hrs))
  | dict hrs => exact congrArg (!·) (isEmpty_eq_of_forall₂ (hh.entries hrs).forall₂)
  | _ => rfl

/-- Functions that agree on what is related agree on rows of what is related. -/
theorem map_eq_of_forall₂ {α β γ : Type} {R : α → β → Prop} {f : α → γ} {g : β → γ} {xs : List α} {ys : List β}
    (hxs : Forall₂ R xs ys) (hfg : ∀ x y, R x y → f x = g y) : xs.map f = ys.map g := by
  rw [← List.forall₂_eq_eq_eq]
  exact List.rel_map hfg hxs

theorem nested_eq {text text' : Value → List Char} (hv : ρ.Like v w) (htext : text v = text' w) :
    nested text v = nested text' w := by
  cases hv <;> first | rfl | exact htext

/-- Inside of containers that stand for one another the texts are the same. -/
theorem Alike.textIn_eq (hh : Alike ρ h h') {opened opened' : List Container}
    (hopened : Forall₂ ρ.maps opened opened') (hv : ρ.Like v w) : h.textIn opened v = h'.textIn opened' w := by
  -- on the containers that are left to be entered
  induction hn : unmet h.containers opened using Nat.strong_induction_on generalizing opened opened' v w with
  | _ n ih =>
    cases hv with
    | @list r s hrs =>
      have hmem := List.rel_mem ρ.biUnique hrs hopened
      by_cases hr : .list r ∈ opened
      · exact (textIn_of_mem hr).trans (textIn_of_mem (hmem.1 hr)).symm
      · have hlt := unmet_cons_lt (mem_containers.2 (hh.has hrs).1) hr
        have hitems : (h.items r).map (nested (h.textIn (.list r :: opened))) =
            (h'.items s).map (nested (h'.textIn (.list s :: opened'))) :=
          map_eq_of_forall₂ (hh.items hrs) fun x y hxy => nested_eq hxy (ih _ (hn ▸ hlt) (.cons hrs hopened) hxy rfl)
        rw [textIn_list hr, textIn_list (mt hmem.2 hr), hitems]
    | @dict r s hrs =>
      have hmem := List.rel_mem ρ.biUnique hrs hopened
      by_cases hr : .dict r ∈ opened
      · exact (textIn_of_mem hr).trans (textIn_of_mem (hmem.1 hr)).symm
      · have hlt := unmet_cons_lt (mem_containers.2 (hh.has hrs).1) hr
        have hentries : (h.entries r).entries.map (entryText (h.textIn (.dict r :: opened))) =
            (h'.entries s).entries.map (entryText (h'.textIn (.dict s :: opened'))) := by
          refine map_eq_of_forall₂ (hh.entries hrs).forall₂ fun a b ⟨hkey, hab⟩ => ?_
          rw [entryText, entryText, hkey, nested_eq hab (ih _ (hn ▸ hlt) (.cons hrs hopened) hab rfl)]
        rw [textIn_dict hr, textIn_dict (mt hmem.2 hr), hentries]
    | _ => rw [textIn_leaf rfl, textIn_leaf rfl]

theorem Alike.display_eq (hh : Alike ρ h h') (hv : ρ.Like v w) : h.display v = h'.display w :=
  hh.textIn_eq .nil hv

theorem Alike.text_eq (hh : Alike ρ h h') (hv : ρ.Like v w) : h.text v = h'.text w :=
  congrArg String.ofList (hh.display_eq hv)

/-! ## What is seen of two values -/

/-- The pairs of containers stand for one another. -/
def LikePair (ρ : Renaming) (p q : Container × Container) : Prop :=
  ρ.maps p.1 q.1 ∧ ρ.maps p.2 q.2

theorem likePair_biUnique : Relator.BiUnique (LikePair ρ) :=
  ⟨fun _ _ _ hp hq => Prod.ext ((ρ.inj hp.1 hq.1).2 rfl) ((ρ.inj hp.2 hq.2).2 rfl),
    fun _ _ _ hp hq => Prod.ext ((ρ.inj hp.1 hq.1).1 rfl) ((ρ.inj hp.2 hq.2).1 rfl)⟩

variable {a a' b b' : Value} {path path' : List (Container × Container)} {xs xs' ys ys' : List Value}

theorem itemsEq_eq {f g : Value → Value → Bool} (hfg : ∀ a a' b b', ρ.Like a a' → ρ.Like b b' → f a b = g a' b')
    (hxs : Forall₂ ρ.Like xs xs') (hys : Forall₂ ρ.Like ys ys') : itemsEq f xs ys = itemsEq g xs' ys' := by
  unfold itemsEq
  induction hxs generalizing ys ys' with
  | nil => cases hys <;> rfl
  | cons hx _ ih =>
    cases hys with
    | nil => rfl
    | cons hy hys => rw [List.isEqv_cons_cons, List.isEqv_cons_cons, hfg _ _ _ _ hx hy, ih hys]

theorem entriesEq_eq {f g : Value → Value → Bool} (hfg : ∀ a a' b b', ρ.Like a a' → ρ.Like b b' → f a b = g a' b')
    {es es' fs fs' : List (String × Value)} (hes : Forall₂ (fun a b => a.1 = b.1 ∧ ρ.Like a.2 b.2) es es')
    (hfs : Forall₂ (fun a b => a.1 = b.1 ∧ ρ.Like a.2 b.2) fs fs') : entriesEq f es fs = entriesEq g es' fs' := by
  unfold entriesEq
  induction hes generalizing fs fs' with
  | nil => cases hfs <;> rfl
  | cons he _ ih =>
    cases hfs with
    | nil => rfl
    | cons hf hfs =>
      rw [List.isEqv_cons_cons, List.isEqv_cons_cons, hfg _ _ _ _ he.2 hf.2, he.1, hf.1, ih hfs]

theorem leafEq_eq (ha : ρ.Like a a') (hb : ρ.Like b b') : leafEq a b = leafEq a' b' := by
  cases ha <;> cases hb <;> rfl

theorem eqOn_leaf (hp : eqPair? a b = none) : h.eqOn path a b = leafEq a b := by
  cases a <;> cases b <;> first | exact absurd hp (Option.some_ne_none _) | rw [eqOn] <;> simp

theorem met_iff (hpath : Forall₂ (LikePair ρ) path path') {c c' d d' : Container} (hc : ρ.maps c c')
    (hd : ρ.maps d d') : c = d ∨ (c, d) ∈ path ↔ c' = d' ∨ (c', d') ∈ path' := by
  have hmem : (c, d) ∈ path ↔ (c', d') ∈ path' := List.rel_mem likePair_biUnique ⟨hc, hd⟩ hpath
  rw [ρ.inj hc hd, hmem]

/-- Inside of pairs that stand for one another equality is the same. -/
theorem Alike.eqOn_eq (hh : Alike ρ h h') (hpath : Forall₂ (LikePair ρ) path path') (ha : ρ.Like a a')
    (hb : ρ.Like b b') : h.eqOn path a b = h'.eqOn path' a' b' := by
  -- on the pairs that are left to be entered
  induction hn : unmet h.pairs path using Nat.strong_induction_on generalizing path path' a a' b b' with
  | _ n ih =>
    have hleaf (hp : eqPair? a b = none) (hp' : eqPair? a' b' = none) : h.eqOn path a b = h'.eqOn path' a' b' := by
      rw [eqOn_leaf hp, eqOn_leaf hp']
      exact leafEq_eq ha hb
    cases ha with
    | @list r r' hr =>
      cases hb with
      | @list s s' hs =>
        have hmet := met_iff hpath hr hs
        rw [Container.list.injEq, Container.list.injEq] at hmet
        by_cases hm : r = s ∨ (.list r, .list s) ∈ path
        · rw [eqOn, if_pos hm, eqOn, if_pos (hmet.1 hm)]
        · obtain ⟨hne, hmem⟩ := not_or.1 hm
          obtain ⟨hne', hmem'⟩ := not_or.1 (mt hmet.2 hm)
          have hlt := unmet_cons_lt (mem_pairs.2 ⟨(hh.has hr).1, (hh.has hs).1⟩) hmem
          rw [eqOn_list hne hmem, eqOn_list hne' hmem']
          refine itemsEq_eq (fun x x' y y' hx hy => ?_) (hh.items hr) (hh.items hs)
          exact ih _ (hn ▸ hlt) (.cons ⟨hr, hs⟩ hpath) hx hy rfl
      | _ => exact hleaf rfl rfl
    | @dict r r' hr =>
      cases hb with
      | @dict s s' hs =>
        have hmet := met_iff hpath hr hs
        rw [Container.dict.injEq, Container.dict.injEq] at hmet
        by_cases hm : r = s ∨ (.dict r, .dict s) ∈ path
        · rw [eqOn, if_pos hm, eqOn, if_pos (hmet.1 hm)]
        · obtain ⟨hne, hmem⟩ := not_or.1 hm
          obtain ⟨hne', hmem'⟩ := not_or.1 (mt hmet.2 hm)
          have hlt := unmet_cons_lt (mem_pairs.2 ⟨(hh.has hr).1, (hh.has hs).1⟩) hmem
          rw [eqOn_dict hne hmem, eqOn_dict hne' hmem']
          refine entriesEq_eq (fun x x' y y' hx hy => ?_) (hh.entries hr).forall₂ (hh.entries hs).forall₂
          exact ih _ (hn ▸ hlt) (.cons ⟨hr, hs⟩ hpath) hx hy rfl
      | _ => exact hleaf rfl rfl
    | _ => cases hb <;> exact hleaf rfl rfl

theorem Alike.eq_eq (hh : Alike ρ h h') (ha : ρ.Like a a') (hb : ρ.Like b b') : h.eq a b = h'.eq a' b' :=
  hh.eqOn_eq .nil ha hb

theorem itemsOrder_eq {f g : Value → Value → Option Ordering} (hxs : Forall₂ ρ.Like xs xs')
    (hys : Forall₂ ρ.Like ys ys')
    (hfg : ∀ x ∈ xs, ∀ y ∈ ys, ∀ x' y', ρ.Like x x' → ρ.Like y y' → f x y = g x' y') :
    itemsOrder f xs ys = itemsOrder g xs' ys' := by
  induction hxs generalizing ys ys' with
  | nil => cases hys <;> rfl
  | cons hx _ ih =>
    cases hys with
    | nil => rfl
    | cons hy hys =>
      rw [itemsOrder, itemsOrder, hfg _ List.mem_cons_self _ List.mem_cons_self _ _ hx hy, ih hys]
      exact fun x hx y hy => hfg x (List.mem_cons_of_mem _ hx) y (List.mem_cons_of_mem _ hy)

theorem leafOrder_eq (ha : ρ.Like a a') (hb : ρ.Like b b') : leafOrder a b = leafOrder a' b' := by
  cases ha <;> cases hb <;> rfl

/-- Inside of pairs that stand for one another the order is the same. -/
theorem Alike.orderOn_eq (hh : Alike ρ h h') (hpath : Forall₂ (LikePair ρ) path path') (ha : ρ.Like a a')
    (hb : ρ.Like b b') : h.orderOn path a b = h'.orderOn path' a' b' := by
  induction path, a, b using orderOn_induction (h := h) generalizing path' a' b' with
  | leaf path a b hl =>
    have hl' : ∀ r s, a' = .list r → b' = .list s → False := by
      rintro r s rfl rfl
      cases ha with
      | list _ =>
        cases hb with
        | list _ => exact hl _ _ rfl rfl
    rw [orderOn_leaf hl, orderOn_leaf hl']
    exact leafOrder_eq ha hb
  | met path r s hm =>
    cases ha with
    | list hr =>
      cases hb with
      | list hs =>
        have hmet := met_iff hpath hr hs
        rw [Container.list.injEq, Container.list.injEq] at hmet
        rw [orderOn_list_of_met hm, orderOn_list_of_met (hmet.1 hm)]
  | items path r s hne hmem ih =>
    cases ha with
    | list hr =>
      cases hb with
      | list hs =>
        have hmet := met_iff hpath hr hs
        rw [Container.list.injEq, Container.list.injEq] at hmet
        obtain ⟨hne', hmem'⟩ := not_or.1 (mt hmet.2 (not_or.2 ⟨hne, hmem⟩))
        rw [orderOn_list hne hmem, orderOn_list hne' hmem']
        refine itemsOrder_eq (hh.items hr) (hh.items hs) fun x hx y hy x' y' hxx' hyy' => ?_
        exact ih x hx y hy (.cons ⟨hr, hs⟩ hpath) hxx' hyy'

theorem Alike.order_eq (hh : Alike ρ h h') (ha : ρ.Like a a') (hb : ρ.Like b b') : h.order a b = h'.order a' b' :=
  hh.orderOn_eq .nil ha hb

end Heap

end PipeScript
