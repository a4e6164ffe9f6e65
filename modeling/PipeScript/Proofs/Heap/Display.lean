/-
What the text of a value shows. A value unfolds to a tree, which has no end where a container lies inside
itself. A place in that tree says, from the outside on, which of the values inside to go into. The text is
written place by place. Where the container at a place is one of those that enclose the place there are
dots, and only there, so that no more than finitely many places are written. A value without cycles has a
finite tree, and its text is that of the tree: a list that is met twice, but not inside itself, is written
twice.
-/
import PipeScript.Heap.Display
import PipeScript.Heap.Equality
import PipeScript.Proofs.Heap.Nesting
import PipeScript.Proofs.Number.Integer

namespace PipeScript

/-- The container that a value refers to. -/
def Value.container? : Value → Option Container
  | .list r => some (.list r)
  | .dict r => some (.dict r)
  | _ => none

theorem Value.container?_eq_some_iff {v : Value} {c : Container} : v.container? = some c ↔ v = c.value := by
  cases v <;> cases c <;> simp [container?, Container.value]

namespace Heap

/-! ## Places -/

/-- The values directly inside a value, in order. -/
def inner (h : Heap) (v : Value) : List Value :=
  (v.container?.map h.contents).getD []

/-- The value at a place of what a value unfolds to. -/
def at? (h : Heap) : Value → List Nat → Option Value
  | v, [] => some v
  | v, i :: p => (h.inner v)[i]?.bind fun w => h.at? w p

/-- The containers that enclose a place, the innermost first. -/
def enclosing (h : Heap) (v : Value) (p : List Nat) : List Container :=
  (List.range p.length).reverse.filterMap fun k => (h.at? v (p.take k)).bind Value.container?

/-- The place is there, and is inside of no container that encloses its own place. -/
def Shows (h : Heap) (v : Value) (p : List Nat) : Prop :=
  (h.at? v p).isSome ∧
    ∀ k < p.length, ∀ c : Container, h.at? v (p.take k) = some c.value → c ∉ h.enclosing v (p.take k)

variable {h : Heap} {v w : Value} {p : List Nat} {c : Container} {i : Nat}

theorem inner_value (c : Container) : h.inner c.value = h.contents c := by
  cases c <;> rfl

theorem exists_of_mem_inner (hw : (h.inner v)[i]? = some w) : ∃ c : Container, v = c.value := by
  cases hc : v.container? with
  | none => simp [inner, hc] at hw
  | some c => exact ⟨c, Value.container?_eq_some_iff.1 hc⟩

theorem at?_append (v : Value) (p q : List Nat) : h.at? v (p ++ q) = (h.at? v p).bind (h.at? · q) := by
  induction p generalizing v with
  | nil => rfl
  | cons i p ih =>
    simp only [List.cons_append, at?, Option.bind_assoc]
    exact congrArg _ (funext ih)

theorem at?_append_singleton (hp : h.at? v p = some w) (i : Nat) : h.at? v (p ++ [i]) = (h.inner w)[i]? := by
  simp [at?_append, hp, at?]

/-- One step further inwards, the container there encloses the place, too. -/
theorem enclosing_append_singleton (hp : h.at? v p = some c.value) (i : Nat) :
    h.enclosing v (p ++ [i]) = c :: h.enclosing v p := by
  have hc : c.value.container? = some c := Value.container?_eq_some_iff.2 rfl
  have htake : ∀ k ∈ (List.range p.length).reverse, (p ++ [i]).take k = p.take k := by
    intro k hk
    have hlt : k < p.length := List.mem_range.1 (List.mem_reverse.1 hk)
    exact List.take_append_of_le_length (Nat.le_of_lt hlt)
  simp only [enclosing, List.length_append, List.length_singleton, List.range_succ, List.reverse_append,
    List.reverse_singleton, List.singleton_append, List.filterMap_cons, List.take_left', hp, Option.bind_some, hc]
  exact congrArg _ (List.filterMap_congr fun k hk => by rw [htake k hk])

theorem shows_nil (h : Heap) (v : Value) : h.Shows v [] := ⟨rfl, nofun⟩

/-- A place one step further inwards is shown if the container there is written item by item. -/
theorem shows_append_singleton : h.Shows v (p ++ [i]) ↔
    h.Shows v p ∧ ∃ c : Container, h.at? v p = some c.value ∧ c ∉ h.enclosing v p ∧
      ∃ w, (h.contents c)[i]? = some w := by
  have htake : ∀ k ≤ p.length, (p ++ [i]).take k = p.take k := fun k hk => List.take_append_of_le_length hk
  constructor
  · rintro ⟨hthere, hout⟩
    obtain ⟨w, hw⟩ := Option.isSome_iff_exists.1 hthere
    rw [at?_append] at hw
    obtain ⟨u, hu, hw⟩ := Option.bind_eq_some_iff.1 hw
    have hin : (h.inner u)[i]? = some w := by simpa [at?] using hw
    obtain ⟨c, rfl⟩ := exists_of_mem_inner hin
    refine ⟨⟨by simp [hu], fun k hk d hd => ?_⟩, c, hu, ?_, w, by rwa [inner_value] at hin⟩
    · have := hout k (by simp; omega) d
      rw [htake k (by omega)] at this
      exact this hd
    · have := hout p.length (by simp) c
      rw [htake _ le_rfl, List.take_length] at this
      exact this hu
  · rintro ⟨⟨-, hout⟩, c, hc, hnot, w, hw⟩
    refine ⟨?_, fun k hk d hd => ?_⟩
    · rw [at?_append_singleton hc, inner_value, hw]
      rfl
    · have hle : k ≤ p.length := by simpa [Nat.lt_succ_iff] using hk
      rw [htake k hle] at hd ⊢
      obtain hlt | rfl := Nat.lt_or_eq_of_le hle
      · exact hout k hlt d hd
      · rw [List.take_length] at hd ⊢
        obtain rfl : c = d := by
          have := Option.some.inj (hc.symm.trans hd)
          cases c <;> cases d <;> cases this <;> rfl
        exact hnot

theorem Shows.of_append {q : List Nat} (hpq : h.Shows v (p ++ q)) : h.Shows v p := by
  induction q using List.reverseRecOn with
  | nil => simpa using hpq
  | append_singleton q i ih =>
    rw [← List.append_assoc] at hpq
    exact ih (shows_append_singleton.1 hpq).1

/-- Going into a container that was not open leaves less to go into. -/
theorem unmet_enclosing_lt (hp : h.at? v p = some c.value) (hc : c ∉ h.enclosing v p)
    (hw : (h.contents c)[i]? = some w) :
    unmet h.containers (h.enclosing v (p ++ [i])) < unmet h.containers (h.enclosing v p) := by
  rw [enclosing_append_singleton hp]
  exact unmet_cons_lt (mem_containers.2 (has_of_mem_contents (List.mem_of_getElem? hw))) hc

/-- Induction over the places shown, from the innermost ones outwards: on the containers that do not yet
enclose the place. -/
theorem shows_induction {P : List Nat → Prop}
    (step : ∀ p, h.Shows v p → (∀ i, h.Shows v (p ++ [i]) → P (p ++ [i])) → P p) (hp : h.Shows v p) : P p := by
  induction hn : unmet h.containers (h.enclosing v p) using Nat.strong_induction_on generalizing p with
  | _ n ih =>
    refine step p hp fun i hi => ?_
    obtain ⟨-, c, hc, hnot, w, hw⟩ := shows_append_singleton.1 hi
    exact ih _ (hn ▸ unmet_enclosing_lt hc hnot hw) hi rfl

/-- Only so many places are shown. -/
theorem finite_shows (h : Heap) (v : Value) : {p | h.Shows v p}.Finite := by
  have hbelow : {q | h.Shows v ([] ++ q)}.Finite := by
    refine shows_induction (P := fun p => {q | h.Shows v (p ++ q)}.Finite) (fun p hp ih => ?_) (shows_nil h v)
    -- beyond the place itself one goes into one of the values inside it
    have hinner : {q | h.Shows v (p ++ q)} ⊆ {[]} ∪ ⋃ i ∈ {i | h.Shows v (p ++ [i])},
        (i :: ·) '' {q | h.Shows v (p ++ [i] ++ q)} := by
      rintro (_ | ⟨i, q⟩) hq
      · exact .inl rfl
      · have hq' : h.Shows v (p ++ [i] ++ q) := by simpa using hq
        exact .inr (Set.mem_biUnion hq'.of_append ⟨q, hq', rfl⟩)
    have hindices : {i | h.Shows v (p ++ [i])}.Finite := by
      obtain ⟨u, hu⟩ := Option.isSome_iff_exists.1 hp.1
      refine (Set.finite_lt_nat (h.inner u).length).subset fun i hi => ?_
      obtain ⟨w, hw⟩ := Option.isSome_iff_exists.1 hi.1
      rw [at?_append_singleton hu] at hw
      exact (List.getElem?_eq_some_iff.1 hw).1
    exact ((Set.finite_singleton _).union (hindices.biUnion fun i hi => (ih i hi).image _)).subset hinner
  simpa using hbelow

/-! ## What is written -/

/-- What stands for a container inside itself. -/
def dots : Container → List Char
  | .list _ => "[...]".toList
  | .dict _ => "\x7b...\x7d".toList

/-- The texts at all places shown. A text value is quoted, unless it stands alone. A container that encloses
its own place is dots, and every other one has the texts of the values inside between its brackets. -/
structure Writing (h : Heap) (v : Value) (text : List Nat → List Char) : Prop where
  leaf : ∀ p w, h.Shows v p → h.at? v p = some w → w.container? = none →
    text p = if p = [] then leafText w else nested leafText w
  again : ∀ p c, h.Shows v p → h.at? v p = some c.value → c ∈ h.enclosing v p → text p = dots c
  list : ∀ p r, h.Shows v p → h.at? v p = some (.list r) → .list r ∉ h.enclosing v p →
    text p = '[' :: listed ((h.items r).mapIdx fun i _ => text (p ++ [i])) ++ [']']
  dict : ∀ p r, h.Shows v p → h.at? v p = some (.dict r) → .dict r ∉ h.enclosing v p →
    text p = '\x7b' :: listed ((h.entries r).entries.mapIdx fun i e =>
      Text.quotedBy '"' e.1.toList ++ [':', ' '] ++ text (p ++ [i])) ++ ['\x7d']

/-- A dictionary that is not open yet is written entry by entry. -/
theorem textIn_dict {opened : List Container} {r : DictRef} (hr : .dict r ∉ opened) :
    h.textIn opened (.dict r) =
      '\x7b' :: listed ((h.entries r).entries.map (entryText (h.textIn (.dict r :: opened)))) ++ ['\x7d'] := by
  rw [textIn, if_neg hr]
  split
  · rfl
  · next hn =>
    rw [entries_eq_nil fun hs => hn ⟨hs, hr⟩]
    rfl

theorem textIn_of_mem {opened : List Container} (hc : c ∈ opened) : h.textIn opened c.value = dots c := by
  cases c <;> rw [Container.value, textIn, if_pos hc] <;> rfl

theorem textIn_leaf {opened : List Container} (hv : v.container? = none) : h.textIn opened v = leafText v := by
  cases v with
  | list | dict => cases hv
  | _ => simp [textIn]

theorem display_str (h : Heap) (s : String) : h.display (.str s) = s.toList := textIn_leaf rfl

/-- The text at a place, as the procedure comes to it. -/
def textAt (h : Heap) (v : Value) (p : List Nat) : List Char :=
  match h.at? v p with
  | some w => if p = [] then h.textIn [] w else nested (h.textIn (h.enclosing v p)) w
  | none => []

theorem nested_congr {text text' : Value → List Char} (hv : text v = text' v) : nested text v = nested text' v := by
  cases v with
  | str s => rfl
  | _ => exact hv

theorem nested_container (text : Value → List Char) (c : Container) : nested text c.value = text c.value := by
  cases c <;> rfl

theorem textAt_container (hp : h.at? v p = some c.value) :
    h.textAt v p = h.textIn (h.enclosing v p) c.value := by
  simp only [textAt, hp]
  split
  · next he =>
    subst he
    rfl
  · rw [nested_container]

theorem textAt_append_singleton (hp : h.at? v p = some c.value) (hw : (h.contents c)[i]? = some w) :
    h.textAt v (p ++ [i]) = nested (h.textIn (c :: h.enclosing v p)) w := by
  have hpi : h.at? v (p ++ [i]) = some w := by rw [at?_append_singleton hp, inner_value, hw]
  simp [textAt, hpi, enclosing_append_singleton hp]

theorem writing_textAt (h : Heap) (v : Value) : h.Writing v (h.textAt v) where
  leaf p w _ hp hw := by
    simp only [textAt, hp, textIn_leaf hw]
    split
    · rfl
    · exact nested_congr (textIn_leaf hw)
  again p c _ hp hc := by rw [textAt_container hp, textIn_of_mem hc]
  list p r _ hp hr := by
    rw [textAt_container (c := .list r) hp, Container.value, textIn_list hr]
    congr 3
    refine List.ext_getElem? fun i => ?_
    rw [List.getElem?_map, List.getElem?_mapIdx]
    cases hi : (h.items r)[i]? with
    | none => rfl
    | some w => simp only [Option.map_some, textAt_append_singleton (c := .list r) hp hi]
  dict p r _ hp hr := by
    rw [textAt_container (c := .dict r) hp, Container.value, textIn_dict hr]
    congr 3
    refine List.ext_getElem? fun i => ?_
    rw [List.getElem?_map, List.getElem?_mapIdx]
    cases hi : (h.entries r).entries[i]? with
    | none => rfl
    | some e =>
      have hvalue : (h.contents (.dict r))[i]? = some e.2 := by simp [contents, Table.values, hi]
      simp only [Option.map_some, textAt_append_singleton (c := .dict r) hp hvalue, entryText]

/-- There is only one way to write the places shown. -/
theorem Writing.unique {text text' : List Nat → List Char} (ht : h.Writing v text) (ht' : h.Writing v text')
    (hp : h.Shows v p) : text p = text' p := by
  refine shows_induction (P := fun p => text p = text' p) (fun p hp ih => ?_) hp
  obtain ⟨w, hw⟩ := Option.isSome_iff_exists.1 hp.1
  cases hc : w.container? with
  | none => rw [ht.leaf p w hp hw hc, ht'.leaf p w hp hw hc]
  | some c =>
    obtain rfl := Value.container?_eq_some_iff.1 hc
    by_cases hopen : c ∈ h.enclosing v p
    · rw [ht.again p c hp hw hopen, ht'.again p c hp hw hopen]
    have hinner (i : Nat) (hi : i < (h.contents c).length) : text (p ++ [i]) = text' (p ++ [i]) :=
      ih i (shows_append_singleton.2 ⟨hp, c, hw, hopen, _, List.getElem?_eq_getElem hi⟩)
    cases c with
    | list r =>
      rw [ht.list p r hp hw hopen, ht'.list p r hp hw hopen]
      congr 3
      refine List.ext_getElem (by simp) fun i hi _ => ?_
      have hlt : i < (h.contents (.list r)).length := by simpa [contents] using hi
      simp [hinner i hlt]
    | dict r =>
      rw [ht.dict p r hp hw hopen, ht'.dict p r hp hw hopen]
      congr 3
      refine List.ext_getElem (by simp) fun i hi _ => ?_
      have hlt : i < (h.contents (.dict r)).length := by simpa [contents, Table.values] using hi
      simp [hinner i hlt]

/-! ## Dots -/

/-- The text does not begin with a dot. -/
def Undotted (cs : List Char) : Prop :=
  cs.head? ≠ some '.'

theorem undotted_digits (n : Nat) (rest : List Char) : Undotted (Text.digitsOf n ++ rest) := by
  intro hdot
  obtain ⟨c, cs, hc⟩ := List.exists_cons_of_ne_nil (Text.digitsOf_ne_nil n)
  have hdigit : c.isDigit := Text.isDigit_of_mem_digitsOf (hc ▸ List.mem_cons_self)
  rw [hc] at hdot
  cases hdot
  cases hdigit

theorem undotted_signed {cs : List Char} (hcs : Undotted cs) (negative : Prop) [Decidable negative] :
    Undotted ((if negative then ['-'] else []) ++ cs) := by
  split
  · exact nofun
  · exact hcs

theorem undotted_positional (point : Bool) (d : Decimal) : Undotted (Decimal.positional point d) := by
  simp only [Decimal.positional]
  split
  · rw [List.append_assoc]
    exact undotted_digits _ _
  · -- zeros in front make sure of a digit before the point
    generalize hpadded : List.replicate _ '0' ++ Text.digitsOf d.digits = padded
    have hhead : Undotted padded := by
      rw [← hpadded]
      cases ((-d.exponent).toNat + 1 - (Text.digitsOf d.digits).length) with
      | zero => simpa using undotted_digits d.digits []
      | succ n => exact nofun
    have hlength : 0 < padded.length - (-d.exponent).toNat := by
      rw [← hpadded, List.length_append, List.length_replicate]
      omega
    obtain ⟨c, cs, rfl⟩ := List.exists_cons_of_length_pos (l := padded) (by omega)
    obtain ⟨k, hk⟩ := Nat.exists_eq_succ_of_ne_zero hlength.ne'
    rw [hk]
    exact hhead

theorem undotted_float (x : Float) : Undotted (Decimal.text .value x) := by
  unfold Decimal.text
  split
  · exact nofun
  · exact undotted_signed (by exact nofun) _
  · refine undotted_signed ?_ _
    unfold Decimal.magnitudeText
    split
    · exact undotted_positional _ _
    · dsimp only
      split
      · exact undotted_positional _ _
      · exact undotted_positional _ _

theorem undotted_container (opened : List Container) (c : Container) : Undotted (h.textIn opened c.value) := by
  cases c with
  | list r =>
    by_cases hr : .list r ∈ opened
    · rw [textIn_of_mem hr]
      exact nofun
    · rw [Container.value, textIn_list hr]
      exact nofun
  | dict r =>
    by_cases hr : .dict r ∈ opened
    · rw [textIn_of_mem hr]
      exact nofun
    · rw [Container.value, textIn_dict hr]
      exact nofun

/-- No text inside a container begins with a dot. -/
theorem undotted_nested (opened : List Container) (v : Value) : Undotted (nested (h.textIn opened) v) := by
  cases hc : v.container? with
  | some c =>
    obtain rfl := Value.container?_eq_some_iff.1 hc
    rw [nested_container]
    exact undotted_container opened c
  | none =>
    rw [nested_congr (textIn_leaf hc)]
    cases v with
    | bool b => cases b <;> exact nofun
    | int n => exact undotted_signed (by simpa using undotted_digits n.toInt.natAbs []) _
    | float x => exact undotted_float x
    | list | dict => cases hc
    | _ => exact nofun

/-- Texts of which none begins with a dot do not make up three dots. -/
theorem listed_ne_dots {ts : List (List Char)} (hts : ∀ t ∈ ts, Undotted t) : listed ts ≠ ['.', '.', '.'] := by
  intro h
  have hundotted : Undotted (listed ts) := by
    match ts with
    | [] => exact nofun
    | [t] => simpa [listed] using hts t List.mem_cons_self
    | [] :: _ :: _ => simp [listed, Undotted]
    | (c :: cs) :: _ :: _ => simpa [listed, Undotted] using hts (c :: cs) List.mem_cons_self
  rw [h] at hundotted
  exact hundotted rfl

/-- Only a container that is open is written as dots. -/
theorem textIn_eq_dots_iff {opened : List Container} : h.textIn opened c.value = dots c ↔ c ∈ opened := by
  refine ⟨fun heq => ?_, textIn_of_mem⟩
  by_contra hc
  cases c with
  | list r =>
    rw [Container.value, textIn_list hc] at heq
    refine listed_ne_dots ?_ (List.append_cancel_right (List.cons.inj heq).2)
    rintro t ht
    obtain ⟨w, -, rfl⟩ := List.mem_map.1 ht
    exact undotted_nested _ w
  | dict r =>
    rw [Container.value, textIn_dict hc] at heq
    refine listed_ne_dots ?_ (List.append_cancel_right (List.cons.inj heq).2)
    rintro t ht
    obtain ⟨e, -, rfl⟩ := List.mem_map.1 ht
    exact nofun

/-! ## Trees -/

/-- What a value without cycles unfolds to. -/
inductive Tree where
  | leaf (v : Value)
  | list (items : List Tree)
  | dict (entries : List (String × Tree))

namespace Tree

mutual

/-- The plain text of a tree, alone or inside another one. A text value is quoted inside. -/
def text (inside : Bool) : Tree → List Char
  | .leaf v => if inside then nested leafText v else leafText v
  | .list items => '[' :: listed (itemTexts items) ++ [']']
  | .dict entries => '\x7b' :: listed (entryTexts entries) ++ ['\x7d']

def itemTexts : List Tree → List (List Char)
  | [] => []
  | t :: ts => text true t :: itemTexts ts

def entryTexts : List (String × Tree) → List (List Char)
  | [] => []
  | (key, t) :: es => (Text.quotedBy '"' key.toList ++ [':', ' '] ++ text true t) :: entryTexts es

end

end Tree

/-- The value unfolds to the tree. -/
inductive Unfolds (h : Heap) : Value → Tree → Prop
  | leaf {v : Value} : v.container? = none → Unfolds h v (.leaf v)
  | list {r : ListRef} {ts : List Tree} : List.Forall₂ (Unfolds h) (h.items r) ts → Unfolds h (.list r) (.list ts)
  | dict {r : DictRef} {es : List (String × Tree)} : (h.entries r).keys = es.map (·.1) →
      List.Forall₂ (Unfolds h) (h.entries r).values (es.map (·.2)) → Unfolds h (.dict r) (.dict es)

theorem Tree.itemTexts_eq {text' : Value → List Char} {vs : List Value} {ts : List Tree}
    (h : List.Forall₂ (fun v t => text' v = t.text true) vs ts) : vs.map text' = itemTexts ts := by
  induction h with
  | nil => rfl
  | cons hvt _ ih => rw [List.map_cons, hvt, ih, itemTexts]

theorem Tree.entryTexts_eq {text' : Value → List Char} {es : List (String × Value)} {ts : List (String × Tree)}
    (hkeys : es.map (·.1) = ts.map (·.1))
    (h : List.Forall₂ (fun v t => nested text' v = t.text true) (es.map (·.2)) (ts.map (·.2))) :
    es.map (entryText text') = entryTexts ts := by
  induction es generalizing ts with
  | nil =>
    cases ts with
    | nil => rfl
    | cons => cases h
  | cons e es ih =>
    obtain _ | ⟨⟨key, t⟩, ts⟩ := ts
    · cases h
    · obtain ⟨hkey, hrest⟩ := List.cons.inj hkeys
      obtain _ | ⟨hvt, hvts⟩ := h
      have hkey : e.1 = key := hkey
      rw [List.map_cons, ih hrest hvts, entryTexts, entryText, hvt, hkey]

open Relation

/-- Inside containers that do not lie in it, a value without cycles has the text of its tree. -/
theorem Unfolds.text_eq {t : Tree} (hv : h.Acyclic v) (ht : h.Unfolds v t) {opened : List Container}
    (hopened : ∀ c ∈ opened, ¬ReflTransGen h.Inside c.value v) :
    h.textIn opened v = t.text false ∧ nested (h.textIn opened) v = t.text true := by
  induction acyclic_iff_acc.1 hv generalizing t opened with
  | intro v _ ih =>
  -- what lies in a container of the value is free of that container, too
  have hinside (c : Container) (hc : v = c.value) (w : Value) (hw : w ∈ h.contents c) :
      h.Inside w v ∧ h.Acyclic w ∧ ∀ d ∈ c :: opened, ¬ReflTransGen h.Inside d.value w := by
    have hwv : h.Inside w v := ⟨c, hc, hw⟩
    refine ⟨hwv, fun u hu => hv u (hu.tail hwv), fun d hd hdw => ?_⟩
    rcases List.mem_cons.1 hd with rfl | hd
    · exact hv v .refl (hc ▸ TransGen.tail' hdw (hc ▸ hwv))
    · exact hopened d hd (hdw.tail hwv)
  cases ht with
  | leaf hleaf =>
    rw [nested_congr (textIn_leaf hleaf), textIn_leaf hleaf]
    exact ⟨rfl, rfl⟩
  | @list r ts hts =>
    have hnot : .list r ∉ opened := fun hr => hopened _ hr .refl
    have htexts : (h.items r).map (nested (h.textIn (.list r :: opened))) = Tree.itemTexts ts := by
      refine Tree.itemTexts_eq (forall₂_imp_of_mem (fun w hw t _ hwt => ?_) hts)
      obtain ⟨hwv, hacyclic, hfree⟩ := hinside (.list r) rfl w hw
      exact (ih w hwv hacyclic hwt hfree).2
    rw [nested, textIn_list hnot, htexts]
    · exact ⟨rfl, rfl⟩
    · exact nofun
  | @dict r es hkeys hes =>
    have hnot : .dict r ∉ opened := fun hr => hopened _ hr .refl
    have htexts : (h.entries r).entries.map (entryText (h.textIn (.dict r :: opened))) = Tree.entryTexts es := by
      refine Tree.entryTexts_eq hkeys (forall₂_imp_of_mem (fun w hw t _ hwt => ?_) hes)
      obtain ⟨hwv, hacyclic, hfree⟩ := hinside (.dict r) rfl w hw
      exact (ih w hwv hacyclic hwt hfree).2
    rw [nested, textIn_dict hnot, htexts]
    · exact ⟨rfl, rfl⟩
    · exact nofun

theorem exists_forall₂ {α β : Type} {R : α → β → Prop} {xs : List α} (hxs : ∀ x ∈ xs, ∃ y, R x y) :
    ∃ ys, List.Forall₂ R xs ys := by
  induction xs with
  | nil => exact ⟨[], .nil⟩
  | cons x xs ih =>
    obtain ⟨y, hy⟩ := hxs x List.mem_cons_self
    obtain ⟨ys, hys⟩ := ih fun x hx => hxs x (List.mem_cons_of_mem _ hx)
    exact ⟨y :: ys, .cons hy hys⟩

/-- A value without cycles unfolds to a tree. -/
theorem Acyclic.exists_unfolds (hv : h.Acyclic v) : ∃ t, h.Unfolds v t := by
  induction acyclic_iff_acc.1 hv with
  | intro v _ ih =>
  have hinner (c : Container) (hc : v = c.value) : ∃ ts, List.Forall₂ (h.Unfolds) (h.contents c) ts := by
    refine exists_forall₂ fun w hw => ?_
    have hwv : h.Inside w v := ⟨c, hc, hw⟩
    exact ih w hwv fun u hu => hv u (hu.tail hwv)
  cases hc : v.container? with
  | none => exact ⟨_, .leaf hc⟩
  | some c =>
    obtain rfl := Value.container?_eq_some_iff.1 hc
    obtain ⟨ts, hts⟩ := hinner c rfl
    cases c with
    | list r => exact ⟨_, .list hts⟩
    | dict r =>
      have hlength : (h.entries r).keys.length = ts.length := by
        simpa [contents, Table.keys, Table.values] using hts.length_eq
      refine ⟨.dict ((h.entries r).keys.zip ts), .dict ?_ ?_⟩
      · exact (List.map_fst_zip hlength.le).symm
      · rw [List.map_snd_zip hlength.ge]
        exact hts

/-! ## The text of a value -/

/-- Writing a value comes to an end: only so many places of it are shown, there is just one way to write
these, and the text of the value is what is written at the outermost place. A container that is shown is
written as dots exactly if it is one of those that enclose its place. A value without cycles unfolds to a
tree, and the text is the plain text of that tree. -/
theorem display_places (h : Heap) (v : Value) :
    {p | h.Shows v p}.Finite ∧
    (∃ text, h.Writing v text ∧ ∀ p c, h.Shows v p → h.at? v p = some c.value →
      (text p = dots c ↔ c ∈ h.enclosing v p)) ∧
    (∀ text, h.Writing v text → text [] = h.display v) ∧
    (h.Acyclic v → (∃ t, h.Unfolds v t) ∧ ∀ t, h.Unfolds v t → h.display v = t.text false) := by
  refine ⟨finite_shows h v, ⟨h.textAt v, writing_textAt h v, fun p c _ hc => ?_⟩, fun text ht => ?_, fun hv => ?_⟩
  · rw [textAt_container hc]
    exact textIn_eq_dots_iff
  · exact ht.unique (writing_textAt h v) (shows_nil h v)
  · exact ⟨hv.exists_unfolds, fun t ht => (ht.text_eq hv (List.forall_mem_nil _)).1⟩

/-- A list that holds one list twice, and a list that holds itself. -/
def twiceAndLoop : Heap where
  lists := #[[.list ⟨1⟩, .list ⟨1⟩], [.str "a"], [.list ⟨2⟩]]

/-- The list that is held twice is written twice, and the one that holds itself is dots inside itself. -/
theorem display_twiceAndLoop : twiceAndLoop.Acyclic (.list ⟨0⟩) ∧
    twiceAndLoop.display (.list ⟨0⟩) = "[[\"a\"], [\"a\"]]".toList ∧
    ∃ text, twiceAndLoop.Writing (.list ⟨2⟩) text ∧ text [0] = "[...]".toList ∧
      text [] = twiceAndLoop.display (.list ⟨2⟩) := by
  have hacyclic : twiceAndLoop.Acyclic (.list ⟨0⟩) := by
    refine acyclic_iff_acc.2 ⟨_, fun v hv => ?_⟩
    have hv : v ∈ [Value.list ⟨1⟩, .list ⟨1⟩] := inside_list_iff.1 hv
    obtain rfl : v = .list ⟨1⟩ := by simpa using hv
    refine ⟨_, fun w hw => ?_⟩
    have hw : w ∈ [Value.str "a"] := inside_list_iff.1 hw
    obtain rfl : w = .str "a" := by simpa using hw
    exact ⟨_, fun u ⟨c, hc, _⟩ => by cases c <;> cases hc⟩
  have hunfolds : twiceAndLoop.Unfolds (.list ⟨0⟩) (.list [.list [.leaf (.str "a")], .list [.leaf (.str "a")]]) :=
    have hone : twiceAndLoop.Unfolds (.list ⟨1⟩) (.list [.leaf (.str "a")]) := .list (.cons (.leaf rfl) .nil)
    .list (.cons hone (.cons hone .nil))
  obtain ⟨-, ⟨text, hwriting, hdots⟩, honly, -⟩ := display_places twiceAndLoop (.list ⟨2⟩)
  refine ⟨hacyclic, ?_, text, hwriting, ?_, honly text hwriting⟩
  · rw [(display_places twiceAndLoop (.list ⟨0⟩)).2.2.2 hacyclic |>.2 _ hunfolds]
    decide +kernel
  · have hshows : twiceAndLoop.Shows (.list ⟨2⟩) [0] :=
      shows_append_singleton.2 ⟨shows_nil _ _, .list ⟨2⟩, rfl, by decide, .list ⟨2⟩, rfl⟩
    exact (hdots [0] (.list ⟨2⟩) hshows rfl).2 (by decide)

end Heap

end PipeScript
