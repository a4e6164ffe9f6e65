/-
Equality of values is structural on every heap, cyclic or not: it is the largest relation between
values under which related values match, that is, are equal leaves, the same container, lists of
related items, or dictionaries with the same keys and related values.

Equality is a search (`Heap.Search`), so that only what one step of it does is left to show: the
answer inside a path is that the pair is on the path, or that the values match by the answers
inside the longer path.
-/
import PipeScript.Heap.Equality
import PipeScript.Proofs.Heap.Search
import PipeScript.Proofs.Table

namespace PipeScript.Heap

/-- What it takes for two values to be equal, where `R` relates what lies inside them. -/
inductive Matches (h : Heap) (R : Value → Value → Prop) : Value → Value → Prop
  | null : Matches h R .null .null
  | bool (b : Bool) : Matches h R (.bool b) (.bool b)
  | int (n : Int64) : Matches h R (.int n) (.int n)
  | intFloat {n : Int64} {x : Float} : (Integer.toFloat n == x) = true → Matches h R (.int n) (.float x)
  | floatInt {x : Float} {n : Int64} : (x == Integer.toFloat n) = true → Matches h R (.float x) (.int n)
  | float {x y : Float} : (x == y) = true → Matches h R (.float x) (.float y)
  | str (s : String) : Matches h R (.str s) (.str s)
  | function {f g : Callable} : f.name = g.name → Matches h R (.function f) (.function g)
  | sameList (r : ListRef) : Matches h R (.list r) (.list r)
  | sameDict (r : DictRef) : Matches h R (.dict r) (.dict r)
  | lists {r s : ListRef} : List.Forall₂ R (h.items r) (h.items s) → Matches h R (.list r) (.list s)
  | dicts {r s : DictRef} : (∀ key, Option.Rel R ((h.entries r).get? key) ((h.entries s).get? key)) →
      Matches h R (.dict r) (.dict s)

/-! ## One step of the search -/

/-- Values that are not both lists nor both dictionaries match by themselves. -/
theorem leafEq_iff_matches {h : Heap} {R : Value → Value → Prop} {a b : Value}
    (hl : ∀ r s, a = .list r → b = .list s → False) (hd : ∀ r s, a = .dict r → b = .dict s → False) :
    leafEq a b = true ↔ h.Matches R a b := by
  constructor
  · intro hab
    cases a <;> cases b <;> simp only [leafEq, Value.toFloat?, Bool.false_eq_true, beq_iff_eq] at hab
    case null.null => exact .null
    case bool.bool => exact hab ▸ .bool _
    case int.int => exact hab ▸ .int _
    case int.float => exact .intFloat hab
    case float.int => exact .floatInt hab
    case float.float => exact .float hab
    case str.str => exact hab ▸ .str _
    case function.function => exact .function hab
  · intro hab
    cases hab with
    | null => rfl
    | bool b => simp [leafEq]
    | int n => simp [leafEq]
    | intFloat hx => simpa [leafEq, Value.toFloat?] using hx
    | floatInt hx => simpa [leafEq, Value.toFloat?] using hx
    | float hx => simpa [leafEq, Value.toFloat?] using hx
    | str s => simp [leafEq]
    | function hf => simp [leafEq, hf]
    | sameList r => exact absurd rfl fun e => hl r r e rfl
    | sameDict r => exact absurd rfl fun e => hd r r e rfl
    | lists _ => exact absurd rfl fun e => hl _ _ e rfl
    | dicts _ => exact absurd rfl fun e => hd _ _ e rfl

theorem isEqv_iff_forall₂ {α : Type} {f : α → α → Bool} {xs ys : List α} :
    xs.isEqv ys f = true ↔ List.Forall₂ (fun x y => f x y = true) xs ys := by
  induction xs generalizing ys with
  | nil => cases ys <;> simp
  | cons x xs ih => cases ys <;> simp [List.isEqv_cons_cons, ih]

theorem entriesEq_iff {f : Value → Value → Bool} {t u : Table Value} :
    entriesEq f t.entries u.entries = true ↔
      ∀ key, Option.Rel (fun x y => f x y = true) (t.get? key) (u.get? key) := by
  rw [entriesEq, isEqv_iff_forall₂, ← Table.forall₂_entries_iff]
  simp only [Bool.and_eq_true, beq_iff_eq]

section

variable {h : Heap} {path : List (Container × Container)} {R : Value → Value → Prop}

theorem eqOn_list_iff {r s : ListRef} :
    h.eqOn path (.list r) (.list s) = true ↔ (.list r, .list s) ∈ path ∨ r = s ∨
      List.Forall₂ (fun x y => h.eqOn ((.list r, .list s) :: path) x y = true) (h.items r) (h.items s) := by
  by_cases hmet : r = s ∨ (.list r, .list s) ∈ path
  · rw [eqOn, if_pos hmet]
    exact iff_of_true rfl (hmet.elim (.inr ∘ .inl) .inl)
  · rw [not_or] at hmet
    rw [eqOn_list hmet.1 hmet.2, itemsEq, isEqv_iff_forall₂, or_iff_right hmet.2, or_iff_right hmet.1]

theorem eqOn_dict_iff {r s : DictRef} :
    h.eqOn path (.dict r) (.dict s) = true ↔ (.dict r, .dict s) ∈ path ∨ r = s ∨
      ∀ key, Option.Rel (fun x y => h.eqOn ((.dict r, .dict s) :: path) x y = true)
        ((h.entries r).get? key) ((h.entries s).get? key) := by
  by_cases hmet : r = s ∨ (.dict r, .dict s) ∈ path
  · rw [eqOn, if_pos hmet]
    exact iff_of_true rfl (hmet.elim (.inr ∘ .inl) .inl)
  · rw [not_or] at hmet
    rw [eqOn_dict hmet.1 hmet.2, entriesEq_iff, or_iff_right hmet.2, or_iff_right hmet.1]

theorem matches_list_iff {r s : ListRef} :
    h.Matches R (.list r) (.list s) ↔ r = s ∨ List.Forall₂ R (h.items r) (h.items s) := by
  constructor
  · intro hm
    cases hm with
    | sameList => exact .inl rfl
    | lists hi => exact .inr hi
  · rintro (rfl | hi)
    · exact .sameList r
    · exact .lists hi

theorem matches_dict_iff {r s : DictRef} : h.Matches R (.dict r) (.dict s) ↔
    r = s ∨ ∀ key, Option.Rel R ((h.entries r).get? key) ((h.entries s).get? key) := by
  constructor
  · intro hm
    cases hm with
    | sameDict => exact .inl rfl
    | dicts hi => exact .inr hi
  · rintro (rfl | hi)
    · exact .sameDict r
    · exact .dicts hi

end

/-- The pair that equality enters: two lists, or two dictionaries. -/
def eqPair? : Value → Value → Option (Container × Container)
  | .list r, .list s => some (.list r, .list s)
  | .dict r, .dict s => some (.dict r, .dict s)
  | _, _ => none

theorem eqPair?_eq_some {a b : Value} {p : Container × Container} (hp : eqPair? a b = some p) :
    (∃ r s, a = .list r ∧ b = .list s ∧ p = (.list r, .list s)) ∨
      ∃ r s, a = .dict r ∧ b = .dict s ∧ p = (.dict r, .dict s) := by
  cases a <;> cases b <;> simp_all [eqPair?]

/-- The answer inside a path: the pair is on it, or the values match inside the longer path. -/
theorem eqOn_iff {h : Heap} {path : List (Container × Container)} {a b : Value} :
    h.eqOn path a b = true ↔ (∃ p ∈ path, eqPair? a b = some p) ∨
      h.Matches (fun x y => h.eqOn ((eqPair? a b).toList ++ path) x y = true) a b := by
  by_cases hl : ∃ r s, a = .list r ∧ b = .list s
  · obtain ⟨r, s, rfl, rfl⟩ := hl
    rw [eqOn_list_iff, matches_list_iff]
    simp [eqPair?]
  by_cases hd : ∃ r s, a = .dict r ∧ b = .dict s
  · obtain ⟨r, s, rfl, rfl⟩ := hd
    rw [eqOn_dict_iff, matches_dict_iff]
    simp [eqPair?]
  -- all other pairs are answered as leaves, and are never on a path
  have hl' : ∀ r s, a = .list r → b = .list s → False := fun r s ha hb => hl ⟨r, s, ha, hb⟩
  have hd' : ∀ r s, a = .dict r → b = .dict s → False := fun r s ha hb => hd ⟨r, s, ha, hb⟩
  rw [eqOn, leafEq_iff_matches hl' hd']
  · refine ⟨.inr, fun hp => hp.resolve_left ?_⟩
    rintro ⟨p, -, hp⟩
    rcases eqPair?_eq_some hp with ⟨r, s, ha, hb, -⟩ | ⟨r, s, ha, hb, -⟩
    · exact hl' r s ha hb
    · exact hd' r s ha hb
  · exact hl'
  · exact hd'

/-- Matching looks only at what lies inside the pair that is entered. -/
theorem Matches.mono_of_mem {h : Heap} {R R' : Value → Value → Prop} {a b : Value} (hab : h.Matches R a b)
    (hR : ∀ p, eqPair? a b = some p → ∀ x ∈ h.contents p.1, ∀ y ∈ h.contents p.2, R x y → R' x y) :
    h.Matches R' a b := by
  cases hab with
  | null => exact .null
  | bool b => exact .bool b
  | int n => exact .int n
  | intFloat hx => exact .intFloat hx
  | floatInt hx => exact .floatInt hx
  | float hx => exact .float hx
  | str s => exact .str s
  | function hf => exact .function hf
  | sameList r => exact .sameList r
  | sameDict r => exact .sameDict r
  | lists hi => exact .lists (forall₂_imp_of_mem (hR _ rfl) hi)
  | @dicts r s hi =>
    refine .dicts (Table.forall₂_entries_iff.1 (forall₂_imp_of_mem (fun x hx y hy hxy => ?_)
      (Table.forall₂_entries_iff.2 hi)))
    exact ⟨hxy.1, hR _ rfl x.2 (List.mem_map_of_mem hx) y.2 (List.mem_map_of_mem hy) hxy.2⟩

/-- What it takes for two values to be equal, as a step of a search. -/
def matching (h : Heap) : (Value → Value → Prop) →o (Value → Value → Prop) :=
  ⟨h.Matches, fun _ _ hR _ _ hab => hab.mono_of_mem fun _ _ x _ y _ => hR x y⟩

/-- Equality as a search. -/
def eqSearch (h : Heap) : h.Search where
  pair? := eqPair?
  pair?_inj hp hq := by
    rcases eqPair?_eq_some hp with ⟨r, s, rfl, rfl, rfl⟩ | ⟨r, s, rfl, rfl, rfl⟩ <;>
      rcases eqPair?_eq_some hq with ⟨r', s', rfl, rfl, e⟩ | ⟨r', s', rfl, rfl, e⟩ <;> cases e <;>
      exact ⟨rfl, rfl⟩
  step := h.matching
  step_local := Matches.mono_of_mem
  answer path a b := h.eqOn path a b = true
  answer_iff := eqOn_iff

/-! ## Equality is the largest relation -/

theorem eq_iff_gfp {h : Heap} {a b : Value} : h.eq a b = true ↔ OrderHom.gfp h.matching a b :=
  h.eqSearch.answer_iff_gfp (h.eqSearch.met_nil_le _)

/-- Two values are equal exactly when they match by the equality of what lies inside them. -/
theorem eq_iff_matches {h : Heap} {a b : Value} :
    h.eq a b = true ↔ h.Matches (fun x y => h.eq x y = true) a b := by
  have hfun : (fun x y => h.eq x y = true) = OrderHom.gfp h.matching := by
    funext x y; exact propext eq_iff_gfp
  rw [hfun, eq_iff_gfp]
  exact iff_of_eq (congrFun (congrFun (OrderHom.map_gfp h.matching).symm a) b)

/-- Equality is the largest relation under which related values match. No answer depends on the way
the search goes: pairs that are equal can be granted beforehand, whichever they are. -/
theorem eq_isGreatest (h : Heap) :
    IsGreatest {R : Value → Value → Prop | ∀ a b, R a b → h.Matches R a b} (fun a b => h.eq a b = true) ∧
      ∀ path, (∀ a b, (∃ p ∈ path, eqPair? a b = some p) → h.eq a b = true) →
        ∀ a b, h.eqOn path a b = h.eq a b := by
  refine ⟨⟨fun a b hab => eq_iff_matches.1 hab, fun R hR a b hab => ?_⟩, fun path hpath a b => ?_⟩
  · exact eq_iff_gfp.2 (OrderHom.le_gfp h.matching hR a b hab)
  · rw [Bool.eq_iff_iff, eq_iff_gfp]
    exact h.eqSearch.answer_iff_gfp fun x y hxy => eq_iff_gfp.1 (hpath x y hxy)

end PipeScript.Heap
