/-
What the functions of the language make of arguments that are the same but for which container is which, in
two heaps that are so, too. Both fail in the same way, or what they give and what they make of the heaps is
again the same but for the containers.
-/
import PipeScript.Proofs.Heap.Renaming

namespace PipeScript

open List (Forall₂)

/-! ## Results that agree -/

/-- Both fail in the same way, or neither does and what they give is related. -/
inductive Agree {ε α β : Type} (R : α → β → Prop) : Except ε α → Except ε β → Prop
  | ok {a : α} {b : β} : R a b → Agree R (.ok a) (.ok b)
  | error (e : ε) : Agree R (.error e) (.error e)

namespace Agree

variable {ε α β γ δ : Type} {R : α → β → Prop} {S : γ → δ → Prop}

theorem imp {R' : α → β → Prop} {e : Except ε α} {e' : Except ε β} (h : ∀ a b, R a b → R' a b)
    (he : Agree R e e') : Agree R' e e' := by
  cases he with
  | ok hab => exact .ok (h _ _ hab)
  | error e => exact .error e

theorem of_eq {e e' : Except ε α} (he : e = e') : Agree Eq e e' := by
  subst he
  cases e with
  | ok a => exact .ok rfl
  | error e => exact .error e

theorem bind {e : Except ε α} {e' : Except ε β} {f : α → Except ε γ} {g : β → Except ε δ} (he : Agree R e e')
    (hfg : ∀ a b, R a b → Agree S (f a) (g b)) : Agree S (e >>= f) (e' >>= g) := by
  cases he with
  | ok hab => exact hfg _ _ hab
  | error e => exact .error e

/-- What is done first may be the same on both sides. -/
theorem after (e : Except ε α) {f : α → Except ε γ} {g : α → Except ε δ} (hfg : ∀ a, Agree S (f a) (g a)) :
    Agree S (e >>= f) (e >>= g) := by
  cases e with
  | ok a => exact hfg a
  | error e => exact .error e

theorem foldlM {f : γ → α → Except ε γ} {g : δ → β → Except ε δ}
    (hfg : ∀ c d a b, S c d → R a b → Agree S (f c a) (g d b)) {as : List α} {bs : List β}
    (has : Forall₂ R as bs) {c : γ} {d : δ} (hcd : S c d) : Agree S (as.foldlM f c) (bs.foldlM g d) := by
  induction has generalizing c d with
  | nil => exact .ok hcd
  | cons hab _ ih =>
    rw [List.foldlM_cons, List.foldlM_cons]
    exact (hfg _ _ _ _ hcd hab).bind fun _ _ h => ih h

theorem eq_bind {e : Except ε α} {e' : Except ε β} {f : α → Except ε γ} {g : β → Except ε γ} (he : Agree R e e')
    (hfg : ∀ a b, R a b → f a = g b) : e >>= f = e' >>= g := by
  cases he with
  | ok hab => exact hfg _ _ hab
  | error e => rfl

end Agree

variable {ρ : Renaming} {h h' : Heap} {v w : Value} {args args' : List Value}

/-- What is the same on both sides and no container is related. -/
theorem agree_of_isLeaf {e e' : Except CallError Value} (he : e = e') (hleaf : Yields Value.IsLeaf e) :
    Agree ρ.Like e e' := by
  subst he
  cases e with
  | error e => exact .error e
  | ok v => exact .ok (.of_isLeaf (hleaf v rfl))

/-! ## Arguments -/

namespace Arguments

theorem one_agree (hargs : Forall₂ ρ.Like args args') : Agree ρ.Like (one args) (one args') := by
  rcases hargs with _ | ⟨ha, _ | ⟨hb, hrest⟩⟩
  · exact .error _
  · exact .ok ha
  · simp only [one, List.length_cons, hrest.length_eq]
    exact .error _

theorem two_agree (hargs : Forall₂ ρ.Like args args') :
    Agree (fun p q => ρ.Like p.1 q.1 ∧ ρ.Like p.2 q.2) (two args) (two args') := by
  rcases hargs with _ | ⟨ha, _ | ⟨hb, _ | ⟨hc, hrest⟩⟩⟩
  · exact .error _
  · exact .error _
  · exact .ok ⟨ha, hb⟩
  · simp only [two, List.length_cons, hrest.length_eq]
    exact .error _

theorem three_agree (hargs : Forall₂ ρ.Like args args') :
    Agree (fun p q => ρ.Like p.1 q.1 ∧ ρ.Like p.2.1 q.2.1 ∧ ρ.Like p.2.2 q.2.2) (three args) (three args') := by
  rcases hargs with _ | ⟨ha, _ | ⟨hb, _ | ⟨hc, _ | ⟨hd, hrest⟩⟩⟩⟩
  · exact .error _
  · exact .error _
  · exact .error _
  · exact .ok ⟨ha, hb, hc⟩
  · simp only [three, List.length_cons, hrest.length_eq]
    exact .error _

theorem twoOrThree_agree (hargs : Forall₂ ρ.Like args args') :
    Agree (fun p q => ρ.Like p.1 q.1 ∧ ρ.Like p.2.1 q.2.1 ∧ ρ.Like p.2.2 q.2.2) (twoOrThree args)
      (twoOrThree args') := by
  rcases hargs with _ | ⟨ha, _ | ⟨hb, _ | ⟨hc, _ | ⟨hd, hrest⟩⟩⟩⟩
  · exact .error _
  · exact .error _
  · exact .ok ⟨ha, hb, .null⟩
  · exact .ok ⟨ha, hb, hc⟩
  · simp only [twoOrThree, List.length_cons, hrest.length_eq]
    exact .error _

theorem atMostOne_agree (hargs : Forall₂ ρ.Like args args') :
    Agree (Option.Rel ρ.Like) (atMostOne args) (atMostOne args') := by
  rcases hargs with _ | ⟨ha, _ | ⟨hb, hrest⟩⟩
  · exact .ok .none
  · exact .ok (.some ha)
  · simp only [atMostOne, List.length_cons, hrest.length_eq]
    exact .error _

theorem number_eq (hv : ρ.Like v w) : number v = number w := by
  cases hv <;> rfl

theorem text_eq (hv : ρ.Like v w) : text v = text w := by
  cases hv <;> rfl

theorem function_eq (hv : ρ.Like v w) : function v = function w := by
  cases hv <;> rfl

theorem bound_eq (hv : ρ.Like v w) : bound v = bound w := by
  cases hv <;> rfl

theorem list_agree (hv : ρ.Like v w) : Agree (fun r s => ρ.maps (.list r) (.list s)) (list v) (list w) := by
  cases hv with
  | list hrs => exact .ok hrs
  | _ => exact .error _

end Arguments

open Arguments

/-! ## Arithmetic and types -/

namespace Arithmetic

theorem combine_eq {whole : Int64 → Int64 → Option Int64} {real : Float → Float → Float} {a a' b b' : Value}
    (ha : ρ.Like a a') (hb : ρ.Like b b') : combine whole real a b = combine whole real a' b' := by
  cases ha <;> cases hb <;> rfl

theorem foldlM_agree {whole : Int64 → Int64 → Option Int64} {real : Float → Float → Float}
    (hargs : Forall₂ ρ.Like args args') (n : Int64) :
    Agree ρ.Like (args.foldlM (combine whole real) (.int n)) (args'.foldlM (combine whole real) (.int n)) := by
  have hstep (a a' b b' : Value) (ha : ρ.Like a a') (hb : ρ.Like b b') :
      Agree ρ.Like (combine whole real a b) (combine whole real a' b') :=
    agree_of_isLeaf (combine_eq ha hb) combine_isLeaf
  exact Agree.foldlM hstep hargs (.int n)

theorem add_agree (hargs : Forall₂ ρ.Like args args') : Agree ρ.Like (add args) (add args') :=
  foldlM_agree hargs 0

theorem mul_agree (hargs : Forall₂ ρ.Like args args') : Agree ρ.Like (mul args) (mul args') := by
  cases hargs with
  | nil => exact .ok (.int 0)
  | cons ha hrest => exact foldlM_agree (.cons ha hrest) 1

theorem sub_agree (hargs : Forall₂ ρ.Like args args') : Agree ρ.Like (sub args) (sub args') :=
  agree_of_isLeaf ((two_agree hargs).eq_bind fun _ _ ⟨ha, hb⟩ => combine_eq ha hb) sub_isLeaf

theorem isZero_eq (hv : ρ.Like v w) : isZero v = isZero w := by
  rw [isZero, isZero, number_eq hv]

theorem div_agree (hargs : Forall₂ ρ.Like args args') : Agree ρ.Like (div args) (div args') := by
  refine agree_of_isLeaf ((two_agree hargs).eq_bind fun (a, b) (a', b') ⟨ha, hb⟩ => ?_) div_isLeaf
  simp only [number_eq ha, number_eq hb, isZero_eq hb]

theorem mod_agree (hargs : Forall₂ ρ.Like args args') : Agree ρ.Like (mod args) (mod args') := by
  refine agree_of_isLeaf ((two_agree hargs).eq_bind fun (a, b) (a', b') ⟨ha, hb⟩ => ?_) mod_isLeaf
  simp only [number_eq ha, isZero_eq hb, combine_eq ha hb]

theorem abs_agree (hargs : Forall₂ ρ.Like args args') : Agree ρ.Like (abs args) (abs args') := by
  refine agree_of_isLeaf ((one_agree hargs).eq_bind fun v w hv => ?_) abs_isLeaf
  cases hv <;> rfl

theorem sqrt_agree (hargs : Forall₂ ρ.Like args args') : Agree ρ.Like (sqrt args) (sqrt args') := by
  refine agree_of_isLeaf ((one_agree hargs).eq_bind fun v w hv => ?_) sqrt_isLeaf
  rw [number_eq hv]

theorem pow_agree (hargs : Forall₂ ρ.Like args args') : Agree ρ.Like (pow args) (pow args') := by
  refine agree_of_isLeaf ((two_agree hargs).eq_bind fun (a, b) (a', b') ⟨ha, hb⟩ => ?_) pow_isLeaf
  cases ha <;> cases hb <;> rfl

theorem rounded_agree (way : Binary.Rounding) (hargs : Forall₂ ρ.Like args args') :
    Agree ρ.Like (rounded way args) (rounded way args') := by
  refine agree_of_isLeaf ((one_agree hargs).eq_bind fun v w hv => ?_) (rounded_isLeaf way)
  cases hv <;> rfl

end Arithmetic

namespace Kinds

theorem typeof_agree (hargs : Forall₂ ρ.Like args args') : Agree ρ.Like (typeof args) (typeof args') := by
  refine (one_agree hargs).bind fun v w hv => ?_
  rw [hv.kind_eq]
  exact .ok (.str _)

theorem isnull_agree (hargs : Forall₂ ρ.Like args args') : Agree ρ.Like (isnull args) (isnull args') := by
  refine (one_agree hargs).bind fun v w hv => ?_
  rw [hv.kind_eq]
  exact .ok (.bool _)

theorem tonumber_agree (hargs : Forall₂ ρ.Like args args') : Agree ρ.Like (tonumber args) (tonumber args') := by
  refine (one_agree hargs).bind fun v w hv => ?_
  cases hv with
  | str s =>
    dsimp only
    split
    · exact .ok (.float _)
    · exact .error _
  | list hrs => exact .ok (.list hrs)
  | dict hrs => exact .ok (.dict hrs)
  | _ => exact .ok (by constructor)

variable (hh : Heap.Alike ρ h h') (hargs : Forall₂ ρ.Like args args')

include hh hargs

theorem tostring_agree : Agree ρ.Like (tostring h args) (tostring h' args') := by
  refine (one_agree hargs).bind fun v w hv => ?_
  rw [hh.text_eq hv]
  exact .ok (.str _)

theorem tobool_agree : Agree ρ.Like (tobool h args) (tobool h' args') := by
  refine (one_agree hargs).bind fun v w hv => ?_
  rw [hh.truthy_eq hv]
  exact .ok (.bool _)

theorem not_agree : Agree ρ.Like (not h args) (not h' args') := by
  refine (one_agree hargs).bind fun v w hv => ?_
  rw [hh.truthy_eq hv]
  exact .ok (.bool _)

theorem truths_eq : args.map h.truthy = args'.map h'.truthy :=
  Heap.map_eq_of_forall₂ hargs fun _ _ hv => hh.truthy_eq hv

theorem and_agree : Agree ρ.Like (Kinds.and h args) (Kinds.and h' args') := by
  have hall : args.all h.truthy = args'.all h'.truthy := by
    simpa [List.all_map] using congrArg (·.all id) (truths_eq hh hargs)
  rw [Kinds.and, Kinds.and, hall]
  exact .ok (.bool _)

theorem or_agree : Agree ρ.Like (Kinds.or h args) (Kinds.or h' args') := by
  have hany : args.any h.truthy = args'.any h'.truthy := by
    simpa [List.any_map] using congrArg (·.any id) (truths_eq hh hargs)
  rw [Kinds.or, Kinds.or, hany]
  exact .ok (.bool _)

end Kinds

/-! ## Comparisons -/

namespace Comparison

variable (hh : Heap.Alike ρ h h')

include hh

theorem order_eq (hv : ρ.Like v w) {x y : Value} (hxy : ρ.Like x y) : order h v x = order h' w y := by
  rw [order, order, hh.order_eq hv hxy, hv.kind_eq, hxy.kind_eq]

theorem extremeFrom_agree (wanted : Ordering) {vs ws : List Value} (hvs : Forall₂ ρ.Like vs ws) (hv : ρ.Like v w) :
    Agree ρ.Like (extremeFrom wanted h v vs) (extremeFrom wanted h' w ws) := by
  induction hvs generalizing v w with
  | nil => exact .ok hv
  | cons hxy _ ih =>
    rw [extremeFrom, extremeFrom, order_eq hh hxy hv]
    refine Agree.after _ fun o => ?_
    split
    · exact ih hxy
    · exact ih hv

theorem insertDescending_agree (hv : ρ.Like v w) {row row' : List Value} (hrow : Forall₂ ρ.Like row row') :
    Agree (Forall₂ ρ.Like) (insertDescending h v row) (insertDescending h' w row') := by
  induction hrow with
  | nil => exact .ok (.cons hv .nil)
  | cons hxy hrest ih =>
    rw [insertDescending, insertDescending, order_eq hh hv hxy]
    refine Agree.after _ fun o => ?_
    cases o with
    | lt => exact ih.bind fun _ _ hrow => .ok (.cons hxy hrow)
    | _ => exact .ok (.cons hv (.cons hxy hrest))

theorem sorted_agree {vs ws : List Value} (hvs : Forall₂ ρ.Like vs ws) :
    Agree (Forall₂ ρ.Like) (sorted h vs) (sorted h' ws) := by
  have hstep (row row' : List Value) (a b : Value) (hrow : Forall₂ ρ.Like row row') (hab : ρ.Like a b) :
      Agree (Forall₂ ρ.Like) (insertDescending h a row) (insertDescending h' b row') :=
    insertDescending_agree hh hab hrow
  exact (Agree.foldlM hstep hvs .nil).bind fun row row' hrow => .ok (List.forall₂_reverse_iff.2 hrow)

variable (hargs : Forall₂ ρ.Like args args')

include hargs

theorem eq_agree : Agree ρ.Like (Comparison.eq h args) (Comparison.eq h' args') := by
  refine (two_agree hargs).bind fun (a, b) (a', b') ⟨ha, hb⟩ => ?_
  simp only [hh.eq_eq ha hb]
  exact .ok (.bool _)

theorem ne_agree : Agree ρ.Like (Comparison.ne h args) (Comparison.ne h' args') := by
  refine (two_agree hargs).bind fun (a, b) (a', b') ⟨ha, hb⟩ => ?_
  simp only [hh.eq_eq ha hb]
  exact .ok (.bool _)

theorem ordered_agree (accept : Ordering → Bool) :
    Agree ρ.Like (ordered accept h args) (ordered accept h' args') := by
  refine (two_agree hargs).bind fun (a, b) (a', b') ⟨ha, hb⟩ => ?_
  simp only [order_eq hh ha hb]
  exact Agree.after _ fun o => .ok (.bool _)

omit hh hargs in
theorem candidates_of_many (h : Heap) (v w : Value) (vs : List Value) :
    candidates h (v :: w :: vs) = v :: w :: vs := by
  cases v <;> rfl

theorem candidates_like : Forall₂ ρ.Like (candidates h args) (candidates h' args') := by
  rcases hargs with _ | ⟨ha, _ | ⟨hb, hrest⟩⟩
  · exact .nil
  · cases ha with
    | list hrs => exact hh.items hrs
    | dict hrs => exact .cons (.dict hrs) .nil
    | _ => exact .cons (by constructor) .nil
  · rw [candidates_of_many, candidates_of_many]
    exact .cons ha (.cons hb hrest)

theorem extreme_agree (wanted : Ordering) : Agree ρ.Like (extreme wanted h args) (extreme wanted h' args') := by
  have hcandidates := candidates_like hh hargs
  unfold extreme
  generalize candidates h args = vs, candidates h' args' = ws at hcandidates
  cases hcandidates with
  | nil => exact .ok (.int 0)
  | cons hv hvs => exact extremeFrom_agree hh wanted hvs hv

end Comparison

/-! ## Texts -/

namespace Words

variable (hh : Heap.Alike ρ h h') (hargs : Forall₂ ρ.Like args args')

include hh hargs

theorem concat_agree : Agree ρ.Like (concat h args) (concat h' args') := by
  have htexts : args.map h.display = args'.map h'.display :=
    Heap.map_eq_of_forall₂ hargs fun _ _ hv => hh.display_eq hv
  rw [concat, concat, List.flatMap_def, List.flatMap_def, htexts]
  exact .ok (.str _)

theorem uppercase_agree : Agree ρ.Like (uppercase h args) (uppercase h' args') := by
  refine (one_agree hargs).bind fun v w hv => ?_
  rw [hh.display_eq hv]
  exact .ok (.str _)

theorem lowercase_agree : Agree ρ.Like (lowercase h args) (lowercase h' args') := by
  refine (one_agree hargs).bind fun v w hv => ?_
  rw [hh.display_eq hv]
  exact .ok (.str _)

theorem trim_agree : Agree ρ.Like (trim h args) (trim h' args') := by
  refine (one_agree hargs).bind fun v w hv => ?_
  rw [hh.display_eq hv]
  exact .ok (.str _)

theorem split_agree : Agree (Forall₂ ρ.Like) (split h args) (split h' args') := by
  refine (two_agree hargs).bind fun (v, separator) (w, separator') ⟨hv, hseparator⟩ => ?_
  simp only [text_eq hseparator, hh.display_eq hv]
  refine Agree.after _ fun s => ?_
  split
  · exact .error _
  · refine .ok (List.forall₂_same.2 fun part hpart => ?_)
    obtain ⟨cs, -, rfl⟩ := List.mem_map.1 hpart
    exact .str _

theorem join_agree : Agree ρ.Like (join h args) (join h' args') := by
  refine (two_agree hargs).bind fun (v, separator) (w, separator') ⟨hv, hseparator⟩ => ?_
  refine (list_agree hv).bind fun r s hrs => ?_
  have htexts := Heap.map_eq_of_forall₂ (hh.items hrs) fun _ _ hv => hh.display_eq hv
  simp only [text_eq hseparator, htexts]
  exact Agree.after _ fun _ => .ok (.str _)

theorem length_agree : Agree ρ.Like (length h args) (length h' args') := by
  refine (one_agree hargs).bind fun v w hv => ?_
  cases hv with
  | str s => exact .ok (.int _)
  | list hrs =>
    dsimp only
    rw [(hh.items hrs).length_eq]
    exact .ok (.int _)
  | dict hrs =>
    dsimp only
    rw [Table.size, Table.size, (hh.entries hrs).forall₂.length_eq]
    exact .ok (.int _)
  | _ => exact .error _

theorem substring_agree : Agree ρ.Like (substring h args) (substring h' args') := by
  refine (twoOrThree_agree hargs).bind fun (v, start, stop) (w, start', stop') ⟨hv, hstart, hstop⟩ => ?_
  simp only [bound_eq hstart, bound_eq hstop, hh.display_eq hv]
  exact Agree.after _ fun _ => Agree.after _ fun _ => .ok (.str _)

theorem replace_agree : Agree ρ.Like (replace h args) (replace h' args') := by
  refine (three_agree hargs).bind fun (v, pattern, replacement) (w, pattern', replacement') ⟨hv, hp, hr⟩ => ?_
  simp only [text_eq hp, text_eq hr, hh.display_eq hv]
  exact Agree.after _ fun _ => Agree.after _ fun _ => .ok (.str _)

end Words

/-! ## Lists and dictionaries -/

namespace Heap

/-- The values that are given are the same but for the containers, when the heaps have become the ones that
are given. -/
def Moved (ρ : Renaming) (h h' : Heap) (p q : Value × Heap) : Prop :=
  ∃ ρ₁, Moves ρ h h' ρ₁ p.2 q.2 ∧ ρ₁.Like p.1 q.1

theorem Alike.moved_refl (hh : Alike ρ h h') (hv : ρ.Like v w) : Moved ρ h h' (v, h) (w, h') :=
  ⟨ρ, hh.moves_refl, hv⟩

theorem Alike.moved_made (hh : Alike ρ h h') {vs ws : List Value} (hvs : Forall₂ ρ.Like vs ws) :
    Moved ρ h h' (Lists.made h vs) (Lists.made h' ws) := by
  obtain ⟨ρ₁, hmoves, hmaps⟩ := hh.newList hvs
  exact ⟨ρ₁, hmoves, .list hmaps⟩

end Heap

theorem Slice.apply_like (start stop : Option Int64) {vs ws : List Value} (hvs : Forall₂ ρ.Like vs ws) :
    Forall₂ ρ.Like (Slice.apply start stop vs) (Slice.apply start stop ws) := by
  simp only [Slice.apply, hvs.length_eq]
  exact List.forall₂_drop _ (List.forall₂_take _ hvs)

namespace Lists

variable (hh : Heap.Alike ρ h h') (hargs : Forall₂ ρ.Like args args')

include hh hargs

theorem push_agree : Agree (Heap.Moved ρ h h') (push h args) (push h' args') := by
  refine (two_agree hargs).bind fun (target, v) (target', v') ⟨htarget, hv⟩ => ?_
  refine (list_agree htarget).bind fun r s hrs => .ok ?_
  exact ⟨ρ, hh.setItems hrs (List.rel_append (hh.items hrs) (.cons hv .nil)), htarget⟩

theorem unshift_agree : Agree (Heap.Moved ρ h h') (unshift h args) (unshift h' args') := by
  refine (two_agree hargs).bind fun (target, v) (target', v') ⟨htarget, hv⟩ => ?_
  refine (list_agree htarget).bind fun r s hrs => .ok ?_
  exact ⟨ρ, hh.setItems hrs (.cons hv (hh.items hrs)), htarget⟩

omit hh hargs in
theorem head?_like {vs ws : List Value} (hvs : Forall₂ ρ.Like vs ws) :
    ρ.Like (vs.head?.getD .null) (ws.head?.getD .null) := by
  cases hvs with
  | nil => exact .null
  | cons hv _ => exact hv

omit hh hargs in
theorem getLast?_like {vs ws : List Value} (hvs : Forall₂ ρ.Like vs ws) :
    ρ.Like (vs.getLast?.getD .null) (ws.getLast?.getD .null) := by
  rw [List.getLast?_eq_head?_reverse, List.getLast?_eq_head?_reverse]
  exact head?_like (List.forall₂_reverse_iff.2 hvs)

theorem pop_agree : Agree (Heap.Moved ρ h h') (pop h args) (pop h' args') := by
  refine (one_agree hargs).bind fun target target' htarget => ?_
  rw [hh.truthy_eq htarget]
  split
  · exact .ok (hh.moved_refl .null)
  · refine (list_agree htarget).bind fun r s hrs => .ok ⟨ρ, hh.setItems hrs ?_, getLast?_like (hh.items hrs)⟩
    rw [List.dropLast_eq_take, List.dropLast_eq_take, (hh.items hrs).length_eq]
    exact List.forall₂_take _ (hh.items hrs)

theorem shift_agree : Agree (Heap.Moved ρ h h') (shift h args) (shift h' args') := by
  refine (one_agree hargs).bind fun target target' htarget => ?_
  rw [hh.truthy_eq htarget]
  split
  · exact .ok (hh.moved_refl .null)
  · refine (list_agree htarget).bind fun r s hrs => .ok ⟨ρ, hh.setItems hrs ?_, head?_like (hh.items hrs)⟩
    rw [← List.drop_one, ← List.drop_one]
    exact List.forall₂_drop _ (hh.items hrs)

theorem slice_agree : Agree (Heap.Moved ρ h h') (slice h args) (slice h' args') := by
  refine (twoOrThree_agree hargs).bind fun (v, start, stop) (w, start', stop') ⟨hv, hstart, hstop⟩ => ?_
  simp only [bound_eq hstart, bound_eq hstop]
  refine Agree.after _ fun low => Agree.after _ fun high => ?_
  cases hv with
  | list hrs => exact .ok (hh.moved_made (Slice.apply_like low high (hh.items hrs)))
  | str s => exact .ok (hh.moved_refl (.str _))
  | _ => exact .error _

theorem reverse_agree : Agree (Heap.Moved ρ h h') (reverse h args) (reverse h' args') := by
  refine (one_agree hargs).bind fun v w hv => ?_
  cases hv with
  | list hrs => exact .ok (hh.moved_made (List.forall₂_reverse_iff.2 (hh.items hrs)))
  | str s => exact .ok (hh.moved_refl (.str _))
  | _ => exact .error _

theorem sort_agree : Agree (Heap.Moved ρ h h') (sort h args) (sort h' args') := by
  refine (one_agree hargs).bind fun v w hv => (list_agree hv).bind fun r s hrs => ?_
  exact (Comparison.sorted_agree hh (hh.items hrs)).bind fun vs ws hvs => .ok (hh.moved_made hvs)

theorem split_agree : Agree (Heap.Moved ρ h h') (split h args) (split h' args') :=
  (Words.split_agree hh hargs).bind fun _ _ hvs => .ok (hh.moved_made hvs)

end Lists

namespace Dicts

variable (hh : Heap.Alike ρ h h') (hargs : Forall₂ ρ.Like args args')

include hh hargs

theorem keys_agree : Agree (Heap.Moved ρ h h') (keys h args) (keys h' args') := by
  refine (one_agree hargs).bind fun v w hv => ?_
  cases hv with
  | dict hrs =>
    have hkeys : (h.entries _).keys = (h'.entries _).keys :=
      Heap.map_eq_of_forall₂ (hh.entries hrs).forall₂ fun _ _ hab => hab.1
    dsimp only
    rw [hkeys]
    refine .ok (hh.moved_made (List.forall₂_same.2 fun v hv => ?_))
    obtain ⟨key, -, rfl⟩ := List.mem_map.1 hv
    exact .str key
  | _ => exact .ok (hh.moved_made .nil)

theorem values_agree : Agree (Heap.Moved ρ h h') (values h args) (values h' args') := by
  refine (one_agree hargs).bind fun v w hv => ?_
  cases hv with
  | dict hrs => exact .ok (hh.moved_made (List.rel_map (fun _ _ hab => hab.2) (hh.entries hrs).forall₂))
  | _ => exact .ok (hh.moved_made .nil)

theorem get_agree : Agree ρ.Like (get h args) (get h' args') := by
  refine (two_agree hargs).bind fun (target, key) (target', key') ⟨htarget, hkey⟩ => ?_
  cases htarget with
  | dict hrs =>
    simp only [hh.text_eq hkey]
    exact .ok (Renaming.getD_like (hh.entries hrs _))
  | _ => exact .ok .null

theorem set_agree : Agree (Heap.Moved ρ h h') (set h args) (set h' args') := by
  refine (three_agree hargs).bind fun (target, key, v) (target', key', v') ⟨htarget, hkey, hv⟩ => ?_
  cases htarget with
  | dict hrs =>
    simp only [hh.text_eq hkey]
    exact .ok ⟨ρ, hh.setEntries hrs ((hh.entries hrs).insert _ hv), .dict hrs⟩
  | list hrs => exact .ok (hh.moved_refl (.list hrs))
  | _ => exact .ok (hh.moved_refl (by constructor))

end Dicts

end PipeScript
