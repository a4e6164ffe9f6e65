/-
Splitting, joining and replacing. The parts that the text of a value is split into are the texts between the
occurrences of the separator that are found from the left. Joined by the separator they are the text again, and joined
by another text they are what comes of replacing the separator by it.
-/
import PipeScript.Builtin.Call
import PipeScript.Proofs.Heap.Copy
import PipeScript.Proofs.Heap.Display
import PipeScript.Proofs.Run
import PipeScript.Proofs.Text.Search

namespace PipeScript

variable {h : Heap} {σ : Type}

namespace Words

theorem split_str {d : String} (hd : d ≠ "") (v : Value) :
    split h [v, .str d] = .ok ((Text.splitAt d.toList (h.display v)).map ofChars) := by
  have hempty : d.isEmpty = false := by simpa using hd
  simp only [split, Arguments.two, Arguments.text, bind, Except.bind, hempty]
  rfl

theorem display_ofChars (cs : List Char) : h.display (ofChars cs) = cs := by
  rw [ofChars, Heap.display_str, String.toList_ofList]

/-- A list of texts is joined as these are. -/
theorem join_texts {q : ListRef} {parts : List (List Char)} (hq : h.items q = parts.map ofChars) (r : String) :
    join h [.list q, .str r] = .ok (ofChars (Text.joinWith r.toList parts)) := by
  have hdisplay : (h.items q).map h.display = parts := by
    rw [hq, List.map_map]
    exact List.map_id'' display_ofChars parts
  have hjoin : join h [.list q, .str r] =
      .ok (ofChars (Text.joinWith r.toList ((h.items q).map h.display))) := rfl
  rw [hjoin, hdisplay]

end Words

namespace Builtin

open Words

variable (fuel : Nat) (call : Caller σ)

theorem run_split_str {d : String} (hd : d ≠ "") (v : Value) (w : World σ) :
    (split.run fuel call [v, .str d]).run.run w =
      (Run.newList ((Text.splitAt d.toList (w.heap.display v)).map ofChars)).run.run w := by
  have hsplit : Lists.split w.heap [v, .str d] = Words.split w.heap [v, .str d] >>= fun parts =>
      .ok (Lists.made w.heap parts) := rfl
  rw [Run.run_newList]
  refine (Run.run_changing (Lists.split · _) w).trans ?_
  rw [hsplit, split_str hd]
  rfl

theorem run_join_texts {w : World σ} {q : ListRef} {parts : List (List Char)}
    (hq : w.heap.items q = parts.map ofChars) (r : String) :
    (join.run fuel call [.list q, .str r]).run.run w = (.ok (ofChars (Text.joinWith r.toList parts)), w) := by
  refine (Run.run_reading (Words.join · _) w).trans ?_
  rw [join_texts hq]
  rfl

theorem run_replace_str (v : Value) (d r : String) (w : World σ) :
    (replace.run fuel call [v, .str d, .str r]).run.run w =
      (.ok (ofChars (Text.replaceAll d.toList r.toList (w.heap.display v))), w) :=
  Run.run_reading (Words.replace · _) w

/-- The text of a value is split at the occurrences of the separator that are found from the left, so that there is
one part more than there are of these, and no part has the separator in it. Joined again by the separator the parts
are the text, and joined by another text they are the text with the separator replaced. -/
theorem run_split_join {d : String} (hd : d ≠ "") (v : Value) (fuel : Nat) (call : Caller σ) (w : World σ) :
    ∃ (parts : List String) (q : ListRef) (w' : World σ),
      (split.run fuel call [v, .str d]).run.run w = (.ok (.list q), w') ∧ w'.heap.items q = parts.map .str ∧
      (join.run fuel call [.list q, .str d]).run.run w' = (.ok (.str (w.heap.text v)), w') ∧
      (∀ part ∈ parts, ¬d.toList <:+: part.toList) ∧
      (∃ places, (∀ row, Text.FoundFromLeft d.toList (w.heap.display v) row ↔ row = places) ∧
        places = Text.separators d.toList.length (parts.map String.toList) ∧ parts.length = places.length + 1) ∧
      ∀ r : String, ∃ t, (replace.run fuel call [v, .str d, .str r]).run.run w = (.ok (.str t), w) ∧
        (join.run fuel call [.list q, .str r]).run.run w' = (.ok (.str t), w') := by
  have hne : d.toList ≠ [] := by simpa using hd
  let parts := Text.splitAt d.toList (w.heap.display v)
  let places := Text.separators d.toList.length parts
  let w' : World σ := { w with heap := (w.heap.newList (parts.map ofChars)).2 }
  let q := (w.heap.newList (parts.map ofChars)).1
  have hitems : w'.heap.items q = parts.map ofChars := by
    rw [Heap.items_newList, if_pos rfl]
  have hparts : (parts.map String.ofList).map String.toList = parts := by
    rw [List.map_map]
    exact List.map_id'' (fun _ => String.toList_ofList) parts
  have hplaces : Text.FoundFromLeft d.toList (w.heap.display v) places := Text.foundFromLeft_separators hne _
  refine ⟨parts.map String.ofList, q, w', ?_, ?_, ?_, ?_, ⟨places, fun row => ?_, ?_, ?_⟩, fun r => ?_⟩
  · exact (run_split_str fuel call hd v w).trans (Run.run_newList _ w)
  · rw [hitems, List.map_map]
    rfl
  · rw [run_join_texts fuel call hitems, Text.joinWith_splitAt hne]
    rfl
  · rw [List.forall_mem_map]
    intro part hpart
    rw [String.toList_ofList]
    exact Text.not_infix_of_mem_splitAt hne _ part hpart
  · constructor
    · intro hrow
      exact hrow.unique hne hplaces
    · rintro rfl
      exact hplaces
  · rw [hparts]
  · rw [List.length_map, Text.length_separators_add_one (Text.splitAt_ne_nil _ _)]
  · refine ⟨_, run_replace_str fuel call v d r w, ?_⟩
    rw [run_join_texts fuel call hitems, Text.joinWith_splitAt_eq_replaceAll hne]
    rfl

/-- In `"aaa"` the separator `"aa"` occurs twice but is found once, so that there are two parts. -/
theorem run_split_overlapping : ("aa" : String) ≠ "" ∧ ∃ (parts : List String) (q : ListRef) (w' : World Unit),
    (split.run 0 (fun _ _ => throw .exhausted) [.str "aaa", .str "aa"]).run.run emptyWorld = (.ok (.list q), w') ∧
      w'.heap.items q = parts.map .str ∧ parts.length = 2 ∧
      (join.run 0 (fun _ _ => throw .exhausted) [.list q, .str "aa"]).run.run w' = (.ok (.str "aaa"), w') := by
  refine ⟨by decide, ?_⟩
  obtain ⟨parts, q, w', hsplit, hitems, hjoin, -, ⟨places, hplaces, -, hlength⟩, -⟩ :=
    run_split_join (by decide : ("aa" : String) ≠ "") (.str "aaa") 0 (fun _ _ => throw .exhausted) emptyWorld
  have hdisplay : emptyWorld.heap.display (.str "aaa") = ['a', 'a', 'a'] := Heap.display_str _ _
  have hfound : Text.FoundFromLeft ['a', 'a'] ['a', 'a', 'a'] [0] := by
    refine ⟨by decide, List.pairwise_singleton _ _, fun j hj => ⟨0, List.mem_singleton_self 0, Nat.zero_le j, ?_⟩⟩
    have hle := hj.length_le
    simp only [List.length_drop, List.length_cons, List.length_nil] at hle ⊢
    omega
  have hone : [0] = places := (hplaces [0]).1 (hdisplay ▸ hfound)
  refine ⟨parts, q, w', hsplit, hitems, ?_, ?_⟩
  · rw [hlength, ← hone]
    rfl
  · rw [hjoin, Heap.text, hdisplay]

end Builtin

end PipeScript
