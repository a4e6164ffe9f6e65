/-
The text of a value. Texts stand for themselves, but are quoted inside a list or dictionary. A list
or dictionary inside itself is written as dots between its brackets.
-/
import PipeScript.Decimal.Layout
import PipeScript.Heap.Path
import PipeScript.Text.Quoted

namespace PipeScript.Heap

/-- The items with a comma and a space between each two. -/
def listed (items : List (List Char)) : List Char :=
  [',', ' '].intercalate items

/-- The text of a value that is neither a list nor a dictionary. -/
def leafText : Value → List Char
  | .null => "null".toList
  | .bool b => (if b then "true" else "false").toList
  | .int n => Integer.text n
  | .float x => Decimal.text .value x
  | .str s => s.toList
  | .function f => "<function ".toList ++ f.name.toList ++ ['>']
  | .list _ | .dict _ => []

/-- The text of a value inside a container, where `text` gives that of a value on its own. -/
def nested (text : Value → List Char) : Value → List Char
  | .str s => Text.quotedBy '"' s.toList
  | v => text v

/-- The text of an entry of a dictionary. -/
def entryText (text : Value → List Char) (e : String × Value) : List Char :=
  Text.quotedBy '"' e.1.toList ++ [':', ' '] ++ nested text e.2

/-- The text of a value inside the open containers. -/
def textIn (h : Heap) (opened : List Container) (v : Value) : List Char :=
  match v with
  | .list r =>
    if .list r ∈ opened then "[...]".toList
    else if _inside : h.Has (.list r) ∧ .list r ∉ opened then
      '[' :: listed ((h.items r).map (nested fun x => h.textIn (.list r :: opened) x)) ++ [']']
    else "[]".toList
  | .dict r =>
    if .dict r ∈ opened then "\x7b...\x7d".toList
    else if _inside : h.Has (.dict r) ∧ .dict r ∉ opened then
      '\x7b' :: listed ((h.entries r).entries.map
        (entryText fun x => h.textIn (.dict r :: opened) x)) ++ ['\x7d']
    else "\x7b\x7d".toList
  | v => leafText v
termination_by unmet h.containers opened
decreasing_by all_goals exact unmet_cons_lt (mem_containers.2 _inside.1) _inside.2

/-- The text of a value. -/
def display (h : Heap) (v : Value) : List Char :=
  h.textIn [] v

/-- The text of a value, as a text value. -/
def text (h : Heap) (v : Value) : String :=
  String.ofList (h.display v)

/-- The text of a value with its type, as in outlines of variables. -/
def outline (h : Heap) : Value → String
  | .null => "Null"
  | .bool b => "Boolean(" ++ (if b then "true" else "false") ++ ")"
  | .int n => "Integer(" ++ String.ofList (Integer.text n) ++ ")"
  | .float x => "Float(" ++ String.ofList (Decimal.text .outline x) ++ ")"
  | .str s => "String(" ++ Text.quoted s ++ ")"
  | .list r => "Array(" ++ h.text (.list r) ++ ")"
  | .dict r => "Map(" ++ h.text (.dict r) ++ ")"
  | .function f => "Native(" ++ f.name ++ ")"

/-- A list that is not open yet is written item by item. -/
theorem textIn_list {h : Heap} {opened : List Container} {r : ListRef} (hr : .list r ∉ opened) :
    h.textIn opened (.list r) =
      '[' :: listed ((h.items r).map (nested (h.textIn (.list r :: opened)))) ++ [']'] := by
  rw [textIn, if_neg hr]
  split
  · rfl
  · next hn =>
    rw [items_eq_nil fun hs => hn ⟨hs, hr⟩]
    rfl

end PipeScript.Heap
