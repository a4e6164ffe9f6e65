/-
Outlines of syntax trees: one item a line, each level indented further.
-/
import PipeScript.Decimal.Layout
import PipeScript.Syntax
import PipeScript.Text.Quoted

namespace PipeScript

namespace Outline

/-- The lines of an item within a block: indented, with a comma after the last one. -/
def item : List String → List String
  | [] => []
  | [line] => ["    " ++ line ++ ","]
  | line :: lines => ("    " ++ line) :: item lines

/-- A heading, the items below it, and the closing line. Without items all is on one line. -/
def block (opening closing : String) (items : List (List String)) : List String :=
  if items = [] then [opening ++ closing] else opening :: items.flatMap item ++ [closing]

/-- The lines with a label before the first one. -/
def labelled (label : String) : List String → List String
  | [] => [label]
  | line :: lines => (label ++ line) :: lines

end Outline

namespace Literal

/-- The outline of a literal. -/
def outline : Literal → List String
  | .null => ["Null"]
  | .boolean b => Outline.block "Boolean(" ")" [[if b then "true" else "false"]]
  | .integer n => Outline.block "Integer(" ")" [[String.ofList (Integer.text n)]]
  | .float x => Outline.block "Float(" ")" [[String.ofList (Decimal.text .outline x)]]
  | .string s => Outline.block "String(" ")" [[Text.quoted s]]

end Literal

namespace Node

mutual

/-- The outline of a node. -/
def outline : Node → List String
  | .literal l => Outline.block "Literal(" ")" [l.outline]
  | .variable name => Outline.block "Variable(" ")" [[Text.quoted name]]
  | .call name args =>
    Outline.block "Pipe \x7b" "\x7d"
      [["name: " ++ Text.quoted name],
        Outline.labelled "args: " (Outline.block "[" "]" (outlines args))]
  | .assign name value =>
    Outline.block "Assign \x7b" "\x7d"
      [["name: " ++ Text.quoted name], Outline.labelled "value: " value.outline]

/-- The outlines of several nodes. -/
def outlines : List Node → List (List String)
  | [] => []
  | n :: ns => n.outline :: outlines ns

end

end Node

namespace Program

/-- The outline of a script. -/
def outline (p : Program) : String :=
  "\n".intercalate (Outline.block "[" "]" (Node.outlines p))

end Program

end PipeScript
