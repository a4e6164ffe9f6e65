/-
From tokens to syntax trees. Reading never fails: what begins no expression is read as null, and
every such recovery is noted with its place.

The arguments of a call run on until the next call, the next assignment, the end of the source, or
a variable that opens a new line. So no call is ever an argument, and an operand, that is an
expression other than a call, needs no look further back than the token before it.
-/
import PipeScript.Syntax
import PipeScript.Token

namespace PipeScript

/-- What reading some tokens gave: a value, the recoveries made, the last token that was read, and
the tokens left over. -/
structure Reading (α : Type) where
  value : α
  notes : List Diagnostic
  last : Token
  rest : List Token

namespace Syntax

/-- The literal of a number token. A malformed one is null. -/
def number (t : Token) : Literal × List Diagnostic :=
  match Literal.ofNumber? t.slice.toList with
  | some l => (l, [])
  | none => (.null, [⟨.malformedNumber t.slice, t.span⟩])

/-- The value of a keyword. -/
def keyword (slice : String) : Literal :=
  if slice = "true" then .boolean true else if slice = "false" then .boolean false else .null

/-- Reads the name after the mark of a variable. Without one the name is empty, and nothing more
than the mark is read; `stop` is the place of the end of the source. -/
def name (stop : Span) (mark : Char) (marker : Token) : List Token → Reading String
  | [] => ⟨"", [⟨.missingName mark, stop⟩], marker, []⟩
  | t :: rest =>
    if t.kind = .identifier then ⟨t.slice, [], t, rest⟩
    else ⟨"", [⟨.missingName mark, t.span⟩], marker, t :: rest⟩

/-- Reads the expression that begins with the token `t` and is no call. A minus sign negates a
number that follows it, and alone is minus one. -/
def operand (stop : Span) (t : Token) (rest : List Token) : Reading Node :=
  match t.kind with
  | .string | .identifier => ⟨.literal (.string t.slice), [], t, rest⟩
  | .number =>
    let (value, notes) := number t
    ⟨.literal value, notes, t, rest⟩
  | .keyword => ⟨.literal (keyword t.slice), [], t, rest⟩
  | .variable =>
    let r := name stop '!' t rest
    { r with value := .variable r.value }
  | _ =>
    if t.kind = .symbol ∧ t.slice = "-" then
      match rest with
      | n :: rest' =>
        if n.kind = .number then
          let (value, notes) := number n
          ⟨.literal value.negate, notes, n, rest'⟩
        else ⟨.literal (.integer (-1)), [], t, rest⟩
      | [] => ⟨.literal (.integer (-1)), [], t, rest⟩
    else ⟨.null, [⟨.unexpectedToken t.kind t.slice, t.span⟩], t, rest⟩

/-- Whether the token `t`, which comes after `last`, ends the arguments of a call. -/
def endsArguments (last t : Token) : Bool :=
  match t.kind with
  | .pipe | .assign | .eof => true
  | .variable => last.span.line < t.span.line
  | _ => false

theorem name_rest_length_le (stop : Span) (mark : Char) (marker : Token) (ts : List Token) :
    (name stop mark marker ts).rest.length ≤ ts.length := by
  unfold name
  repeat' split
  all_goals simp

theorem operand_rest_length_le (stop : Span) (t : Token) (rest : List Token) :
    (operand stop t rest).rest.length ≤ rest.length := by
  have := name_rest_length_le stop '!' t rest
  unfold operand
  repeat' split
  all_goals simp_all

/-- Reads the arguments of a call, the token `last` being read. Colons between them are optional. -/
def arguments (stop : Span) (last : Token) (ts : List Token) : Reading (List Node) :=
  match ts with
  | [] => ⟨[], [], last, []⟩
  | t :: rest =>
    if endsArguments last t then ⟨[], [], last, t :: rest⟩
    else if t.isColon then arguments stop t rest
    else
      let first := operand stop t rest
      let others := arguments stop first.last first.rest
      ⟨first.value :: others.value, first.notes ++ others.notes, others.last, others.rest⟩
termination_by ts.length
decreasing_by
  · simp
  · exact Nat.lt_succ_of_le (operand_rest_length_le ..)

/-- Reads the call that the token `t` opens. -/
def call (stop : Span) (t : Token) (rest : List Token) : Reading Node :=
  let r := arguments stop t rest
  { r with value := .call t.slice r.value }

/-- Reads the expression that begins with the token `t`. -/
def expression (stop : Span) (t : Token) (rest : List Token) : Reading Node :=
  if t.kind = .pipe then call stop t rest else operand stop t rest

/-- Reads the value of an assignment, the token `last` being read. -/
def assigned (stop : Span) (last : Token) : List Token → Reading Node
  | [] => ⟨.null, [⟨.missingExpression, stop⟩], last, []⟩
  | t :: rest => expression stop t rest

/-- Takes one colon off the front, the token `last` being read. -/
def skipColon (last : Token) : List Token → Token × List Token
  | [] => (last, [])
  | t :: rest => if t.isColon then (t, rest) else (last, t :: rest)

/-- Reads the assignment that the token `t` opens. -/
def assignment (stop : Span) (t : Token) (rest : List Token) : Reading Node :=
  let target := name stop '&' t rest
  let (last, rest) := skipColon target.last target.rest
  let value := assigned stop last rest
  ⟨.assign target.value value.value, target.notes ++ value.notes, value.last, value.rest⟩

/-- Reads the statement that begins with the token `t`. -/
def statement (stop : Span) (t : Token) (rest : List Token) : Reading Node :=
  if t.kind = .assign then assignment stop t rest else expression stop t rest

theorem arguments_rest_length_le (stop : Span) (last : Token) (ts : List Token) :
    (arguments stop last ts).rest.length ≤ ts.length := by
  fun_induction arguments stop last ts with
  | case1 => simp
  | case2 => simp
  | case3 last t rest _ _ ih => exact Nat.le_succ_of_le ih
  | case4 last t rest _ _ first others ih =>
    exact Nat.le_succ_of_le (Nat.le_trans ih (operand_rest_length_le stop t rest))

theorem expression_rest_length_le (stop : Span) (t : Token) (rest : List Token) :
    (expression stop t rest).rest.length ≤ rest.length := by
  unfold expression
  split
  · exact arguments_rest_length_le ..
  · exact operand_rest_length_le ..

theorem assigned_rest_length_le (stop : Span) (last : Token) (ts : List Token) :
    (assigned stop last ts).rest.length ≤ ts.length := by
  cases ts with
  | nil => simp [assigned]
  | cons t rest => exact Nat.le_succ_of_le (expression_rest_length_le ..)

theorem skipColon_rest_length_le (last : Token) (ts : List Token) :
    (skipColon last ts).2.length ≤ ts.length := by
  unfold skipColon
  repeat' split
  all_goals simp

theorem statement_rest_length_le (stop : Span) (t : Token) (rest : List Token) :
    (statement stop t rest).rest.length ≤ rest.length := by
  unfold statement
  split
  · unfold assignment
    exact Nat.le_trans (assigned_rest_length_le ..)
      (Nat.le_trans (skipColon_rest_length_le ..) (name_rest_length_le ..))
  · exact expression_rest_length_le ..

/-- Reads statements up to the end. -/
def statements (stop : Span) (ts : List Token) : Program × List Diagnostic :=
  match ts with
  | [] => ([], [])
  | t :: rest =>
    let first := statement stop t rest
    let others := statements stop first.rest
    (first.value :: others.1, first.notes ++ others.2)
termination_by ts.length
decreasing_by exact Nat.lt_succ_of_le (statement_rest_length_le ..)

end Syntax

/-- A script with the recoveries that were made in reading it. -/
structure Parsed where
  program : Program
  diagnostics : List Diagnostic

/-- The place of the first end mark among the tokens. Without one the script ends where its last
token begins. -/
def endSpan (ts : List Token) : Span :=
  match ts.find? (·.kind == .eof) with
  | some t => t.span
  | none => (ts.getLast?.map (·.span)).getD .start

/-- Reads the tokens up to the first end mark. -/
def parse (ts : List Token) : Parsed :=
  let (program, diagnostics) :=
    Syntax.statements (endSpan ts) (ts.takeWhile (·.kind != .eof))
  ⟨program, diagnostics⟩

end PipeScript
