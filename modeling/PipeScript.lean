import PipeScript.Text.CodeRange
import PipeScript.Text.Letter
import PipeScript.Text.Blank
import PipeScript.Text.Printable
import PipeScript.Text.Casing.Context
import PipeScript.Text.Casing.Table
import PipeScript.Text.Casing
import PipeScript.Text.Quoted
import PipeScript.Text.Search
import PipeScript.Text.Utf8
import PipeScript.Text.Digits
import PipeScript.Number.Integer
import PipeScript.Number.Binary
import PipeScript.Decimal.Shortest
import PipeScript.Decimal.Layout
import PipeScript.Decimal.Reading
import PipeScript.Token
import PipeScript.Token.Lexer
import PipeScript.Syntax
import PipeScript.Syntax.Parser
import PipeScript.Syntax.Outline
import PipeScript.Syntax.Compile
import PipeScript.Builtin.Name
import PipeScript.Value
import PipeScript.Table
import PipeScript.Heap
import PipeScript.Heap.Path
import PipeScript.Heap.Order
import PipeScript.Heap.Equality
import PipeScript.Heap.Display
import PipeScript.Failure
import PipeScript.Context
import PipeScript.Run
import PipeScript.Builtin.Arguments
import PipeScript.Builtin.Arithmetic
import PipeScript.Builtin.Comparison
import PipeScript.Builtin.Words
import PipeScript.Builtin.Kinds
import PipeScript.Builtin.Lists
import PipeScript.Builtin.Dicts
import PipeScript.Builtin.Console
import PipeScript.Builtin.Iteration
import PipeScript.Builtin.Branching
import PipeScript.Builtin.Call
import PipeScript.Environment
import PipeScript.Evaluator
import PipeScript.Interactive
import PipeScript.CommandLine
import PipeScript.Draws
import PipeScript.Main
import PipeScript.Proofs.Table
import PipeScript.Proofs.Input
import PipeScript.Proofs.Number.Integer
import PipeScript.Proofs.Number.Numeral
import PipeScript.Proofs.Token.Lexer
import PipeScript.Proofs.Token.Written
import PipeScript.Proofs.Token.Line
import PipeScript.Proofs.Token.Mark
import PipeScript.Proofs.Token.Joined
import PipeScript.Proofs.Token.Account
import PipeScript.Proofs.Token.Place
import PipeScript.Proofs.Syntax.Parser
import PipeScript.Proofs.Syntax.Shape
import PipeScript.Proofs.Syntax.Position
import PipeScript.Proofs.Syntax.Writer
import PipeScript.Proofs.Syntax.RoundTrip
import PipeScript.Proofs.Syntax.Grammar
import PipeScript.Proofs.Syntax.Derivation
import PipeScript.Proofs.Syntax.Terminator
import PipeScript.Proofs.Syntax.Joined
import PipeScript.Proofs.Syntax.Naming
import PipeScript.Proofs.Syntax.Recovery
import PipeScript.Proofs.Syntax.Numbers
import PipeScript.Proofs.Heap.Search
import PipeScript.Proofs.Heap.Equality
import PipeScript.Proofs.Heap.Level
import PipeScript.Proofs.Heap.Nesting
import PipeScript.Proofs.Heap.Difference
import PipeScript.Proofs.Heap.Transitivity
import PipeScript.Proofs.Heap.Copy
import PipeScript.Proofs.Text.Quoted
import PipeScript.Proofs.Text.Search
import PipeScript.Proofs.Heap.Display
import PipeScript.Proofs.Heap.Structure
import PipeScript.Proofs.Heap.Coherence
import PipeScript.Proofs.Number.Binary
import PipeScript.Proofs.Number.Rounding
import PipeScript.Proofs.Heap.Numbers
import PipeScript.Proofs.Heap.Renaming
import PipeScript.Proofs.Sorting.Procedure
import PipeScript.Proofs.Sorting.Insertion
import PipeScript.Proofs.Sorting.Lists
import PipeScript.Proofs.Sorting.Preorder
import PipeScript.Proofs.Sorting.Extreme
import PipeScript.Proofs.Evaluator.Steps
import PipeScript.Proofs.Evaluator.Halting
import PipeScript.Proofs.Evaluator.Integers
import PipeScript.Proofs.Evaluator.Plain
import PipeScript.Proofs.Heap.Plain
import PipeScript.Proofs.Run
import PipeScript.Proofs.Builtin.Results
import PipeScript.Proofs.Builtin.Change
import PipeScript.Proofs.Builtin.Frame
import PipeScript.Proofs.Builtin.Dicts
import PipeScript.Proofs.Builtin.Power
import PipeScript.Proofs.Builtin.Arithmetic
import PipeScript.Proofs.Builtin.Remainder
import PipeScript.Proofs.Builtin.Slice
import PipeScript.Proofs.Builtin.Split
import PipeScript.Proofs.Builtin.Iteration
import PipeScript.Proofs.Builtin.Alternation
import PipeScript.Proofs.Builtin.Outside
import PipeScript.Proofs.Builtin.Alike
import PipeScript.Proofs.Builtin.Blind
import PipeScript.Proofs.Evaluator.Joined
import PipeScript.Proofs.Evaluator.Reading
import PipeScript.Proofs.Evaluator.Resolution
import PipeScript.Proofs.Evaluator.Blind
import PipeScript.Proofs.Interactive
import PipeScript.Proofs.Sharing
