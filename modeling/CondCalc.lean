import CondCalc.Text.Span
import CondCalc.Text.Decimal
import CondCalc.Text.WhiteSpace
import CondCalc.Operator
import CondCalc.Token.Basic
import CondCalc.Token.Munch
import CondCalc.Token.Cursor
import CondCalc.Expr.Basic
import CondCalc.Expr.Outline
import CondCalc.Expr.SExpr
import CondCalc.Expr.SyntaxError
import CondCalc.Expr.Climb
import CondCalc.Value.Basic
import CondCalc.Value.EvalError
import CondCalc.Value.Apply
import CondCalc.Expr.Eval
import CondCalc.Mode
import CondCalc.Calculation
import CondCalc.Report
import CondCalc.Log.Level
import CondCalc.Log.Filter
import CondCalc.Log.Specification
import CondCalc.Command.Usage
import CondCalc.Command.Directory
import CondCalc.Command.Response
import CondCalc.Command.Session
import CondCalc.Command.Run
import CondCalc.Main
import CondCalc.Proofs.Outcome
import CondCalc.Proofs.Syntax.Grammar
import CondCalc.Proofs.Syntax.Steps
import CondCalc.Proofs.Syntax.Reading
import CondCalc.Proofs.Syntax.Refusal
import CondCalc.Proofs.Lexis.Munch
import CondCalc.Proofs.Lexis.Tiling
import CondCalc.Proofs.Evaluation.Exact
import CondCalc.Proofs.Evaluation.Course
import CondCalc.Proofs.Evaluation.Agreement
import CondCalc.Proofs.Syntax.Nodes
import CondCalc.Proofs.Modes.Check
import CondCalc.Proofs.Lexis.Row
import CondCalc.Proofs.Syntax.Writing
import CondCalc.Proofs.Calculation.Stages
import CondCalc.Proofs.Lexis.Places
import CondCalc.Proofs.Lexis.Failure
import CondCalc.Proofs.Calculation.Restriction
import CondCalc.Proofs.Syntax.Blame
import CondCalc.Proofs.Calculation.Labels
import CondCalc.Proofs.Evaluation.Typing
import CondCalc.Proofs.Syntax.Relabelling
import CondCalc.Proofs.Calculation.Relabelling
import CondCalc.Proofs.Calculation.Composition
import CondCalc.Proofs.Command.Lines
import CondCalc.Proofs.Command.Sources
import CondCalc.Proofs.Command.Exits
import CondCalc.Proofs.Command.Session
import CondCalc.Proofs.Lexis.Separation
import CondCalc.Proofs.Lexis.Trimming
import CondCalc.Proofs.Calculation.Trimming
import CondCalc.Proofs.Lexis.Impasse
import CondCalc.Proofs.Syntax.Fronts
import CondCalc.Proofs.Syntax.Depth
import CondCalc.Proofs.Evaluation.Strict
import CondCalc.Proofs.Evaluation.Skipping
import CondCalc.Proofs.Evaluation.Negation
import CondCalc.Proofs.Printing.Roots
import CondCalc.Proofs.Printing.SExpr
import CondCalc.Proofs.Syntax.InOrder
import CondCalc.Proofs.Printing.Outline
import CondCalc.Proofs.Lexis.Iteration
import CondCalc.Proofs.Modes.Exclusion
import CondCalc.Proofs.Stack
import CondCalc.Proofs.Syntax.Stack
import CondCalc.Proofs.Evaluation.Stack
import CondCalc.Proofs.Syntax.Levels
import CondCalc.Proofs.Syntax.Counting
import CondCalc.Proofs.Lexis.Slicing
