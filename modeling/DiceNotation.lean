import DiceNotation.Binary64.Basic
import DiceNotation.Binary64.Arith
import DiceNotation.Decimal.Shortest
import DiceNotation.Decimal.Layout
import DiceNotation.Text.Blank
import DiceNotation.Text.Digit
import DiceNotation.Number.Basic
import DiceNotation.Numeral
import DiceNotation.Text.Printable
import DiceNotation.Text.Quoted
import DiceNotation.Operator
import DiceNotation.Expr.Basic
import DiceNotation.Fault
import DiceNotation.Expr.Printer
import DiceNotation.Number.Text
import DiceNotation.Token.Basic
import DiceNotation.ParseError
import DiceNotation.Token.Scan
import DiceNotation.Expr.Parser
import DiceNotation.Expr.ParseDepth
import DiceNotation.Token.Stream
import DiceNotation.Dice
import DiceNotation.Value
import DiceNotation.Expr.Eval
import DiceNotation.Expr.Simplify
import DiceNotation.Assignment
import DiceNotation.Toml.Value
import DiceNotation.Toml.Reader
import DiceNotation.Settings
import DiceNotation.Text.CellWidth
import DiceNotation.Console.Wrap
import DiceNotation.Console.Table
import DiceNotation.Random.Twister
import DiceNotation.Command.Line
import DiceNotation.Command.Run
import DiceNotation.Main
import DiceNotation.Proofs.CallDepth
import DiceNotation.Proofs.Grammar
import DiceNotation.Proofs.PrintDepth
import DiceNotation.Proofs.ReadDepth
import DiceNotation.Proofs.Binary64.Round
import DiceNotation.Proofs.Decimal.Shortest
import DiceNotation.Proofs.NumberText
import DiceNotation.Proofs.RoundTrip
import DiceNotation.Proofs.RollsFirst
import DiceNotation.Proofs.NormalForm
import DiceNotation.Proofs.SimplifyOutcome
import DiceNotation.Proofs.SimplifyLeaves
import DiceNotation.Proofs.MergeExact
import DiceNotation.Proofs.StreamScan
import DiceNotation.Proofs.Binary64.Canonical
import DiceNotation.Proofs.ReadBack
import DiceNotation.Proofs.TotalArithmetic
import DiceNotation.Proofs.NeededParens
import DiceNotation.Proofs.TextMeaning
import DiceNotation.Proofs.Binary64.Monotone
import DiceNotation.Proofs.DieRange
import DiceNotation.Proofs.FloatRange
import DiceNotation.Proofs.FaultPosition
