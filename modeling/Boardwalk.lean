import Boardwalk.Board.Basic
import Boardwalk.Board.Layout
import Boardwalk.Board.Point
import Boardwalk.Cli.Answer
import Boardwalk.Cli.Arguments
import Boardwalk.Cli.Files
import Boardwalk.Command.Basic
import Boardwalk.Command.Builder
import Boardwalk.Command.Example
import Boardwalk.Command.Json
import Boardwalk.Command.Keyword
import Boardwalk.Command.Listing
import Boardwalk.Command.Metrics
import Boardwalk.Json.Basic
import Boardwalk.Json.Printer
import Boardwalk.Json.Reader
import Boardwalk.Log
import Boardwalk.Main
import Boardwalk.Proofs.Indentation
import Boardwalk.Proofs.Listing
import Boardwalk.Proofs.Outline
import Boardwalk.Proofs.Parsing
import Boardwalk.Proofs.Printed
import Boardwalk.Proofs.Stretch
import Boardwalk.Proofs.Text
import Boardwalk.Release
import Boardwalk.Run.Event
import Boardwalk.Run.Machine
import Boardwalk.Run.Operation
import Boardwalk.Run.Trace
import Boardwalk.Source.Error
import Boardwalk.Source.Line
import Boardwalk.Source.Notice
import Boardwalk.Source.Outline
import Boardwalk.Source.Statement
import Boardwalk.Text.Blank
import Boardwalk.Text.Decimal
import Boardwalk.Text.Letters
import Boardwalk.Text.Lines
import Boardwalk.Text.Terminal
import Boardwalk.Walk.Walker
import Boardwalk.Web
import Boardwalk.Proofs.Replay
import Boardwalk.Proofs.History
import Boardwalk.Proofs.Limits
import Boardwalk.Proofs.Faults
import Boardwalk.Proofs.FrontEnds
import Boardwalk.Proofs.StepCount
import Boardwalk.Proofs.Unrolling
import Boardwalk.Proofs.Boundaries
import Boardwalk.Proofs.SafeWalking
import Boardwalk.Proofs.Numerals
import Boardwalk.Proofs.Grammar
import Boardwalk.Proofs.Statements
import Boardwalk.Proofs.FixedCost
import Boardwalk.Proofs.WallWalk
import Boardwalk.Proofs.BoardRows
import Boardwalk.Proofs.Layouts
import Boardwalk.Proofs.Lookup
import Boardwalk.Proofs.Moves
import Boardwalk.Proofs.Numbering
import Boardwalk.Proofs.BlankLines
import Boardwalk.Proofs.LineEnds
import Boardwalk.Proofs.TextMetrics
import Boardwalk.Proofs.Warnings
import Boardwalk.Proofs.Chronicle
import Boardwalk.Proofs.FreerBoards
