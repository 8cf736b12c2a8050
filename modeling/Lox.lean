import Lox.Token
import Lox.Token.Piece
import Lox.Token.Scan
import Lox.Decimal
import Lox.Decimal.Shortest
import Lox.Diagnostic
import Lox.Tree
import Lox.Value
import Lox.Fault
import Lox.Scope
import Lox.Config
import Lox.Grammar.Problem
import Lox.Grammar.Cursor
import Lox.Grammar.Expression
import Lox.Grammar.Statement
import Lox.Program
import Lox.Machine.State
import Lox.Machine.Run
import Lox.Machine.Operator
import Lox.Machine.Evaluate
import Lox.Machine.Interpret
import Lox.Config.Policy
import Lox.File
import Lox.Log
import Lox.Report
import Lox.CommandLine.Options
import Lox.Session
import Lox.Session.Command
import Lox.CommandLine
import Lox.Main
import Lox.Proofs.Parallel
import Lox.Proofs.Fuel
import Lox.Proofs.Policy
import Lox.Proofs.Watched
import Lox.Proofs.Control
import Lox.Proofs.Chronicle
import Lox.Proofs.Privacy
import Lox.Proofs.Grammar.Writing
import Lox.Proofs.Scanning
import Lox.Proofs.Blind
import Lox.Proofs.Grammar.Relabel
import Lox.Proofs.Straight
import Lox.Proofs.Trace
import Lox.Proofs.Incremental
import Lox.Proofs.Defences
import Lox.Proofs.Halting
import Lox.Proofs.Overflow
import Lox.Proofs.Pruned
import Lox.Proofs.Pruning
import Lox.Proofs.Observed
import Lox.Proofs.Channels
import Lox.Proofs.Lexicon
import Lox.Proofs.Layout
import Lox.Proofs.Grammar.Journal
import Lox.Proofs.Grammar.Segment
import Lox.Proofs.Lookup
import Lox.Proofs.Moved
import Lox.Proofs.Padding
import Lox.Proofs.Padded
import Lox.Proofs.Grammar.Yield
import Lox.Proofs.Blocks
import Lox.Proofs.Turns
import Lox.Proofs.ForLoop
import Lox.Proofs.Numerals
import Lox.Proofs.Doubles
import Lox.Proofs.Rounding
import Lox.Proofs.Seventeen
import Lox.Proofs.NumberText
import Lox.Proofs.Separation
import Lox.Proofs.Bookkeeping
import Lox.Proofs.Inspecting
import Lox.Proofs.Equality
