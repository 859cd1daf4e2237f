import Prattle.Source.Position
import Prattle.Text.WhiteSpace
import Prattle.Text.Plain
import Prattle.Text.Quoted
import Prattle.Token.Kind
import Prattle.Token.Lexeme
import Prattle.Token.Basic
import Prattle.Token.Scanner
import Prattle.Token.Reader
import Prattle.Numeral
import Prattle.SyntaxError
import Prattle.Expr.Operator
import Prattle.Expr.Basic
import Prattle.Grammar
import Prattle.Token.Cursor
import Prattle.Expr.Climb
import Prattle.Stmt.Basic
import Prattle.Stmt.Reading
import Prattle.Log
import Prattle.Parser
import Prattle.Source.Line
import Prattle.Diagnostic
import Prattle.FileTree
import Prattle.CommandLine
import Prattle.Main
import Prattle.Proofs.Climbing
import Prattle.Proofs.Relocation
import Prattle.Proofs.Layers
import Prattle.Proofs.Rendering
import Prattle.Proofs.RoundTrip
import Prattle.Proofs.Phrases
import Prattle.Proofs.Precedence
import Prattle.Proofs.Acceptance
import Prattle.Proofs.Simulation
import Prattle.Proofs.Resynchronisation
import Prattle.Proofs.Spelling
import Prattle.Proofs.Cutting
import Prattle.Proofs.Tokenization
import Prattle.Proofs.Runs
import Prattle.Proofs.Completion
import Prattle.Proofs.FirstError
import Prattle.Proofs.Parsed
import Prattle.Proofs.Fusion
import Prattle.Proofs.Layout
import Prattle.Proofs.Opacity
import Prattle.Proofs.Calls
import Prattle.Proofs.Changes
import Prattle.Proofs.OnePass
import Prattle.Proofs.Chronicle
import Prattle.Proofs.PhraseReadings
import Prattle.Proofs.Substitution
import Prattle.Proofs.Separation
import Prattle.Proofs.Nodes
import Prattle.Proofs.ErrorOrder
import Prattle.Proofs.Quotation
import Prattle.Proofs.Caret
import Prattle.Proofs.Sessions
import Prattle.Proofs.Numerals
import Prattle.Proofs.Offsets
import Prattle.Proofs.Files
