import InlineValues.Main
import InlineValues.CommandLine.LogFormat
import InlineValues.Proofs.Text.Utf16
import InlineValues.Proofs.Text.LineMap
import InlineValues.Proofs.Text.Comment
import InlineValues.Proofs.Token.Lexer
import InlineValues.Proofs.Token.Trivia
import InlineValues.Proofs.Token.Tiling
import InlineValues.Proofs.Token.Reread
import InlineValues.Proofs.Token.Literal
import InlineValues.Proofs.Token.LineBreak
import InlineValues.Proofs.Token.Spelling
import InlineValues.Proofs.Token.Fault
import InlineValues.Proofs.Token.Snapshot
import InlineValues.Proofs.Tree.Occurrence
import InlineValues.Proofs.Tree.Links
import InlineValues.Proofs.Tree.Nesting
import InlineValues.Proofs.Grammar.TypeExpression
import InlineValues.Proofs.Grammar.Arrow
import InlineValues.Proofs.Grammar.Block
import InlineValues.Proofs.Grammar.Binding
import InlineValues.Proofs.Grammar.Member
import InlineValues.Proofs.Grammar.Expression
import InlineValues.Proofs.Grammar.Assignment
import InlineValues.Proofs.Grammar.Declaration
import InlineValues.Proofs.Grammar.Statement
import InlineValues.Proofs.Grammar.SourceFile
import InlineValues.Proofs.Grammar.ParsedFile
import InlineValues.Proofs.Grammar.Diagnostics
import InlineValues.Proofs.Nesting.Basic
import InlineValues.Proofs.Nesting.TypeExpression
import InlineValues.Proofs.Nesting.Member
import InlineValues.Proofs.Nesting.Expression
import InlineValues.Proofs.Nesting.Statement
import InlineValues.Proofs.Nesting.SourceFile
import InlineValues.Proofs.Nesting.Unguarded
import InlineValues.Proofs.Query.TokenAt
import InlineValues.Proofs.Query.Scope
import InlineValues.Proofs.Query.Row
import InlineValues.Proofs.Query.Walk
import InlineValues.Proofs.Query.Report
import InlineValues.Proofs.Query.MoreScopes
import InlineValues.Proofs.Query.Visible
import InlineValues.Proofs.Query.Chain
import InlineValues.Proofs.Query.ScopeChain
import InlineValues.Proofs.Query.Partition
import InlineValues.Proofs.Query.WayOut
import InlineValues.Proofs.Document.Units
import InlineValues.Proofs.Document.Lines
import InlineValues.Proofs.Document.Coordinates
import InlineValues.Proofs.Token.Lexeme
import InlineValues.Proofs.Token.Reading
import InlineValues.Proofs.Grammar.Lookahead
import InlineValues.Proofs.Printer.Lexemes
import InlineValues.Proofs.Printer.Operation
import InlineValues.Proofs.Printer.Pieces
import InlineValues.Proofs.Printer.OneLine
import InlineValues.Proofs.Printer.Depth
import InlineValues.Proofs.Printer.Literal
import InlineValues.Proofs.Printer.Quoted
import InlineValues.Proofs.Printer.Semicolon
import InlineValues.Proofs.Replay.Basic
import InlineValues.Proofs.Replay.Chain
import InlineValues.Proofs.Replay.List
import InlineValues.Proofs.Replay.Operand
import InlineValues.Proofs.Replay.Access
import InlineValues.Proofs.Replay.Operator
import InlineValues.Proofs.Replay.Assignment
import InlineValues.Proofs.Replay.Statement
import InlineValues.Proofs.Replay.File
import InlineValues.Proofs.Replay.Value
import InlineValues.Proofs.State.Basic
import InlineValues.Proofs.State.TypeExpression
import InlineValues.Proofs.State.Member
import InlineValues.Proofs.State.Expression
import InlineValues.Proofs.State.Statement
import InlineValues.Proofs.State.SourceFile
import InlineValues.Proofs.Document.Edit
import InlineValues.Proofs.Document.Splice
import InlineValues.Proofs.Session.Server
import InlineValues.Proofs.Session.Framing
import InlineValues.Proofs.Session.Run
