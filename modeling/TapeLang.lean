import TapeLang.Analysis.Check
import TapeLang.Analysis.Finding
import TapeLang.Ast.Basic
import TapeLang.Ast.Dump
import TapeLang.CommandLine.Disk
import TapeLang.CommandLine.Execute
import TapeLang.CommandLine.Options
import TapeLang.CommandLine.Request
import TapeLang.CommandLine.Usage
import TapeLang.Compilation
import TapeLang.Diagnostic.Basic
import TapeLang.Diagnostic.Suppression
import TapeLang.Json
import TapeLang.Location
import TapeLang.Log
import TapeLang.Machine.Basic
import TapeLang.Machine.Run
import TapeLang.Machine.Snapshot
import TapeLang.Main
import TapeLang.Pattern
import TapeLang.Program.Basic
import TapeLang.Program.Build
import TapeLang.Report
import TapeLang.Source.Indent
import TapeLang.Source.Line
import TapeLang.Source.LineRule
import TapeLang.Source.Reader
import TapeLang.Source.Violation
import TapeLang.Table
import TapeLang.Tape
import TapeLang.Text.Digit
import TapeLang.Text.Letter
import TapeLang.Text.Lines
import TapeLang.Text.Pad
import TapeLang.Text.Quoted
import TapeLang.Text.Ranges
import TapeLang.Text.Space
import TapeLang.Text.Word
import TapeLang.Proofs.LineRule
import TapeLang.Proofs.Blocks
import TapeLang.Proofs.Analysis
import TapeLang.Proofs.FrontEnd
import TapeLang.Proofs.Step
import TapeLang.Proofs.Textbook
import TapeLang.Proofs.Render
import TapeLang.Proofs.Content
import TapeLang.Proofs.Phrase
import TapeLang.Proofs.WrittenLine
import TapeLang.Proofs.Stage
import TapeLang.Proofs.Section
import TapeLang.Proofs.RoundTrip
import TapeLang.Proofs.CleanRun
import TapeLang.Proofs.Relocation
import TapeLang.Proofs.Renumbering
import TapeLang.Proofs.Comments
import TapeLang.Proofs.Outline
import TapeLang.Proofs.Recognition
import TapeLang.Proofs.Accounting
import TapeLang.Proofs.SectionOrder
import TapeLang.Proofs.Reachability
import TapeLang.Proofs.DeadStates
import TapeLang.Proofs.InlineRule
import TapeLang.Proofs.InputGate
import TapeLang.Proofs.PhysicalLine
import TapeLang.Proofs.Suppression
import TapeLang.Proofs.CommentAgreement
import TapeLang.Proofs.Commitment
import TapeLang.Proofs.Grammar
import TapeLang.Proofs.LineLanguage
import TapeLang.Proofs.Runs
import TapeLang.Proofs.Calls
import TapeLang.Proofs.RunControl
import TapeLang.Proofs.Lockstep
import TapeLang.Proofs.StartMatch
import TapeLang.Proofs.Growth
import TapeLang.Proofs.Paths
import TapeLang.Proofs.Consistency
import TapeLang.Proofs.Window
import TapeLang.Proofs.Padding
import TapeLang.Proofs.Refusal
import TapeLang.Proofs.Placement
import TapeLang.Proofs.Additions
import TapeLang.Proofs.Coverage
import TapeLang.Proofs.Filtering
import TapeLang.Proofs.SuppressionComment
import TapeLang.Proofs.Quoting
import TapeLang.Proofs.Dump
import TapeLang.Proofs.IndentChain
import TapeLang.Proofs.TapeAccess
