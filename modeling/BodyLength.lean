import BodyLength.Analysis
import BodyLength.Color
import BodyLength.CommandLine.Arguments
import BodyLength.CommandLine.Run
import BodyLength.CommandLine.Text
import BodyLength.Config.Basic
import BodyLength.Config.Discovery
import BodyLength.Config.Json
import BodyLength.Config.Settings
import BodyLength.Decimal.Shortest
import BodyLength.Failure
import BodyLength.Files.Collect
import BodyLength.Files.Disk
import BodyLength.Files.Path
import BodyLength.Files.ProjectRoot
import BodyLength.Files.Tree
import BodyLength.Glob.Language
import BodyLength.Glob.Pattern
import BodyLength.Json.Decode
import BodyLength.Json.Error
import BodyLength.Json.Lexeme
import BodyLength.Json.Number
import BodyLength.Json.Pretty
import BodyLength.Json.Text
import BodyLength.Json.Token
import BodyLength.Json.Tree
import BodyLength.Lexing.State
import BodyLength.Lexing.Trace
import BodyLength.Log
import BodyLength.Main
import BodyLength.Report.Basic
import BodyLength.Report.Json
import BodyLength.Report.Remark
import BodyLength.Report.Selection
import BodyLength.Report.Table
import BodyLength.Scan.Basic
import BodyLength.Scan.Body
import BodyLength.Scan.Interrupt
import BodyLength.Scan.Signature
import BodyLength.Scan.Ticket
import BodyLength.Text.Blank
import BodyLength.Text.Bytes
import BodyLength.Text.Cursor
import BodyLength.Text.Escaped
import BodyLength.Text.Lines
import BodyLength.Text.Lossy
import BodyLength.Text.Quoted
import BodyLength.Proofs.Lexing.Enclosure
import BodyLength.Proofs.Lexing.Segments
import BodyLength.Proofs.Brackets.Closing
import BodyLength.Proofs.Brackets.Opacity
import BodyLength.Proofs.Brackets.Balance
import BodyLength.Proofs.Text.Utf8
import BodyLength.Proofs.Scan.Signatures
import BodyLength.Proofs.Scan.Bodies
import BodyLength.Proofs.Scan.Places
import BodyLength.Proofs.Report.SourceOrder
import BodyLength.Proofs.Brackets.Surroundings
import BodyLength.Proofs.Scan.Composition
import BodyLength.Proofs.Text.LineBreaks
import BodyLength.Proofs.Brackets.LineBreaks
import BodyLength.Proofs.Scan.LineBreaks
import BodyLength.Proofs.Scan.LineAccounts
import BodyLength.Proofs.Scan.Checked
import BodyLength.Proofs.Scan.Tickets
import BodyLength.Proofs.Files.Path
import BodyLength.Proofs.Files.Walk
import BodyLength.Proofs.Files.ProjectRoot
import BodyLength.Proofs.Report.Sorting
import BodyLength.Proofs.Report.FileOrder
import BodyLength.Proofs.CommandLine.FrontEnds
import BodyLength.Proofs.Files.Components
import BodyLength.Proofs.Files.Sources
import BodyLength.Proofs.Files.Accesses
import BodyLength.Proofs.Files.Listing
import BodyLength.Proofs.Files.Discovery
import BodyLength.Proofs.Json.Scalars
import BodyLength.Proofs.Json.Values
import BodyLength.Proofs.Json.Decode
import BodyLength.Proofs.Report.Json
import BodyLength.Proofs.Scan.Indentation
import BodyLength.Proofs.Brackets.Locality
import BodyLength.Proofs.Brackets.Nesting
import BodyLength.Proofs.Scan.Placement
import BodyLength.Proofs.Scan.Modes
import BodyLength.Proofs.Report.SignatureLines
import BodyLength.Proofs.Text.Utf8Order
import BodyLength.Proofs.Text.Lossy
import BodyLength.Proofs.Report.Selection
import BodyLength.Proofs.Report.Threshold
import BodyLength.Proofs.Text.LineStarts
import BodyLength.Proofs.Config.Resolution
import BodyLength.Proofs.Config.Extensions
import BodyLength.Proofs.Config.Validation
import BodyLength.Proofs.Config.Colors
import BodyLength.Proofs.CommandLine.Limits
import BodyLength.Proofs.CommandLine.ExitStatus
import BodyLength.Proofs.Files.Isolation
import BodyLength.Proofs.Scan.BraceGaps
import BodyLength.Proofs.Text.Rows
import BodyLength.Proofs.Report.Remarks
import BodyLength.Proofs.Report.Columns
