import Retouch.Release
import Retouch.Scan.Bracket
import Retouch.Scan.Name
import Retouch.Pattern.Site
import Retouch.Text.Line
import Retouch.Text.Quoted
import Retouch.Diff.Change
import Retouch.Diff.Lines
import Retouch.Bundle
import Retouch.Literal.Render
import Retouch.Sha256
import Retouch.Cycle
import Retouch.Failure
import Retouch.Prompt.Ledger
import Retouch.Prompt.Schema
import Retouch.Settings.Schema
import Retouch.Machine
import Retouch.Command.Run
import Retouch.Main
import Retouch.Proofs.Diff.Change
import Retouch.Proofs.Edit.Order
import Retouch.Proofs.Edit.Splice
import Retouch.Proofs.Literal.Reader
import Retouch.Proofs.Literal.Marks
import Retouch.Proofs.Literal.Segment
import Retouch.Proofs.Attempt
import Retouch.Proofs.Literal.RoundTrip
import Retouch.Proofs.Literal.Decoding
import Retouch.Proofs.Literal.Fault
import Retouch.Proofs.Literal.Scanned
import Retouch.Proofs.Prompt.Unchanged
import Retouch.Proofs.Disk.Place
import Retouch.Proofs.Disk.Store
import Retouch.Proofs.Disk.Touches
import Retouch.Proofs.Machine.Faithful
import Retouch.Proofs.Machine.Footprint
import Retouch.Proofs.Machine.Frail
import Retouch.Proofs.Installation.Replace
import Retouch.Proofs.Installation.Atomic
import Retouch.Proofs.Installation.FailedCycle
import Retouch.Proofs.Installation.Backup
import Retouch.Proofs.Installation.Runs
import Retouch.Proofs.Installation.Pristine
import Retouch.Proofs.Installation.DryRun
import Retouch.Proofs.Pattern.Covers
import Retouch.Proofs.Scan.Bracket
import Retouch.Proofs.Attempt.Yields
import Retouch.Proofs.Pattern.Site
import Retouch.Proofs.Writer.Plans
import Retouch.Proofs.Prompt.Stage
import Retouch.Proofs.Cycle.Total
import Retouch.Proofs.Cycle.Apart
import Retouch.Proofs.Installation.Frame
import Retouch.Proofs.Json.RoundTrip
import Retouch.Proofs.Disk.Elsewhere
import Retouch.Proofs.Prompt.Ledger
import Retouch.Proofs.Installation.Ledgers
import Retouch.Proofs.Bundle.RoundTrip
import Retouch.Proofs.Pattern.Takes
import Retouch.Proofs.Prompt.Tolerance
import Retouch.Proofs.Prompt.Encoded
import Retouch.Proofs.Prompt.Occurrence
import Retouch.Proofs.Scan.Level
import Retouch.Proofs.Scan.Members
import Retouch.Proofs.Writer.AgentModel
import Retouch.Proofs.Pattern.Nearest
import Retouch.Proofs.Pattern.Opening
import Retouch.Proofs.Json.Record
import Retouch.Proofs.Text.Pieces
import Retouch.Proofs.Writer.Neighbor
import Retouch.Proofs.Writer.Greeting
import Retouch.Proofs.Writer.Picker
import Retouch.Proofs.Writer.Properties
import Retouch.Proofs.Release.Stated
import Retouch.Proofs.Literal.Words
import Retouch.Proofs.Text.Occurrences
import Retouch.Proofs.Pattern.Window
import Retouch.Proofs.Writer.ContextSize
import Retouch.Proofs.Json.Strings
import Retouch.Proofs.Scan.Name
import Retouch.Proofs.Writer.Thinking
import Retouch.Proofs.Release.Spelled
import Retouch.Proofs.Diff.Context
import Retouch.Proofs.Text.Lines
import Retouch.Proofs.Prompt.Heading
import Retouch.Proofs.Writer.Tables
import Retouch.Proofs.Scan.Expression
import Retouch.Proofs.Scan.Enclosing
import Retouch.Proofs.Scan.Balanced
import Retouch.Proofs.History
import Retouch.Proofs.Prompt.Saved
import Retouch.Proofs.Scan.Balanced
