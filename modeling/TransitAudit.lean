import TransitAudit.Audit.Schedule
import TransitAudit.Main
import TransitAudit.Path.Print
import TransitAudit.Proofs.Document.Nodes
import TransitAudit.Proofs.Path.Order
import TransitAudit.Proofs.Path.Reach
import TransitAudit.Proofs.Failure
import TransitAudit.Proofs.Key.Resolution
import TransitAudit.Proofs.Key.Identity
import TransitAudit.Proofs.Key.Repeats
import TransitAudit.Proofs.Key.VersionPosition
import TransitAudit.Proofs.Path.NamedSteps
import TransitAudit.Proofs.Path.Inward
import TransitAudit.Proofs.Schema.Holding
import TransitAudit.Proofs.Task.Batch
import TransitAudit.Proofs.Audit.EntryPoints
import TransitAudit.Proofs.Journey.Forward
import TransitAudit.Proofs.Document.Reading
import TransitAudit.Proofs.Document.Lookup
import TransitAudit.Proofs.Text.Trim
import TransitAudit.Proofs.Text.Reader
import TransitAudit.Proofs.Xml.Tags
import TransitAudit.Proofs.Path.Scan
import TransitAudit.Proofs.Path.Layout
import TransitAudit.Proofs.Path.StepText
import TransitAudit.Proofs.Path.PredicateText
import TransitAudit.Proofs.Path.Literals
import TransitAudit.Proofs.Path.Writable
import TransitAudit.Proofs.Path.Grammar
import TransitAudit.Proofs.Path.Accepted
import TransitAudit.Proofs.Key.Fields
import TransitAudit.Proofs.Path.PredicateWriting
import TransitAudit.Proofs.Path.Alike
import TransitAudit.Proofs.Path.RoundTrip
import TransitAudit.Proofs.Path.Descent
import TransitAudit.Proofs.Path.Distinct
import TransitAudit.Proofs.Constraint.Stripping
import TransitAudit.Proofs.Constraint.Unlabelled
import TransitAudit.Proofs.Constraint.Declaration
import TransitAudit.Proofs.Constraint.Extraction
import TransitAudit.Proofs.Constraint.Stored
import TransitAudit.Proofs.Rule.Run
import TransitAudit.Proofs.Audit.FailFast
import TransitAudit.Proofs.Audit.InTurn
import TransitAudit.Proofs.Audit.Outcome
import TransitAudit.Proofs.Audit.Schedule
import TransitAudit.Proofs.Schema.CacheHistory
import TransitAudit.Proofs.Schema.Requests
import TransitAudit.Proofs.Schema.LoaderHistory
import TransitAudit.Proofs.Schema.Reflection
import TransitAudit.Audit.Requests
import TransitAudit.Proofs.Audit.Requests
import TransitAudit.Proofs.Audit.Alone
import TransitAudit.Proofs.Json.Normal
import TransitAudit.Proofs.Report.ReadBack
import TransitAudit.Proofs.Key.Pairing
import TransitAudit.Proofs.Journey.Topics
import TransitAudit.Proofs.Journey.WithinDay
import TransitAudit.Proofs.Journey.Local
import TransitAudit.Proofs.Journey.Ties
import TransitAudit.Proofs.Document.Frames
import TransitAudit.Proofs.Rule.Naming
import TransitAudit.Proofs.Rule.FrameDefaults
import TransitAudit.Proofs.Rule.References
import TransitAudit.Proofs.Rule.StopTimes
import TransitAudit.Proofs.Settings.Layers
import TransitAudit.Proofs.Files.PathNames
import TransitAudit.Proofs.Discovery.Coverage
import TransitAudit.Proofs.Document.Lines
import TransitAudit.Proofs.Rule.FindingLines
import TransitAudit.Proofs.Path.Balance
