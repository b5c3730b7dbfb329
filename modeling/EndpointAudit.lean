import EndpointAudit.Bytes.Base64
import EndpointAudit.Bytes.Basic
import EndpointAudit.Chain.Classification
import EndpointAudit.Chain.Window
import EndpointAudit.ClassFile.Basic
import EndpointAudit.ClassFile.Constant
import EndpointAudit.ClassFile.Descriptor
import EndpointAudit.ClassFile.ModifiedUtf8
import EndpointAudit.ClassFile.Reader
import EndpointAudit.ClassPath.Basic
import EndpointAudit.ClassPath.Cache
import EndpointAudit.ClassPath.FileName
import EndpointAudit.ClassPath.FileStore
import EndpointAudit.Code.Instruction
import EndpointAudit.Command.Arguments
import EndpointAudit.Command.Console
import EndpointAudit.Command.Request
import EndpointAudit.Command.Run
import EndpointAudit.Data.Assoc
import EndpointAudit.Data.Basic
import EndpointAudit.Decimal
import EndpointAudit.Discovery.Basic
import EndpointAudit.Discovery.Controller
import EndpointAudit.Endpoint.Merge
import EndpointAudit.Endpoint.Record
import EndpointAudit.Endpoint.SessionPolicy
import EndpointAudit.Filter.Cached
import EndpointAudit.Filter.Coverage
import EndpointAudit.Filter.Header
import EndpointAudit.Filter.Memo
import EndpointAudit.Filter.PathCheck
import EndpointAudit.Json.Printer
import EndpointAudit.Json.Reader
import EndpointAudit.Logging
import EndpointAudit.Main
import EndpointAudit.Moment
import EndpointAudit.Moment.Reader
import EndpointAudit.Naming
import EndpointAudit.Notice
import EndpointAudit.Proofs.Chain.Classification
import EndpointAudit.Proofs.ClassFile.Layout
import EndpointAudit.Proofs.ClassFile.OnePass
import EndpointAudit.Proofs.ClassFile.ModifiedUtf8
import EndpointAudit.Proofs.ClassFile.Reads
import EndpointAudit.Proofs.ClassFile.References
import EndpointAudit.Proofs.ClassFile.RoundTrip
import EndpointAudit.Proofs.ClassPath.Intact
import EndpointAudit.Proofs.Data.Assoc
import EndpointAudit.Proofs.Endpoint.ApiKeyEvidence
import EndpointAudit.Proofs.Endpoint.MergeRun
import EndpointAudit.Proofs.Endpoint.MergeStep
import EndpointAudit.Proofs.Endpoint.PolicyRank
import EndpointAudit.Proofs.Filter.Memo
import EndpointAudit.Proofs.Naming
import EndpointAudit.Report.Basic
import EndpointAudit.Report.Decode
import EndpointAudit.Report.Diff
import EndpointAudit.Report.Encode
import EndpointAudit.Report.File
import EndpointAudit.Report.Partition
import EndpointAudit.Report.Render
import EndpointAudit.Route
import EndpointAudit.Scan
import EndpointAudit.Settings
import EndpointAudit.Text.Blank
import EndpointAudit.Text.Case
import EndpointAudit.Text.DecimalDigit
import EndpointAudit.Text.Digits
import EndpointAudit.Text.Markup
import EndpointAudit.Text.Printable
import EndpointAudit.Text.Quoted
import EndpointAudit.Text.Split
import EndpointAudit.Text.TagSet
import EndpointAudit.Trace.Event
import EndpointAudit.Trace.FieldStrings
import EndpointAudit.Trace.Interpret
import EndpointAudit.Trace.Lambda
import EndpointAudit.Yaml.Built
import EndpointAudit.Yaml.Fault
import EndpointAudit.Yaml.Node.Basic
import EndpointAudit.Yaml.Node.Parse
import EndpointAudit.Yaml.Numeral
import EndpointAudit.Yaml.Printer
import EndpointAudit.Yaml.Reader
import EndpointAudit.Yaml.Scalar
import EndpointAudit.Yaml.Schema
import EndpointAudit.Yaml.Token.Basic
import EndpointAudit.Yaml.Token.Scalar
import EndpointAudit.Yaml.Token.Scan
import EndpointAudit.Proofs.Data.Lookup
import EndpointAudit.Proofs.Report.Diff
import EndpointAudit.Proofs.Report.DiffSymmetry
import EndpointAudit.Proofs.Report.Changes
import EndpointAudit.Proofs.Chain.Extension
import EndpointAudit.Proofs.Report.Grouping
import EndpointAudit.Proofs.Report.Partition
import EndpointAudit.Proofs.Report.PartitionCheck
import EndpointAudit.Proofs.ClassPath.Listing
import EndpointAudit.Proofs.Discovery.Outcome
import EndpointAudit.Proofs.Scan.Frame
import EndpointAudit.Proofs.Data.Except
import EndpointAudit.Proofs.Filter.Worklist
import EndpointAudit.Proofs.Trace.Owners
import EndpointAudit.Proofs.Filter.Requests
import EndpointAudit.Proofs.ClassPath.Cache
import EndpointAudit.Proofs.Filter.Cached
import EndpointAudit.Proofs.Scan.Configurations
import EndpointAudit.Proofs.Scan.Workers
import EndpointAudit.Proofs.ClassPath.Agreement
import EndpointAudit.Proofs.Bytes.Utf8
import EndpointAudit.Proofs.ClassFile.Utf16
import EndpointAudit.Proofs.Filter.PathCheck
import EndpointAudit.Proofs.Command.Comparison
import EndpointAudit.Proofs.Moment.Text
import EndpointAudit.Proofs.Json.RoundTrip
import EndpointAudit.Proofs.Report.Decode
import EndpointAudit.Proofs.Report.LineEnds
import EndpointAudit.Proofs.Report.File
import EndpointAudit.Proofs.Filter.CheckSequence
import EndpointAudit.Proofs.Filter.DiscoveryOrder
import EndpointAudit.Proofs.Filter.PatternEvidence
import EndpointAudit.Proofs.Trace.FieldStrings
import EndpointAudit.Proofs.Trace.Splicing
import EndpointAudit.Proofs.ClassFile.Descriptor
import EndpointAudit.Proofs.Route.Repeated
import EndpointAudit.Proofs.Route.Segments
import EndpointAudit.Proofs.Route.Shortening
import EndpointAudit.Proofs.ClassFile.Extent
import EndpointAudit.Proofs.ClassFile.PoolSlots
import EndpointAudit.Proofs.ClassFile.Resolution
import EndpointAudit.Proofs.Code.Assembly
import EndpointAudit.Proofs.Chain.Independence
import EndpointAudit.Proofs.Chain.SessionOffers
import EndpointAudit.Proofs.Endpoint.FilterOrder
import EndpointAudit.Proofs.Filter.Family
