import LivingDocs.Text.Blank
import LivingDocs.Text.Search
import LivingDocs.Text.Lines
import LivingDocs.Text.Utf8
import LivingDocs.Text.Printable
import LivingDocs.Text.Quoted
import LivingDocs.Comparison
import LivingDocs.OrderedSet
import LivingDocs.OrderedMap
import LivingDocs.Entity
import LivingDocs.Block.Error
import LivingDocs.Block.Line
import LivingDocs.Block.Grammar
import LivingDocs.Block.Reader
import LivingDocs.Corpus
import LivingDocs.Report
import LivingDocs.Collation.Problem
import LivingDocs.Collation.Lookup
import LivingDocs.Collation.Basic
import LivingDocs.Json.Number
import LivingDocs.Json.Value
import LivingDocs.Json.Token
import LivingDocs.Json.Reader
import LivingDocs.Json.Printer
import LivingDocs.Json.Fields
import LivingDocs.Artifact.Entities
import LivingDocs.Artifact.Report
import LivingDocs.Artifact.Store
import LivingDocs.Glob
import LivingDocs.Glob.Matching
import LivingDocs.Path
import LivingDocs.FileSystem.Fault
import LivingDocs.FileSystem.Node
import LivingDocs.FileSystem.Place
import LivingDocs.FileSystem.Basic
import LivingDocs.Selection.Name
import LivingDocs.Selection.Basic
import LivingDocs.Config.Basic
import LivingDocs.Config.Discovery
import LivingDocs.Console
import LivingDocs.Command.Arguments
import LivingDocs.Command.Request
import LivingDocs.Command.Session
import LivingDocs.Command.Scan
import LivingDocs.Command.Report
import LivingDocs.Command.Init
import LivingDocs.Command.Run
import LivingDocs.Main
import LivingDocs.Proofs.Results
import LivingDocs.Proofs.Ordered
import LivingDocs.Proofs.Lookup
import LivingDocs.Proofs.Ambiguities
import LivingDocs.Proofs.Groups
import LivingDocs.Proofs.Merging
import LivingDocs.Proofs.MergedGroup
import LivingDocs.Proofs.Collate
import LivingDocs.Proofs.ReportLinks
import LivingDocs.Proofs.Occurrences
import LivingDocs.Proofs.CollationOutcome
import LivingDocs.Proofs.Search
import LivingDocs.Proofs.BlockShape
import LivingDocs.Proofs.Run
import LivingDocs.Proofs.Content
import LivingDocs.Proofs.EntityOrder
import LivingDocs.Proofs.CorpusHistory
import LivingDocs.Proofs.KeywordLines
import LivingDocs.Proofs.Moving
import LivingDocs.Proofs.BlankLine
import LivingDocs.Proofs.Partition
import LivingDocs.Proofs.Cutting
import LivingDocs.Proofs.KeywordTable
import LivingDocs.Proofs.WrittenBlock
import LivingDocs.Proofs.JsonText
import LivingDocs.Proofs.ArtifactText
import LivingDocs.Proofs.Disk
import LivingDocs.Proofs.Session
import LivingDocs.Proofs.ArtifactStore
import LivingDocs.Proofs.Scanned
import LivingDocs.Proofs.Pipeline
import LivingDocs.Proofs.Aggregation
import LivingDocs.Proofs.Changes
import LivingDocs.Proofs.WritePolicy
import LivingDocs.Proofs.BreakingOff
import LivingDocs.Proofs.Selected
import LivingDocs.Proofs.InputOrder
import LivingDocs.Proofs.Destination
import LivingDocs.Proofs.Discovery
import LivingDocs.Proofs.Growth
import LivingDocs.Proofs.Overlap
import LivingDocs.Proofs.Rewalk
import LivingDocs.Proofs.Repetition
import LivingDocs.Proofs.BlankEnds
import LivingDocs.Proofs.BulletList
import LivingDocs.Proofs.BlockReading
import LivingDocs.Proofs.BlockExtent
import LivingDocs.Proofs.EntityForm
import LivingDocs.Proofs.ExampleName
import LivingDocs.Proofs.MarkedLines
import LivingDocs.Proofs.CommentMarker
import LivingDocs.Proofs.RightmostKeyword
import LivingDocs.Proofs.Lookahead
import LivingDocs.Proofs.QuotedName
import LivingDocs.Proofs.PathAbove
import LivingDocs.Proofs.UpwardSearch
