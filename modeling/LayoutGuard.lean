import LayoutGuard.Main
import LayoutGuard.Primitives.Host
import LayoutGuard.Proofs.Drift.Alignment
import LayoutGuard.Proofs.AssertionFile.Document
import LayoutGuard.Proofs.Lint.Registry
import LayoutGuard.Proofs.Drift.LayoutChange
import LayoutGuard.Proofs.SizeTable
import LayoutGuard.Proofs.Files.Reading
import LayoutGuard.Proofs.Files.Update
import LayoutGuard.Proofs.Files.Destination
import LayoutGuard.Proofs.Files.Replacement
import LayoutGuard.Proofs.Command.Document
import LayoutGuard.Proofs.Command.Agreement
import LayoutGuard.Proofs.Probe.Listing
import LayoutGuard.Proofs.Json.Scalar
import LayoutGuard.Proofs.Json.Composite
import LayoutGuard.Proofs.SizeReport.Text
import LayoutGuard.Proofs.SizeReport.Replay
import LayoutGuard.Proofs.Command.Replay
import LayoutGuard.Proofs.Text.Word
import LayoutGuard.Proofs.Header.Body
import LayoutGuard.Proofs.Header.Comment
import LayoutGuard.Proofs.Header.Places
import LayoutGuard.Proofs.Header.Definition
import LayoutGuard.Proofs.Header.WellFormed
import LayoutGuard.Proofs.Command.Effect
import LayoutGuard.Proofs.Lint.Completeness
import LayoutGuard.Proofs.Header.Tags
import LayoutGuard.Proofs.Header.Spacing
import LayoutGuard.Proofs.Header.WholeLines
import LayoutGuard.Proofs.Header.MacroLines
import LayoutGuard.Proofs.Header.Insertion
import LayoutGuard.Proofs.AssertionFile.Decoding
import LayoutGuard.Proofs.Probe.Program
import LayoutGuard.Proofs.Emission
import LayoutGuard.Proofs.Drift.Minimal
import LayoutGuard.Proofs.Files.Course
import LayoutGuard.Proofs.Header.PastedBody
import LayoutGuard.Proofs.Header.Stamp
import LayoutGuard.Proofs.Header.Expansion
import LayoutGuard.Proofs.Header.LineEndings
import LayoutGuard.Proofs.ByPosition
import LayoutGuard.Proofs.Lint.Survey
import LayoutGuard.Proofs.Lint.Defects
import LayoutGuard.Proofs.Lint.Difference
import LayoutGuard.Proofs.Probe.Acceptance
import LayoutGuard.Proofs.Probe.LineMap
import LayoutGuard.Proofs.Probe.Blame
import LayoutGuard.Proofs.SizeReport.Agreement
import LayoutGuard.Proofs.CType
import LayoutGuard.Proofs.SizeReport.LastSize
import LayoutGuard.Proofs.Registry
import LayoutGuard.Proofs.Drift.Decoding
import LayoutGuard.Proofs.Files.Path
import LayoutGuard.Proofs.Config.Origin
import LayoutGuard.Proofs.Config.Overrides
import LayoutGuard.Proofs.Primitives.Memory
import LayoutGuard.Proofs.Primitives.Nesting
import LayoutGuard.Proofs.Header.Brace
import LayoutGuard.Proofs.Spelling
