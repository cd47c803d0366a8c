import IncludeGuard.Layout
import IncludeGuard.Main
import IncludeGuard.Proofs.Lines
import IncludeGuard.Proofs.Utf8
import IncludeGuard.Proofs.Directive
import IncludeGuard.Proofs.Grammar
import IncludeGuard.Proofs.Scan
import IncludeGuard.Proofs.Anchors
import IncludeGuard.Proofs.Repair
import IncludeGuard.Proofs.Convergence
import IncludeGuard.Proofs.Agreement
import IncludeGuard.Proofs.Leaves
import IncludeGuard.Proofs.Workspace
import IncludeGuard.Proofs.Address
import IncludeGuard.Proofs.Discovery
import IncludeGuard.Proofs.Relative
import IncludeGuard.Proofs.FileName
import IncludeGuard.Proofs.GuardName
import IncludeGuard.Proofs.NameBelow
import IncludeGuard.Proofs.Display
import IncludeGuard.Proofs.AsciiName
import IncludeGuard.Proofs.ReadBack
import IncludeGuard.Proofs.DistinctNames
import IncludeGuard.Proofs.Fixing
import IncludeGuard.Proofs.Independence
import IncludeGuard.Proofs.Run
import IncludeGuard.Proofs.Idempotence
import IncludeGuard.Proofs.Checking
import IncludeGuard.Proofs.Spelling
import IncludeGuard.Proofs.Overlap
import IncludeGuard.Proofs.FixThenCheck
import IncludeGuard.Proofs.FailedRun
import IncludeGuard.Proofs.Untouched
import IncludeGuard.Proofs.Json
import IncludeGuard.Proofs.Report
import IncludeGuard.Proofs.Arguments
import IncludeGuard.Proofs.LineByLine
import IncludeGuard.Proofs.Changes
