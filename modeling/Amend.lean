import Amend.Main
import Amend.Extraction.Report
import Amend.Refactoring.Report
import Amend.Proofs.LineMap.Range
import Amend.Proofs.Json
import Amend.Proofs.Snapshot.Index
import Amend.Proofs.Digest
import Amend.Proofs.Disk.Frame
import Amend.Proofs.Disk.Tree
import Amend.Proofs.Snapshot.Calm
import Amend.Proofs.Snapshot.Protection
import Amend.Proofs.Snapshot.RoundTrip
import Amend.Proofs.Snapshot.Retention
import Amend.Proofs.Extraction.DataFlow
import Amend.Proofs.Extraction.Agreement
import Amend.Proofs.Extraction.Shadow
import Amend.Proofs.Extraction.Shift
import Amend.Proofs.Extraction.Written
import Amend.Proofs.Plan
import Amend.Proofs.Merge
import Amend.Proofs.Confinement
import Amend.Proofs.Workflow.Apply
import Amend.Proofs.Workflow.Calm
import Amend.Proofs.Workflow.Atomicity
import Amend.Proofs.Workflow.Coherence
import Amend.Proofs.Workflow.Loss
import Amend.Proofs.Workflow.Outcome
import Amend.Proofs.Workflow.Trial
import Amend.Proofs.Disk.Place
import Amend.Proofs.Snapshot.Rollback
import Amend.Proofs.Snapshot.Naming
import Amend.Proofs.Workflow.Coverage
import Amend.Proofs.Refactoring.DeadCode
import Amend.Proofs.Syntax.Fault
import Amend.Proofs.Refactoring.Substitution
import Amend.Proofs.Refactoring.Resource
import Amend.Proofs.Refactoring.ParameterObject
import Amend.Proofs.Refactoring.Conditional
import Amend.Proofs.Refactoring.Dispatch
import Amend.Proofs.Refactoring.Constant
import Amend.Proofs.Refactoring.Rename
import Amend.Proofs.Build.Report
import Amend.Proofs.Build.TestSummary
import Amend.Proofs.Snapshot.Exclusion
import Amend.Proofs.Snapshot.Locked
import Amend.Proofs.Snapshot.Latest
import Amend.Proofs.Snapshot.Undo
import Amend.Proofs.Workflow.Alarm
import Amend.Proofs.Refactoring.Naming
