import Amend.Build.Step
import Amend.LineMap
import Amend.Merge
import Amend.Plan
import Amend.Refactoring.Target
import Amend.Snapshot.Rollback
import Amend.Validation.Verdict

/-!
# Reports of a run

What a run did with each action of its plan, where it ended and why. Reasons are kept as causes;
their wording is one function of the cause.
-/

namespace Amend

/-! ## One action -/

/-- How an action ended that did not fail with an error. -/
inductive ApplyStatus where
  | success
  | successWithWarnings
  /-- The file did not pass the check after the write and was put back. -/
  | compilationFailed
  /-- Findings only. -/
  | advisory
deriving DecidableEq

/-- The written name of a status. -/
def ApplyStatus.name : ApplyStatus → String
  | .success => "success"
  | .successWithWarnings => "success_with_warnings"
  | .compilationFailed => "compilation_failed"
  | .advisory => "advisory"

/-- What the check after a write said. -/
inductive CompilationStatus where
  | passed
  | failed
  | notEvaluated
deriving DecidableEq

/-- The written name of a result. -/
def CompilationStatus.name : CompilationStatus → String
  | .passed => "passed"
  | .failed => "failed"
  | .notEvaluated => "not_evaluated"

/-- The written name of a mode. -/
def MergeMode.name : MergeMode → String
  | .structural => "structural"
  | .textual => "textual"

/-- What was done for one action. -/
structure ApplyDetail where
  refactoring : String
  file : Path
  description : String
  status : ApplyStatus
  compilation : CompilationStatus := .notEvaluated
  validation : Option Verdict := none
  merge : Option MergeMode := none
  linesBefore : Nat
  linesAfter : Nat
  shifts : List LineShift := []
  notes : List String := []
  /-- Whether the file was put back. -/
  restored : Bool := false
  snapshot : Option Uid := none

namespace ApplyDetail

/-- The detail of an action that left a content as it is. -/
def unchanged (r : Refactoring) (d : Defect) (description : String) (status : ApplyStatus)
    (content : String) : ApplyDetail where
  refactoring := r.name
  file := d.file
  description
  status
  linesBefore := Text.lineCount content
  linesAfter := Text.lineCount content

/-- The detail of findings. -/
def advice (r : Refactoring) (d : Defect) (description : String) (notes : List String)
    (content : String) : ApplyDetail :=
  { unchanged r d description .advisory content with notes }

/-- By how many lines the file grew. -/
def lineDelta (d : ApplyDetail) : Int := (d.linesAfter : Int) - d.linesBefore

/-- A written detail. -/
def toJson (d : ApplyDetail) : Json :=
  .obj [("strategy", .str d.refactoring), ("file", .str d.file.text),
    ("description", .str d.description), ("status", .str d.status.name),
    ("compilation", .str d.compilation.name), ("validation", .opt Verdict.toJson d.validation),
    ("merge", .opt (.str ·.name) d.merge), ("lines_before", .nat d.linesBefore),
    ("lines_after", .nat d.linesAfter), ("line_delta", .int d.lineDelta),
    ("shifts", .list LineShift.toJson d.shifts), ("notes", .list .str d.notes),
    ("restored", .bool d.restored), ("snapshot_id", .opt (.str ·.render) d.snapshot)]

end ApplyDetail

/-- Why an action failed. -/
inductive ApplyError where
  /-- The file cannot be refactored, or not so. -/
  | refactoring (e : RefactoringError)
  /-- The refactoring broke down on a file and a line. -/
  | breakdown (refactoring : String) (file : Path) (line : Nat)
  | read (file : Path) (cause : SystemError)
  | snapshot (e : SnapshotError)
  | write (e : WriteError)
  /-- The file could not be put back. -/
  | rollback (e : RollbackError)
  /-- No refactoring has that name. -/
  | unknown (refactoring : String)

namespace ApplyError

/-- The report of a failure. -/
def message : ApplyError → String
  | .refactoring e => e.message
  | .breakdown name file line =>
    "Internal error: " ++ name ++ " panicked on " ++ file.text ++ ":" ++ toString line
  | .read file cause => "Failed to read " ++ file.text ++ ": " ++ cause.message
  | .snapshot e => e.message
  | .write e => e.message
  | .rollback e => e.message
  | .unknown name => "No strategy named '" ++ name ++ "' is registered"

/-- Whether the file may have been left as it should not be. -/
def isUnrecoverable : ApplyError → Bool
  | .rollback _ => true
  | _ => false

end ApplyError

/-- What became of an action. -/
inductive ActionOutcome where
  /-- The file was rewritten. -/
  | applied (detail : ApplyDetail)
  /-- Findings were reported. -/
  | advised (detail : ApplyDetail)
  /-- The rewritten file did not pass its check and was put back. -/
  | invalid (detail : ApplyDetail)
  | failed (cause : ApplyError)

namespace ActionOutcome

/-- Whether the file was rewritten. -/
def isApplied : ActionOutcome → Bool
  | .applied _ => true
  | _ => false

/-- Whether the action failed. -/
def isFailed : ActionOutcome → Bool
  | .invalid _ | .failed _ => true
  | .applied _ | .advised _ => false

/-- The line movements that later actions on the file have to follow. -/
def shifts : ActionOutcome → List LineShift
  | .applied detail => detail.shifts
  | _ => []

/-- The outcome that a detail tells of. -/
def ofDetail (detail : ApplyDetail) : ActionOutcome :=
  match detail.status with
  | .success | .successWithWarnings => .applied detail
  | .advisory => .advised detail
  | .compilationFailed => .invalid detail

/-- The fields of a written outcome. -/
def fields : ActionOutcome → List (String × Json)
  | .applied detail => [("outcome", .str "applied"), ("detail", detail.toJson)]
  | .advised detail =>
    [("outcome", .str "skipped"), ("reason", .str ("advisory: " ++ detail.description)),
      ("detail", detail.toJson)]
  | .invalid detail =>
    [("outcome", .str "failed"),
      ("reason", .str ("validation failed: " ++ ((detail.validation.map (·.summary)).getD ""))),
      ("detail", detail.toJson)]
  | .failed cause =>
    [("outcome", .str "failed"), ("reason", .str cause.message), ("detail", .null)]

end ActionOutcome

/-- The report of one action. Its record has the lines that it has after the edits before. -/
structure ActionReport where
  index : Nat
  refactoring : String
  defect : Defect
  outcome : ActionOutcome

/-- A written report. -/
def ActionReport.toJson (a : ActionReport) : Json :=
  .obj ([("index", .nat a.index), ("strategy", .str a.refactoring),
    ("record", a.defect.toJson)] ++ a.outcome.fields)

/-! ## A run -/

/-- The phase in which a run ended. -/
inductive Phase where
  | planning
  | backup
  | apply
  | buildVerify
  | testVerify
  | complete
deriving DecidableEq

/-- The written name of a phase. -/
def Phase.name : Phase → String
  | .planning => "planning"
  | .backup => "backup"
  | .apply => "apply"
  | .buildVerify => "build_verify"
  | .testVerify => "test_verify"
  | .complete => "complete"

/-- The state in which a run leaves the files. -/
inductive TerminalState where
  | complete
  | rolledBack
  | failed
deriving DecidableEq

/-- The written name of a state. -/
def TerminalState.name : TerminalState → String
  | .complete => "complete"
  | .rolledBack => "rolled_back"
  | .failed => "failed"

/-- Why a run did not get to its end. -/
inductive HaltCause where
  | backup (e : SnapshotError)
  | action (e : ApplyError)
  | rollback (e : RollbackError)
  /-- A failed action ends the run. -/
  | stopped (index : Nat) (refactoring : String)
  /-- A build or test step failed. -/
  | step (reason : String)
  /-- A build or test step could not be run. -/
  | notRun (e : Build.RunError)

/-- The report of a cause. -/
def HaltCause.message : HaltCause → String
  | .backup e => e.message
  | .action e => e.message
  | .rollback e => e.message
  | .stopped index refactoring =>
    "action " ++ toString index ++ " (" ++ refactoring ++ ") failed; stopping"
  | .step reason => reason
  | .notRun e => e.message

/-- All that a run produced. -/
structure RunOutcome where
  phase : Phase
  state : TerminalState
  success : Bool
  rolledBack : Bool := false
  /-- Putting files back failed or was not possible. -/
  unrecoverable : Bool := false
  dryRun : Bool := false
  plan : Plan
  actions : List ActionReport := []
  build : Option Build.StepOutcome := none
  tests : Option Build.StepOutcome := none
  snapshotSet : Option Uid := none
  restored : List RestoreReport := []
  errors : List HaltCause := []

namespace RunOutcome

/-- The number of actions that rewrote a file. -/
def appliedCount (o : RunOutcome) : Nat := (o.actions.filter (·.outcome.isApplied)).length

/-- The number of actions that failed. -/
def failedCount (o : RunOutcome) : Nat := (o.actions.filter (·.outcome.isFailed)).length

/-- The fields of a written outcome. -/
def fields (o : RunOutcome) : List (String × Json) :=
  [("phase", .str o.phase.name), ("state", .str o.state.name), ("success", .bool o.success),
    ("rolled_back", .bool o.rolledBack), ("unrecoverable", .bool o.unrecoverable),
    ("dry_run", .bool o.dryRun), ("plan", o.plan.toJson),
    ("actions", .list ActionReport.toJson o.actions),
    ("build", .opt Build.StepOutcome.toJson o.build),
    ("tests", .opt Build.StepOutcome.toJson o.tests),
    ("snapshot_set", .opt (.str ·.render) o.snapshotSet),
    ("restored", .list RestoreReport.toJson o.restored),
    ("errors", .list (.str ·.message) o.errors)]

/-- A written outcome. -/
def toJson (o : RunOutcome) : Json := .obj o.fields

end RunOutcome

end Amend
