import Amend.Settings.Load
import Amend.Validation.Validator
import Amend.Workflow.Workbench

/-!
# Runs

A run plans, backs up every file that it may write, carries out the actions in order, builds and
tests. Whatever fails after a file may have been written halts the run, and all files of the backup
are put back. A trial run only plans and tries the actions.
-/

namespace Amend

/-- What a run has done so far. -/
structure Run where
  plan : Plan
  set : Option SnapshotSet := none
  members : List Snapshot := []
  actions : List ActionReport := []
  build : Option Build.StepOutcome := none
  tests : Option Build.StepOutcome := none
  errors : List HaltCause := []

/-- A run that was halted. A dirty one may have written files. -/
structure Halted where
  run : Run
  phase : Phase
  dirty : Bool

namespace Run

/-- The number of actions that rewrote a file. -/
def appliedCount (r : Run) : Nat := (r.actions.filter (·.outcome.isApplied)).length

/-- The snapshot that the backup has of a file of that identity. -/
def member? (r : Run) (identity : Path) : Option Snapshot :=
  r.members.find? fun s => s.source.same identity

/-- The run with one more report. -/
def report (r : Run) (index : Nat) (refactoring : String) (d : Defect) (o : ActionOutcome) : Run :=
  { r with actions := r.actions ++ [⟨index, refactoring, d, o⟩] }

/-- The run halted for a cause. -/
def halt (r : Run) (phase : Phase) (dirty : Bool) (cause : HaltCause) : Halted :=
  ⟨{ r with errors := r.errors ++ [cause] }, phase, dirty⟩

/-- The outcome of a run that ends in a phase and a state. -/
def outcome (r : Run) (phase : Phase) (state : TerminalState) : RunOutcome where
  phase
  state
  success := state = .complete
  plan := r.plan
  actions := r.actions
  build := r.build
  tests := r.tests
  snapshotSet := r.set.map (·.id)
  errors := r.errors

end Run

namespace Workbench

/-! ## Phases -/

/-- The snapshots of a set. -/
def membersOf (store : SnapshotStore) : List Uid → Act SnapshotError (List Snapshot)
  | [] => return []
  | id :: ids => do
    let first ← store.get id
    return first :: (← membersOf store ids)

/-- Takes one snapshot of every file that the plan may write. -/
def backUp (b : Workbench) (r : Run) : Act Halted Run := do
  let files ← Act.look fun w => r.plan.mutatingFiles w.identity
  if files.isEmpty then return r
  let (set, members) ← (do
    let set ← b.store.createSet files
    return (set, ← membersOf b.store set.members)).mapError fun e => r.halt .backup false (.backup e)
  return { r with set := some set, members }

/-- A defect with its lines carried through the edits so far. -/
def remapped (lines : LineMap) (d : Defect) : Act Halted Defect :=
  Act.look fun w => lines.remapDefect (w.identity d.file) d

/-- The line map with the movements of an action. -/
def recorded {ε : Type} (lines : LineMap) (file : Path) (shifts : List LineShift) :
    Act ε LineMap :=
  Act.look fun w => lines.record (w.identity file) shifts

/-- Carries out an action of the plan. The error is one that ends the run. -/
def applyAction (b : Workbench) (r : Run) (a : PlannedAction) (d : Defect) :
    Act Halted ActionOutcome := do
  let dirty := r.appliedCount > 0
  match b.catalog.find? a.refactoring with
  | none => throw (r.halt .apply dirty (.action (.unknown a.refactoring)))
  | some refactoring =>
    let member ← Act.look fun w => r.member? (w.identity d.file)
    if !a.advisory && member.isNone then
      throw (r.halt .apply dirty (.rollback (.noSnapshot (.ofRun d.file))))
    match ← (b.apply refactoring d member).outcome with
    | .ok detail => return .ofDetail detail
    | .error e =>
      if e.isUnrecoverable then throw (r.halt .apply true (.action e))
      return .failed e

/-- Carries out actions in order, the first of them with a given index. -/
def applyActions (b : Workbench) (r : Run) (lines : LineMap) (index : Nat) :
    List PlannedAction → Act Halted Run
  | [] => return r
  | a :: rest => do
    let d ← remapped lines a.defect
    let outcome ← b.applyAction r a d
    let lines ← recorded lines d.file outcome.shifts
    let r := r.report index a.refactoring d outcome
    if outcome.isFailed && b.settings.stopsOnFailure then
      throw (r.halt .apply true (.stopped index a.refactoring))
    b.applyActions r lines (index + 1) rest

/-- Runs a build or test step, if the settings want it, and keeps its result. A failed step halts
the run. -/
def verify (r : Run) (phase : Phase) (wanted : Bool) (skipped failed : String)
    (step : Act Build.RunError Build.StepOutcome) (keep : Run → Build.StepOutcome → Run) :
    Act Halted Run := do
  if !wanted then return keep r (.skipped skipped)
  match ← step.outcome with
  | .error e => throw (r.halt phase true (.notRun e))
  | .ok s =>
    let r := keep r s
    if s.hasFailed then throw (r.halt phase true (.step (s.reason.getD failed)))
    return r

/-- The build phase. -/
def verifyBuild (b : Workbench) (r : Run) : Act Halted Run :=
  verify r .buildVerify b.settings.builds "disabled by workflow.run_build" "build failed" b.build
    fun r s => { r with build := some s }

/-- The test phase. -/
def verifyTests (b : Workbench) (r : Run) : Act Halted Run :=
  verify r .testVerify b.settings.tests "disabled by workflow.run_tests" "tests failed" b.test
    fun r s => { r with tests := some s }

/-- All phases of a live run, with the phase in which it ends. A run in which no file was written
is neither built nor tested. -/
def phases (b : Workbench) (r : Run) : Act Halted (Run × Phase) := do
  let r ← b.backUp r
  let r ← b.applyActions r .empty 0 r.plan.actions
  if r.appliedCount = 0 then return (r, .apply)
  let r ← b.verifyBuild r
  let r ← b.verifyTests r
  return (r, .complete)

/-! ## The end of a run -/

/-- Ends a run and releases its backup. -/
def finish (b : Workbench) (r : Run) (phase : Phase) (state : TerminalState) :
    StateM World RunOutcome := do
  if let some set := r.set then
    let _ ← (b.store.releaseSet set.id : Act SnapshotError Unit).settle
  return r.outcome phase state

/-- Ends a run that could not be put back. -/
def abandon (b : Workbench) (r : Run) (phase : Phase) (e : RollbackError) :
    StateM World RunOutcome := do
  let r := { r with errors := r.errors ++ [.rollback e] }
  return { ← b.finish r phase .failed with unrecoverable := true }

/-- Ends a halted run: if it may have written files, they are put back. -/
def recover (b : Workbench) (h : Halted) : StateM World RunOutcome := do
  if !h.dirty then b.finish h.run h.phase .failed
  else
    match h.run.set with
    | none => b.abandon h.run h.phase (.noSnapshot .setOfRun)
    | some set =>
      match ← (b.store.rollbackSet set.id true).settle with
      | .ok restored =>
        return { ← b.finish h.run h.phase .rolledBack with rolledBack := true, restored }
      | .error e => b.abandon h.run h.phase e

/-! ## Trial runs -/

/-- The outcome of an action on trial and the overlay that it leaves. -/
def tryAction (b : Workbench) (a : PlannedAction) (d : Defect) (overlay : Overlay) :
    StateM World (ActionOutcome × Overlay) := do
  match b.catalog.find? a.refactoring with
  | none => return (.failed (.unknown a.refactoring), overlay)
  | some refactoring =>
    match ← (b.trial refactoring d overlay).settle with
    | .ok (detail, overlay) => return (.ofDetail detail, overlay)
    | .error e => return (.failed e, overlay)

/-- Tries actions in order, the first of them with a given index. What they would have written is
in the overlay that they leave. -/
def tryActions (b : Workbench) (r : Run) (lines : LineMap) (overlay : Overlay) (index : Nat) :
    List PlannedAction → StateM World (Run × Overlay)
  | [] => return (r, overlay)
  | a :: rest => do
    let d := lines.remapDefect ((← get).identity a.defect.file) a.defect
    let (outcome, overlay) ← b.tryAction a d overlay
    let lines := lines.record ((← get).identity d.file) outcome.shifts
    b.tryActions (r.report index a.refactoring d outcome) lines overlay (index + 1) rest

/-- A trial run. -/
def dryRun (b : Workbench) (r : Run) : StateM World RunOutcome := do
  let (r, _) ← b.tryActions r .empty [] 0 r.plan.actions
  let o ← b.finish r .apply .complete
  return { o with dryRun := true, success := o.failedCount = 0 }

/-! ## Runs -/

/-- The run for a list of defects. -/
def run (b : Workbench) (defects : List Defect) : StateM World RunOutcome := do
  let r : Run := { plan := Plan.build b.root b.catalog defects }
  if r.plan.actions.isEmpty then b.finish r .planning .complete
  else if b.settings.isDryRun then b.dryRun r
  else
    match ← (b.phases r).settle with
    | .ok (r, phase) => b.finish r phase .complete
    | .error h => b.recover h

/-- The workbench of a project. -/
def ofSettings (parse : Syntax.Parser) (launch : Build.Launcher) (root : Path) (s : Settings) :
    Act SnapshotError Workbench := do
  let store ← SnapshotStore.openAt (s.snapshots.directory root) s.snapshots
  Act.look fun w =>
    let validator := Validator.ofSettings parse launch w root s.validator s.build
    let verifier := (Build.Commands.resolve w root s.build).verifier s.build
    { root, parse, catalog := Catalog.standard s.tuning, store, check := validator.check
      build := verifier.verifyBuild (Build.runIn launch s.build root)
      test := verifier.verifyTests (Build.runIn launch s.build root)
      settings := s.workflow }

end Workbench

end Amend
