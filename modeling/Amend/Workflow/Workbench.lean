import Amend.Digest.Blake3
import Amend.Workflow.Report

/-!
# One action on the workbench

A workbench has all that a run works with. Live, an action takes a snapshot, writes the rewrite,
has the file checked and puts the snapshot back if the check fails. On trial, the rewrite goes into
an overlay in memory and nothing else happens.
-/

namespace Amend

/-- What a run works with: how texts are parsed, which refactorings there are, where snapshots go,
how a written file is checked and how the project is built and tested. -/
structure Workbench where
  root : Path
  parse : Syntax.Parser
  catalog : Catalog
  store : SnapshotStore
  check : Path → StateM World Verdict
  build : Act Build.RunError Build.StepOutcome
  test : Act Build.RunError Build.StepOutcome
  settings : WorkflowSettings

namespace Workbench

/-- The failure of an action that a failed rewrite is. -/
def rewriteFailure (r : Refactoring) (d : Defect) (e : RewriteError) : ApplyError :=
  match e with
  | .badOffset | .extraction .badOffset | .extraction .endless =>
    .breakdown r.name d.file d.startLine
  | e => .refactoring (.rewrite e)

/-- The rewrite that a refactoring makes of a content. -/
def rewrite (b : Workbench) (r : Refactoring) (d : Defect) (content : String) :
    Act ApplyError Rewrite :=
  (Act.ofExcept (r.compute b.parse d content)).mapError (rewriteFailure r d)

/-- The snapshot to put back if the check fails: the one of the run while it still has the current
content, else a new one. -/
def snapshotFor (b : Workbench) (file : Path) (current : String) (member : Option Snapshot) :
    Act SnapshotError Snapshot :=
  match member.filter fun m => Digest.blake3 current.toUTF8 = m.checksum with
  | some m => return m
  | none => b.store.create file

/-- The detail of a written file by the verdict on it. -/
def settled (written : ApplyDetail) (shifts : List LineShift) (merged : String)
    (verdict : Verdict) : ApplyDetail :=
  if verdict.success then
    { written with
      status := if verdict.warnings.isEmpty then .success else .successWithWarnings
      compilation := .passed
      validation := some verdict
      linesAfter := Text.lineCount merged
      shifts }
  else
    { written with
      status := .compilationFailed
      compilation := .failed
      validation := some verdict
      restored := true }

/-- Carries out an action. -/
def apply (b : Workbench) (r : Refactoring) (d : Defect) (member : Option Snapshot) :
    Act ApplyError ApplyDetail := do
  (Refactoring.checkTarget b.parse d.file).mapError .refactoring
  let original ← (World.readText d.file).mapError (.read d.file)
  match ← b.rewrite r d original with
  | .advice description notes => return .advice r d description notes original
  | .edit content shifts description =>
    let snapshot ← (b.snapshotFor d.file original member).mapError .snapshot
    let (merged, mode) := merge b.parse original content
    (writeFile d.file merged.toUTF8).mapError .write
    let verdict ← Act.always (b.check d.file)
    if !verdict.success then
      (b.store.restore snapshot).mapError fun e => .rollback (.restore d.file.text e)
    let written :=
      { ApplyDetail.unchanged r d description .success original with
        merge := some mode, snapshot := some snapshot.id }
    return settled written shifts merged verdict

/-! ## Trial -/

/-- Contents that a trial has written, by the identity of their files, the newest first. -/
abbrev Overlay := List (Path × String)

/-- The content of a file on trial. -/
def contentOnTrial (overlay : Overlay) (file : Path) : Act ApplyError String := do
  let key ← Act.look (·.identity file)
  match overlay.lookup key with
  | some content => return content
  | none => (World.readText file).mapError (.read file)

/-- Tries an action. -/
def trial (b : Workbench) (r : Refactoring) (d : Defect) (overlay : Overlay) :
    Act ApplyError (ApplyDetail × Overlay) := do
  let original ← contentOnTrial overlay d.file
  match ← b.rewrite r d original with
  | .advice description notes => return (.advice r d description notes original, overlay)
  | .edit content shifts description =>
    let (merged, mode) := merge b.parse original content
    let detail :=
      { ApplyDetail.unchanged r d description .success original with
        linesAfter := Text.lineCount merged, shifts, merge := some mode }
    let key ← Act.look (·.identity d.file)
    return (detail, (key, merged) :: overlay)

end Workbench

end Amend
