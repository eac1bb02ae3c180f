import Amend.Snapshot.Store

/-!
# Rollback

Putting files back from a store: one snapshot, the newest of a file, or all of a set. A snapshot
that was put back before is left alone unless it is forced. Of a set every member is tried, and
the first failure is reported after the rest.
-/

namespace Amend

/-- Whether a file was put back or had been before. -/
inductive RestoreStatus where
  | restored
  | alreadyRestored
deriving DecidableEq

/-- The written name of a status. -/
def RestoreStatus.name : RestoreStatus → String
  | .restored => "restored"
  | .alreadyRestored => "already_restored"

/-- What became of one snapshot. -/
structure RestoreReport where
  id : Uid
  path : Path
  status : RestoreStatus
deriving DecidableEq

/-- A written report. -/
def RestoreReport.toJson (r : RestoreReport) : Json :=
  .obj [("snapshot_id", .str r.id.render), ("path", .str r.path.text),
    ("status", .str r.status.name)]

namespace SnapshotStore

/-- The snapshots of a file, the newest first. -/
def rollbackList (s : SnapshotStore) (file : Path) : Act RollbackError (List Snapshot) :=
  (s.listFor file).mapError (.restore file.text)

/-- Puts a snapshot back, unless that was done before and is not forced. -/
def rollbackSnapshot (s : SnapshotStore) (snapshot : Snapshot) (force : Bool) :
    Act RollbackError RestoreReport := do
  let name := snapshot.source.text
  let before ← (s.restoredAt snapshot.id).mapError (.restore name)
  if before.isSome && !force then return ⟨snapshot.id, snapshot.source, .alreadyRestored⟩
  (s.restore snapshot).mapError (.restore name)
  (s.markRestored snapshot.id).mapError (.restore name)
  return ⟨snapshot.id, snapshot.source, .restored⟩

/-- Puts back the snapshot of that name. -/
def rollbackId (s : SnapshotStore) (id : Uid) (force : Bool) :
    Act RollbackError RestoreReport := do
  match ← (s.get id).outcome with
  | .ok snapshot => s.rollbackSnapshot snapshot force
  | .error (.notFound ..) => throw (.noSnapshot (.snapshot id))
  | .error e => throw (.restore id.render e)

/-- Puts back the newest snapshot of a file. -/
def rollbackLatest (s : SnapshotStore) (file : Path) (force : Bool) :
    Act RollbackError RestoreReport := do
  match ← (s.latestFor file).mapError (.restore file.text) with
  | some snapshot => s.rollbackSnapshot snapshot force
  | none => throw (.noSnapshot (.latest file))

/-- Puts back snapshots one after the other, whatever becomes of those before, and tells what
became of each. -/
def rollbackAll (s : SnapshotStore) (force : Bool) :
    List Uid → Act RollbackError (List (Except RollbackError RestoreReport))
  | [] => return []
  | id :: ids => do
    let first ← (s.rollbackId id force).outcome
    return first :: (← s.rollbackAll force ids)

/-- Puts back every member of a set. -/
def rollbackSet (s : SnapshotStore) (id : Uid) (force : Bool) :
    Act RollbackError (List RestoreReport) := do
  match ← (s.getSet id).outcome with
  | .error (.notFound ..) => throw (.noSnapshot (.set id))
  | .error e => throw (.restore id.render e)
  | .ok set =>
    let results ← s.rollbackAll force set.members
    results.mapM .ofExcept

end SnapshotStore

end Amend
