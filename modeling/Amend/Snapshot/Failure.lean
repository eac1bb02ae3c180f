import Amend.World

/-!
# Failures of the snapshot store

Why a store refuses an operation, and why files could not be put back. The second kind always
reaches the user, because files may have been left as they should not be.
-/

namespace Amend

/-- Why a store refuses an operation. -/
inductive SnapshotError where
  | io (path : Path) (cause : SystemError)
  | sourceMissing (path : Path)
  /-- There is no snapshot, or no set if so marked, of that name. -/
  | notFound (isSet : Bool) (id : Uid)
  | checksumMismatch (path : Path) (expected actual : String)
  | locked (path : Path)
  /-- The index file is not an index. -/
  | badIndex (path : Path)
  | write (e : WriteError)
deriving DecidableEq

/-- The report of a failure. -/
def SnapshotError.message : SnapshotError → String
  | .io path cause => "Snapshot I/O failed on " ++ path.text ++ ": " ++ cause.message
  | .sourceMissing path => "Cannot snapshot " ++ path.text ++ ": file does not exist"
  | .notFound isSet id =>
    "Snapshot " ++ (if isSet then "set " else "") ++ id.render ++ " not found"
  | .checksumMismatch path expected actual =>
    "Checksum mismatch for " ++ path.text ++ ": expected " ++ expected ++ ", found " ++ actual
  | .locked path => path.text ++ " is locked by another refit run"
  | .badIndex path => "Snapshot index " ++ path.text ++ " is unusable: it does not hold an index"
  | .write e => e.message

/-- What was asked for where no snapshot is available. -/
inductive Unavailable where
  | snapshot (id : Uid)
  | set (id : Uid)
  | latest (path : Path)
  | ofRun (path : Path)
  | setOfRun
deriving DecidableEq

/-- What is not there, in words. -/
def Unavailable.message : Unavailable → String
  | .snapshot id => "no snapshot with id " ++ id.render
  | .set id => "no snapshot set " ++ id.render
  | .latest path => "no snapshot of " ++ path.text
  | .ofRun path => path.text ++ " has no snapshot in this run"
  | .setOfRun => "no snapshot set exists for this run"

/-- Why files could not be put back. -/
inductive RollbackError where
  | noSnapshot (asked : Unavailable)
  /-- The restore of what is named so failed. -/
  | restore (name : String) (cause : SnapshotError)
deriving DecidableEq

/-- The report of a failure. -/
def RollbackError.message : RollbackError → String
  | .noSnapshot asked => "No snapshot available: " ++ asked.message
  | .restore name cause =>
    "CRITICAL: restore of " ++ name ++ " failed: " ++ cause.message ++
      ". Manual intervention required."

end Amend
