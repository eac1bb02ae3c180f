import Amend.Digest.Blake3
import Amend.Snapshot.Failure

/-!
# Locks

A lock on a key is held in two places: in the memory of the process, and as a file that only one
process can create, so that runs in separate processes exclude each other too. The file is named
by the digest of the key. A lock file older than the stale time counts as abandoned and is broken.

Taking the lock file is made of three steps that other processes may come between: creating the
file, finding out whether a file that is there is stale, and removing a stale one.
-/

namespace Amend

/-- The locks of one directory. -/
structure FileLocks where
  dir : Path
  /-- The age in milliseconds above which a lock file counts as abandoned. -/
  staleMs : Nat
  /-- How many milliseconds a process waits for a lock. -/
  waitMs : Nat := 30000

namespace FileLocks

/-- The milliseconds between two attempts. -/
def retryMs : Nat := 50

/-- The lock file of a key. -/
def fileOf (l : FileLocks) (key : Path) : Path :=
  l.dir.join ⟨Digest.blake3 key.text.toUTF8 ++ ".lock"⟩

/-- Whether this process holds the key. -/
def holds (w : World) (key : Path) : Bool := w.held.any (·.same key)

/-- Whether a lock file is older than the stale time. -/
def isStale (l : FileLocks) (w : World) (file : Path) : Bool :=
  match w.stat file with
  | .ok (.file _ _ modified) => w.now - modified > l.staleMs
  | _ => false

/-- What one attempt on the lock file comes to. -/
inductive Attempt where
  | taken
  | broken
  | busy
  | failed (cause : SystemError)

/-- One attempt: the file is created; one that is there already is removed if it is stale. -/
def attempt (l : FileLocks) (file : Path) : Act SnapshotError Attempt := do
  match ← (World.createNew file "lock\n".toUTF8).outcome with
  | .ok () => return .taken
  | .error .alreadyExists =>
    if ← Act.look (l.isStale · file) then
      let _ ← (World.removeFile file).outcome
      return .broken
    else return .busy
  | .error e => return .failed e

/-- Attempts until the lock file is taken, the deadline has passed or the fuel is used up. -/
def takeFile (l : FileLocks) (key : Path) (deadline : Nat) : Nat → Act SnapshotError Unit
  | 0 => throw (.locked key)
  | fuel + 1 => do
    match ← l.attempt (l.fileOf key) with
    | .taken => return
    | .broken => l.takeFile key deadline fuel
    | .busy =>
      if ← Act.look fun w => decide (w.now ≥ deadline) then throw (.locked key)
      else
        World.sleep retryMs
        l.takeFile key deadline fuel
    | .failed e => throw (.io (l.fileOf key) e)

/-- Takes the lock file of a key, whose directory is created if need be. -/
def acquireFile (l : FileLocks) (key : Path) (deadline : Nat) : Act SnapshotError Unit := do
  (World.makeDirectories l.dir).mapError (.io l.dir)
  let troubles ← Act.look fun w => w.trouble.length
  l.takeFile key deadline (2 * (l.waitMs / retryMs + 2) + troubles)

/-- The world in which this process no longer holds a key. -/
def forget (w : World) (key : Path) : World :=
  { w with held := w.held.filter fun k => !k.same key }

/-- Takes the lock on a key. A key that this process holds already stays locked for as long as it
waits. -/
def acquire (l : FileLocks) (key : Path) : Act SnapshotError Unit := Act.ofFun fun w =>
  if holds w key then
    (.error (.locked key), { w with now := w.now + l.waitMs })
  else
    match (l.acquireFile key (w.now + l.waitMs)).apply { w with held := key :: w.held } with
    | (.ok (), w) => (.ok (), w)
    | (.error e, w) => (.error e, forget w key)

/-- Gives the lock on a key back. A lock file that cannot be removed is left. -/
def release (l : FileLocks) (key : Path) (w : World) : World :=
  forget ((World.removeFile (l.fileOf key)).apply w).2 key

/-- An action under the lock on a key, which is given back whether the action fails or not. -/
def withLock {α : Type} (l : FileLocks) (key : Path) (a : Act SnapshotError α) :
    Act SnapshotError α := Act.ofFun fun w =>
  match (l.acquire key).apply w with
  | (.error e, w) => (.error e, w)
  | (.ok (), w) =>
    match a.apply w with
    | (r, w) => (r, l.release key w)

end FileLocks

end Amend
