import Amend.Settings
import Amend.Snapshot.Index
import Amend.Snapshot.Lock

/-!
# The snapshot store

A store keeps checksummed copies of files in one directory, each named after its file and the time
of its creation, beside an index of them. Every change of the index is a read, a change and a
write under the lock of the index; a copy is taken and put back under the lock of its file.

Of each file only the newest snapshots are kept, but never fewer than the sets need that this
process took and has not released.
-/

namespace Amend

/-- A store in a directory. -/
structure SnapshotStore where
  dir : Path
  /-- How many snapshots of a file are kept. -/
  kept : Nat
  policy : ChecksumPolicy
  locks : FileLocks

namespace SnapshotStore

/-- The store of some settings in a directory. -/
def ofSettings (dir : Path) (s : SnapshotSettings) : SnapshotStore where
  dir
  kept := s.kept
  policy := s.policy
  locks := { dir := dir ++ "locks", staleMs := 1000 * s.staleSecs }

/-- Opens the store of some settings in a directory, which is created if need be. Nothing is
pinned in it at first. -/
def openAt (dir : Path) (s : SnapshotSettings) : Act SnapshotError SnapshotStore := do
  (World.makeDirectories dir).mapError (.io dir)
  Act.change fun w => { w with pinned := [] }
  return ofSettings dir s

/-- The file of the index. -/
def indexFile (s : SnapshotStore) : Path := s.dir ++ "index.json"

/-- The index on the disk, empty where there is no file. -/
def loadIndex (s : SnapshotStore) : Act SnapshotError SnapshotIndex := do
  if ← Act.look (·.pathExists s.indexFile) then
    let bytes ← (World.readBytes s.indexFile).mapError (.io s.indexFile)
    match SnapshotIndex.decode? bytes with
    | some index => return index
    | none => throw (.badIndex s.indexFile)
  else return .empty

/-- The index, read under its lock. -/
def index (s : SnapshotStore) : Act SnapshotError SnapshotIndex :=
  s.locks.withLock s.indexFile s.loadIndex

/-- Changes the index under its lock. Nothing is written if the change fails. -/
def updateIndex {α : Type} (s : SnapshotStore)
    (f : SnapshotIndex → Act SnapshotError (α × SnapshotIndex)) : Act SnapshotError α :=
  s.locks.withLock s.indexFile do
    let index ← s.loadIndex
    let (a, index) ← f index
    (writeFile s.indexFile index.encode).mapError .write
    return a

/-- The name of a copy made at a time. -/
def copyName (source : Path) (t : Timestamp) : String :=
  source.fileName?.getD "file" ++ ".backup." ++ t.stamp

/-- The first name that is free, counting from `n` behind a base name; 0 stands for the base name
itself. The fuel bounds the number of attempts. -/
def freeName (w : World) (dir : Path) (base : String) : Nat → Nat → Path
  | 0, n => dir ++ (base ++ "-" ++ toString n)
  | fuel + 1, n =>
    let candidate := dir ++ (if n = 0 then base else base ++ "-" ++ toString n)
    if w.pathExists candidate then freeName w dir base fuel (n + 1) else candidate

/-- Where the copy of a file goes that is made at a time. -/
def locationFor (s : SnapshotStore) (source : Path) (t : Timestamp) (w : World) : Path :=
  freeName w s.dir (copyName source t) (w.disk.entries.length + 1) 0

/-- What a wrong checksum means. -/
def mismatch (s : SnapshotStore) (path : Path) (expected actual : String) :
    Act SnapshotError Unit :=
  match s.policy with
  | .strict => throw (.checksumMismatch path expected actual)
  | .advisory => return

/-- Removes a copy, which may be gone already. -/
def removeCopy (location : Path) : Act SnapshotError Unit := do
  match ← (World.removeFile location).outcome with
  | .ok () | .error .notFound => return
  | .error e => throw (.io location e)

/-! ## Looking up -/

/-- The snapshot of that name. -/
def get (s : SnapshotStore) (id : Uid) : Act SnapshotError Snapshot := do
  match (← s.index).find? id with
  | some snapshot => return snapshot
  | none => throw (.notFound false id)

/-- The snapshots of a file, the newest first. -/
def listFor (s : SnapshotStore) (file : Path) : Act SnapshotError (List Snapshot) := do
  let key ← Act.look (·.identity file)
  return (← s.index).ofFile key

/-- The newest snapshot of a file. -/
def latestFor (s : SnapshotStore) (file : Path) : Act SnapshotError (Option Snapshot) := do
  return (← s.listFor file).head?

/-- All snapshots, the newest first. -/
def listAll (s : SnapshotStore) : Act SnapshotError (List Snapshot) := do
  return Snapshot.newestFirst (← s.index).snapshots

/-- The set of that name. -/
def getSet (s : SnapshotStore) (id : Uid) : Act SnapshotError SnapshotSet := do
  match (← s.index).findSet? id with
  | some set => return set
  | none => throw (.notFound true id)

/-- When a snapshot was last put back. -/
def restoredAt (s : SnapshotStore) (id : Uid) : Act SnapshotError (Option Timestamp) := do
  return (← s.index).restoredAt? id

/-! ## Dropping -/

/-- Drops a snapshot and its copy. -/
def delete (s : SnapshotStore) (id : Uid) : Act SnapshotError Unit := do
  let dropped ← s.updateIndex fun index =>
    match index.find? id with
    | some snapshot => return (snapshot, index.drop id)
    | none => throw (.notFound false id)
  removeCopy dropped.location

/-- The snapshots behind the first `keep` of a file that nothing pins. -/
def expired (pinned : List Uid) (keep : Nat) (newestFirst : List Snapshot) : List Uid :=
  ((newestFirst.drop keep).map (·.id)).filter fun id => !pinned.contains id

/-- Drops all but the `keep` newest snapshots of a file and the pinned ones, and tells which. -/
def retain (s : SnapshotStore) (file : Path) (keep : Nat) : Act SnapshotError (List Uid) := do
  let pinned ← Act.look (·.pinned)
  let gone := expired pinned keep (← s.listFor file)
  gone.forM s.delete
  return gone

/-! ## Taking snapshots -/

/-- Copies a file under its lock and records the copy. A copy that cannot be recorded is removed
again. -/
def record (s : SnapshotStore) (source : Path) : Act SnapshotError Snapshot :=
  s.locks.withLock source do
    let bytes ← (World.readBytes source).mapError (.io source)
    let createdAt ← World.readClock
    let location ← Act.look (s.locationFor source createdAt)
    (writeFile location bytes).mapError .write
    let recorded ← (s.updateIndex fun index => do
      let snapshot : Snapshot :=
        { id := ← World.drawId, source, location, checksum := Digest.blake3 bytes, createdAt
          size := MachineWord.wrap bytes.size, sequence := index.nextSequence }
      return (snapshot, index.add snapshot)).outcome
    match recorded with
    | .ok snapshot => return snapshot
    | .error e =>
      let _ ← (removeCopy location).outcome
      throw e

/-- Takes a snapshot of a file and drops the snapshots of it that are no longer kept. -/
def create (s : SnapshotStore) (file : Path) : Act SnapshotError Snapshot := do
  let source ← Act.look (·.identity file)
  if ← Act.look (·.isFile source) then
    let snapshot ← s.record source
    let _ ← s.retain source s.kept
    return snapshot
  else throw (.sourceMissing file)

/-- Takes a snapshot of each file that is not among those seen. If one fails, the snapshots taken
so far are dropped again. -/
def createMembers (s : SnapshotStore) (seen : List Path) (taken : List Snapshot) :
    List Path → Act SnapshotError (List Snapshot)
  | [] => return taken
  | file :: files => do
    let key ← Act.look (·.identity file)
    if seen.any (·.same key) then s.createMembers seen taken files
    else
      match ← (s.create file).outcome with
      | .ok snapshot => s.createMembers (seen ++ [key]) (taken ++ [snapshot]) files
      | .error e =>
        taken.forM fun t => do
          let _ ← (s.delete t.id).outcome
        throw e

/-- Takes one snapshot of each of some files, all or none, as a set. Its members stay until it is
released. -/
def createSet (s : SnapshotStore) (files : List Path) : Act SnapshotError SnapshotSet := do
  let members ← s.createMembers [] [] files
  let set : SnapshotSet :=
    { id := ← World.drawId, createdAt := ← World.readClock, members := members.map (·.id) }
  s.updateIndex fun index => return ((), index.addSet set)
  Act.change fun w => { w with pinned := w.pinned ++ set.members }
  return set

/-- Lets the members of a set be dropped again. -/
def releaseSet {ε : Type} (s : SnapshotStore) (id : Uid) : Act ε Unit := do
  match ← (s.getSet id).outcome with
  | .ok set =>
    Act.change fun w => { w with pinned := w.pinned.filter fun p => !set.members.contains p }
  | .error _ => return

/-! ## Putting back -/

/-- Writes the copy of a snapshot over its file. -/
def restore (s : SnapshotStore) (snapshot : Snapshot) : Act SnapshotError Unit :=
  s.locks.withLock snapshot.source do
    let bytes ← (World.readBytes snapshot.location).mapError (.io snapshot.location)
    let stored := Digest.blake3 bytes
    if stored ≠ snapshot.checksum then s.mismatch snapshot.location snapshot.checksum stored
    (writeFile snapshot.source bytes).mapError .write
    let written ← (World.readBytes snapshot.source).mapError (.io snapshot.source)
    let actual := Digest.blake3 written
    if actual ≠ stored then s.mismatch snapshot.source stored actual

/-- Notes that a snapshot was put back. -/
def markRestored (s : SnapshotStore) (id : Uid) : Act SnapshotError Unit :=
  s.updateIndex fun index => do
    match index.find? id with
    | some _ => return ((), index.mark id (← World.readClock))
    | none => throw (.notFound false id)

end SnapshotStore

end Amend
