import Amend.Json.Reader
import Amend.Json.Writer
import Amend.Path
import Amend.Timestamp
import Amend.Uid

/-!
# The index of a snapshot store

What a store knows of its copies: the snapshots in the order in which they were taken, the sets
that were taken together, and when a snapshot was last put back. The index is kept as a JSON
document.
-/

namespace Amend

/-- An immutable copy of one file. -/
structure Snapshot where
  id : Uid
  /-- The file that was copied. -/
  source : Path
  /-- Where the copy is. -/
  location : Path
  /-- The digest of the content. -/
  checksum : String
  createdAt : Timestamp
  size : Nat
  /-- Orders snapshots of one reading of the clock. -/
  sequence : Nat
deriving DecidableEq, Inhabited

/-- Snapshots taken together, one per file. -/
structure SnapshotSet where
  id : Uid
  createdAt : Timestamp
  members : List Uid
deriving DecidableEq, Inhabited

/-- The index. The times at which snapshots were put back are in the order of their names. -/
structure SnapshotIndex where
  nextSequence : Nat := 0
  snapshots : List Snapshot := []
  sets : List SnapshotSet := []
  restored : List (Uid × Timestamp) := []
deriving DecidableEq, Inhabited

namespace Snapshot

/-- Whether a snapshot is newer than another, or as new and as late in the order. -/
def newerOrEqual (a b : Snapshot) : Bool :=
  match Timestamp.order a.createdAt b.createdAt with
  | .gt => true
  | .eq => a.sequence ≥ b.sequence
  | .lt => false

/-- Snapshots, the newest first. -/
def newestFirst (ss : List Snapshot) : List Snapshot := ss.mergeSort newerOrEqual

/-- A written snapshot. -/
def toJson (s : Snapshot) : Json :=
  .obj [("id", .str s.id.render), ("original", .str s.source.text),
    ("location", .str s.location.text), ("checksum", .str s.checksum),
    ("created_at", .str s.createdAt.render), ("size", .nat s.size),
    ("sequence", .nat s.sequence)]

/-- The fields of a written snapshot. -/
def fieldNames : List (String × Bool) :=
  [("id", false), ("original", false), ("location", false), ("checksum", false),
   ("created_at", false), ("size", false), ("sequence", false)]

/-- Reads a snapshot. -/
def ofJson? (j : Json) : Option Snapshot := do
  match ← j.fields? fieldNames with
  | [some id, some source, some location, some checksum, some at_, some size, some sequence] =>
    return { id := ← id.str? >>= Uid.ofText?, source := ⟨← source.str?⟩
             location := ⟨← location.str?⟩, checksum := ← checksum.str?
             createdAt := ← at_.str? >>= Timestamp.ofText?, size := ← size.word?
             sequence := ← sequence.word? }
  | _ => none

end Snapshot

namespace SnapshotSet

/-- A written set. -/
def toJson (s : SnapshotSet) : Json :=
  .obj [("id", .str s.id.render), ("created_at", .str s.createdAt.render),
    ("members", .list (fun m => .str m.render) s.members)]

/-- Reads a set. -/
def ofJson? (j : Json) : Option SnapshotSet := do
  match ← j.fields? [("id", false), ("created_at", false), ("members", false)] with
  | [some id, some at_, some members] =>
    return { id := ← id.str? >>= Uid.ofText?, createdAt := ← at_.str? >>= Timestamp.ofText?
             members := ← members.list? fun m => m.str? >>= Uid.ofText? }
  | _ => none

end SnapshotSet

namespace SnapshotIndex

/-- The index of an empty store. -/
def empty : SnapshotIndex := {}

/-- The snapshot of that name. -/
def find? (i : SnapshotIndex) (id : Uid) : Option Snapshot := i.snapshots.find? (·.id = id)

/-- The set of that name. -/
def findSet? (i : SnapshotIndex) (id : Uid) : Option SnapshotSet := i.sets.find? (·.id = id)

/-- The snapshots of a file, the newest first. -/
def ofFile (i : SnapshotIndex) (file : Path) : List Snapshot :=
  Snapshot.newestFirst (i.snapshots.filter (·.source.same file))

/-- When a snapshot was last put back. -/
def restoredAt? (i : SnapshotIndex) (id : Uid) : Option Timestamp := i.restored.lookup id

/-- Times of restores with one more, in the order of the names. -/
def insertMark (id : Uid) (t : Timestamp) :
    List (Uid × Timestamp) → List (Uid × Timestamp)
  | [] => [(id, t)]
  | (m, u) :: rest =>
    if m = id then (id, t) :: rest
    else if id.toNat < m.toNat then (id, t) :: (m, u) :: rest
    else (m, u) :: insertMark id t rest

/-- The index with one more snapshot, which takes the next number. Numbers are words. -/
def add (i : SnapshotIndex) (s : Snapshot) : SnapshotIndex :=
  { i with
    nextSequence := MachineWord.wrap (i.nextSequence + 1)
    snapshots := i.snapshots ++ [s] }

/-- The index with one more set. -/
def addSet (i : SnapshotIndex) (s : SnapshotSet) : SnapshotIndex :=
  { i with sets := i.sets ++ [s] }

/-- The index without the snapshot of that name. -/
def drop (i : SnapshotIndex) (id : Uid) : SnapshotIndex :=
  { i with
    snapshots := i.snapshots.eraseP (·.id = id)
    restored := i.restored.filter (·.1 ≠ id) }

/-- The index in which a snapshot counts as put back. -/
def mark (i : SnapshotIndex) (id : Uid) (t : Timestamp) : SnapshotIndex :=
  { i with restored := insertMark id t i.restored }

/-- A written index. -/
def toJson (i : SnapshotIndex) : Json :=
  .obj [("next_sequence", .nat i.nextSequence), ("snapshots", .list Snapshot.toJson i.snapshots),
    ("sets", .list SnapshotSet.toJson i.sets),
    ("restored", .obj (i.restored.map fun (id, t) => (id.render, .str t.render)))]

/-- Reads the times of restores; of a repeated name the last counts. -/
def marks? : Json → Option (List (Uid × Timestamp))
  | .obj fields => fields.foldlM (fun marks (name, t) => do
      return insertMark (← Uid.ofText? name) (← t.str? >>= Timestamp.ofText?) marks) []
  | _ => none

/-- The fields of a written index. -/
def fieldNames : List (String × Bool) :=
  [("next_sequence", true), ("snapshots", true), ("sets", true), ("restored", true)]

/-- Reads an index, whose fields may all be left out. -/
def ofJson? (j : Json) : Option SnapshotIndex := do
  match ← j.fields? fieldNames with
  | [next, snapshots, sets, restored] =>
    return { nextSequence := ← (next.getD (.nat 0)).word?
             snapshots := ← (snapshots.getD (.arr [])).list? Snapshot.ofJson?
             sets := ← (sets.getD (.arr [])).list? SnapshotSet.ofJson?
             restored := ← marks? (restored.getD (.obj [])) }
  | _ => none

/-- The document that an index is kept as. -/
def encode (i : SnapshotIndex) : ByteArray := i.toJson.document.toUTF8

/-- Reads the document of an index. -/
def decode? (bytes : ByteArray) : Option SnapshotIndex := do
  ofJson? (← Json.parse? (← String.fromUTF8? bytes))

end SnapshotIndex

end Amend
