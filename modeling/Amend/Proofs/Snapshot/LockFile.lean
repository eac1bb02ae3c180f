import Amend.Proofs.Snapshot.Calm

/-!
# The file of a lock

What the single steps of locking do to the file of a key, once the directory of the lock files is
there: creating it, judging its age and removing it.  Each changes that file or nothing.
-/

namespace Amend.FileLocks

open Disk (Frame)
open SnapshotStore (below_lockLocation lockLocation lockLocation_ne_nil locate_lockFile)
open World (Within)

/-! ## Worlds with a lock file and without -/

section

variable {base : Location} {key : Path} {w : World} {l : Location}

/-- The world in which the lock file of a key was created. -/
def filed (base : Location) (key : Path) (w : World) : World :=
  { w with disk := w.disk.put (lockLocation base key) (.file "lock\n".toUTF8 defaultMode w.now) }

/-- The world in which the lock file of a key was removed. -/
def cleared (base : Location) (key : Path) (w : World) : World :=
  { w with disk := w.disk.erase (lockLocation base key) }

@[simp] theorem at?_filed : (filed base key w).disk.at? (lockLocation base key) =
    some (.file "lock\n".toUTF8 defaultMode w.now) :=
  Disk.at?_put_self _ _ _ (lockLocation_ne_nil key)

theorem at?_filed_of_ne (h : l ≠ lockLocation base key) :
    (filed base key w).disk.at? l = w.disk.at? l := Disk.at?_put_of_ne _ _ h

@[simp] theorem at?_cleared : (cleared base key w).disk.at? (lockLocation base key) = none :=
  Disk.at?_erase_self _ _ (lockLocation_ne_nil key)

theorem at?_cleared_of_ne (h : l ≠ lockLocation base key) :
    (cleared base key w).disk.at? l = w.disk.at? l := Disk.at?_erase_of_ne _ h

end

/-! ## Single steps -/

/-- Locks whose directory is there, so that the lock file of each key has its place. -/
structure Placed (locks : FileLocks) (dir : Path) (base : Location) (w : World) : Prop where
  under : locks.Under dir base w
  locksDir : w.disk.at? (base ++ ["locks"]) = some .directory

namespace Placed

variable {locks : FileLocks} {dir : Path} {base : Location} {w w' : World} {key : Path}

theorem within (h : Placed locks dir base w) (hw : Within (base <+: ·) w w') :
    Placed locks dir base w' where
  under := h.under.within hw fun _ hl => hl
  locksDir := hw.frame.directory _ h.locksDir

/-- Neither the memory of a process nor the time nor what the system says matters. -/
theorem memory (h : Placed locks dir base w) (now : Nat) (held : List Path)
    (trouble : List (Option SystemError)) :
    Placed locks dir base { w with now, held, trouble } :=
  h.within ⟨Frame.refl w.disk, rfl, rfl, rfl, Nat.le_refl _, rfl⟩

theorem filed (h : Placed locks dir base w)
    (hnone : w.disk.at? (lockLocation base key) = none) :
    Placed locks dir base (filed base key w) := by
  have hframe := Frame.put_file (lockLocation_ne_nil key) (by rw [hnone]; exact nofun)
    "lock\n".toUTF8 defaultMode w.now
  exact h.within (Within.ofDisk (hframe.mono fun l hl => hl ▸ below_lockLocation key) w.trouble)

theorem cleared (h : Placed locks dir base w)
    (hfile : w.disk.at? (lockLocation base key) ≠ some .directory) :
    Placed locks dir base (cleared base key w) := by
  have hframe := Frame.erase (lockLocation_ne_nil key) hfile
  exact h.within (Within.ofDisk (hframe.mono fun l hl => hl ▸ below_lockLocation key) w.trouble)

/-- A lock file is created where there is none, or nothing changes. -/
theorem ends_createNew (h : Placed locks dir base w) (key : Path) :
    (World.createNew (locks.fileOf key) "lock\n".toUTF8).Ends w fun r w' =>
      match r with
      | .ok _ => w.disk.at? (lockLocation base key) = none ∧
          ∃ trouble, w' = FileLocks.filed base key { w with trouble }
      | .error _ => ∃ trouble, w' = { w with trouble } := by
  refine World.ends_diskOperation (fun e trouble => ⟨trouble, rfl⟩) fun trouble d hd => ?_
  obtain ⟨l, hl, hnone, rfl⟩ := Disk.create_eq_ok hd
  change w.disk.locate (w.absolute (locks.fileOf key)) false = .ok l at hl
  rw [locate_lockFile h.under h.locksDir] at hl
  cases hl
  exact ⟨hnone, trouble, rfl⟩

/-- A lock file that is there is removed, or nothing changes. -/
theorem ends_removeFile (h : Placed locks dir base w) (key : Path) :
    (World.removeFile (locks.fileOf key)).Ends w fun r w' =>
      match r with
      | .ok _ => w.disk.at? (lockLocation base key) ≠ some .directory ∧
          ∃ trouble, w' = FileLocks.cleared base key { w with trouble }
      | .error _ => ∃ trouble, w' = { w with trouble } := by
  refine World.ends_diskOperation (fun e trouble => ⟨trouble, rfl⟩) fun trouble d hd => ?_
  obtain ⟨l, e, hl, he, hdirectory, rfl⟩ := Disk.remove_eq_ok hd
  change w.disk.locate (w.absolute (locks.fileOf key)) false = .ok l at hl
  rw [locate_lockFile h.under h.locksDir] at hl
  cases hl
  refine ⟨?_, trouble, rfl⟩
  change w.disk.at? (lockLocation base key) = some e at he
  rw [he]
  exact fun heq => hdirectory (Option.some.inj heq)

/-- A lock file is stale if its last change lies further back than the stale time. -/
theorem isStale_iff (h : Placed locks dir base w) :
    locks.isStale w (locks.fileOf key) = true ↔ ∃ content mode modified,
      w.disk.at? (lockLocation base key) = some (.file content mode modified) ∧
        locks.staleMs < w.now - modified := by
  have hstat (e : Entry) : w.stat (locks.fileOf key) = .ok e ↔
      w.disk.at? (lockLocation base key) = some e := by
    rw [World.stat, Disk.stat_eq_ok_iff]
    simp only [locate_lockFile h.under h.locksDir, Except.ok.injEq, exists_eq_left']
  rw [isStale]
  constructor
  · intro hstale
    split at hstale
    case h_1 content mode modified hfile =>
      exact ⟨content, mode, modified, (hstat _).mp hfile, of_decide_eq_true hstale⟩
    case h_2 => cases hstale
  · rintro ⟨content, mode, modified, hfile, hlt⟩
    rw [(hstat _).mpr hfile]
    exact decide_eq_true hlt

/-! ### Where the system refuses nothing -/

theorem createNew_of_none (h : Placed locks dir base w) (htrouble : w.trouble = [])
    (hnone : w.disk.at? (lockLocation base key) = none) :
    (World.createNew (locks.fileOf key) "lock\n".toUTF8).apply w =
      (.ok (), FileLocks.filed base key w) := by
  have hcreate : (World.createNew (locks.fileOf key) "lock\n".toUTF8).Yields w fun _ w' =>
      w' = FileLocks.filed base key w :=
    World.yields_diskOperation htrouble
      (Disk.create_of_none (locate_lockFile h.under h.locksDir key) hnone) rfl
  rcases hrun : (World.createNew (locks.fileOf key) "lock\n".toUTF8).apply w with ⟨r, w'⟩
  obtain ⟨_, rfl, rfl⟩ := Act.Ends.of_apply hcreate hrun
  rfl

theorem createNew_of_some (h : Placed locks dir base w) (htrouble : w.trouble = []) {e : Entry}
    (hat : w.disk.at? (lockLocation base key) = some e) :
    (World.createNew (locks.fileOf key) "lock\n".toUTF8).apply w =
      (.error .alreadyExists, w) := by
  have hthere : w.disk.create (w.absolute (locks.fileOf key)) "lock\n".toUTF8 w.now =
      .error .alreadyExists := by
    rw [Disk.create, locate_lockFile h.under h.locksDir]
    simp only [bind, Except.bind, hat]
  have hcreate : (World.createNew (locks.fileOf key) "lock\n".toUTF8).Ends w fun r w' =>
      r = .error .alreadyExists ∧ w' = w := by
    rw [World.createNew, World.diskOperation]
    refine World.ends_operation_of_error htrouble ?_ ⟨rfl, rfl⟩
    rw [hthere]
    rfl
  rcases hrun : (World.createNew (locks.fileOf key) "lock\n".toUTF8).apply w with ⟨r, w'⟩
  obtain ⟨rfl, rfl⟩ := Act.Ends.of_apply hcreate hrun
  rfl

theorem removeFile_of_file (h : Placed locks dir base w) (htrouble : w.trouble = [])
    {content : ByteArray} {mode modified : Nat}
    (hfile : w.disk.at? (lockLocation base key) = some (.file content mode modified)) :
    (World.removeFile (locks.fileOf key)).apply w = (.ok (), FileLocks.cleared base key w) := by
  have hremove : (World.removeFile (locks.fileOf key)).Yields w fun _ w' =>
      w' = FileLocks.cleared base key w :=
    World.yields_diskOperation htrouble
      (Disk.remove_of_file (locate_lockFile h.under h.locksDir key) hfile) rfl
  rcases hrun : (World.removeFile (locks.fileOf key)).apply w with ⟨r, w'⟩
  obtain ⟨_, rfl, rfl⟩ := Act.Ends.of_apply hremove hrun
  rfl

end Placed

end Amend.FileLocks
