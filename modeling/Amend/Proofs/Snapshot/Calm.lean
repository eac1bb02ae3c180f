import Amend.Proofs.Snapshot.Store

/-!
# Stores that nothing stands in the way of

Where the system refuses nothing, no lock is held by others and the directory of the store is
there, an operation cannot fail on the way: locks are taken and given back in pairs, the index is
read and written, and a file that is there gets its snapshot.
-/

namespace Amend

open Disk (Frame Plain Tree)
open Path (IsName)
open FileLocks (Region)
open World (Within)

namespace SnapshotStore

/-! ## Calm stores -/

/-- The name of the lock file of a key. -/
def lockName (key : Path) : String := Digest.blake3 key.text.toUTF8 ++ ".lock"

/-- The location of the lock file of a key. -/
def lockLocation (base : Location) (key : Path) : Location := base ++ ["locks"] ++ [lockName key]

/-- A store that holds the locks on some keys and has nothing in its way, after `n` identifiers
were drawn and with the index `i`.  Since the start only its directory has changed, and no
directory has been created right in it. -/
structure Calm (s : SnapshotStore) (base : Location) (start : World) (keys : List Path) (n : Nat)
    (i : SnapshotIndex) (w : World) : Prop where
  since : Within (base <+: ·) start w
  flat : ∀ name, w.disk.at? (base ++ [name]) = some .directory →
    start.disk.at? (base ++ [name]) = some .directory
  under : s.locks.Under s.dir base w
  tidy : s.dir.IsTidy
  plain : Plain w.disk (w.absolute s.dir) base
  trouble : w.trouble = []
  held : w.held = keys
  drawn : w.drawn = n
  clock : ∀ m, (w.clock m).IsReading
  locksDir : w.disk.at? (base ++ ["locks"]) = some .directory
  taken : ∀ key ∈ keys, ∃ content mode modified,
    w.disk.at? (lockLocation base key) = some (.file content mode modified)
  free : ∀ file, w.disk.at? (base ++ ["locks"] ++ [file]) = none ∨
    ∃ key ∈ keys, file = lockName key
  index : w.disk.at? (indexLocation base) ≠ some .directory
  isAt : i.IsAt base w.disk
  valid : i.IsValid

/-- A key whose lock is none of those that are held. -/
def IsNewKey (keys : List Path) (key : Path) : Prop :=
  ∀ k ∈ keys, k.same key = false ∧ lockName key ≠ lockName k

theorem isNewKey_nil (key : Path) : IsNewKey [] key := fun _ hk => absurd hk List.not_mem_nil

variable {s : SnapshotStore} {base : Location} {keys : List Path} {n : Nat} {i : SnapshotIndex}
  {start w w' : World} {key : Path}

/-- Any moment may be taken for the start. -/
theorem Calm.fromNow (h : s.Calm base start keys n i w) : s.Calm base w keys n i w :=
  { h with
    since := .refl w
    flat := fun _ => id }

/-- Readings of the clock do not matter. -/
theorem Calm.readClock (h : s.Calm base start keys n i w) :
    s.Calm base start keys n i { w with readings := w.readings + 1 } :=
  { h with
    since := h.since.trans ⟨Frame.refl _, rfl, rfl, rfl, Nat.le_refl _, rfl⟩
    under := ⟨h.under.tree, h.under.dir_eq⟩ }

theorem Calm.drawId (h : s.Calm base start keys n i w) :
    s.Calm base start keys (n + 1) i { w with drawn := w.drawn + 1 } :=
  { h with
    since := h.since.trans ⟨Frame.refl _, rfl, rfl, rfl, Nat.le_succ _, rfl⟩
    under := ⟨h.under.tree, h.under.dir_eq⟩
    drawn := congrArg (· + 1) h.drawn }

theorem Calm.pin (h : s.Calm base start keys n i w) (ids : List Uid) :
    s.Calm base { start with pinned := start.pinned ++ ids } keys n i
      { w with pinned := w.pinned ++ ids } :=
  { h with
    since := ⟨h.since.frame, h.since.directory, h.since.clock, h.since.ids, h.since.drawn,
      congrArg (· ++ ids) h.since.pinned⟩
    under := ⟨h.under.tree, h.under.dir_eq⟩ }

/-- What is changed below the directory of a calm store leaves it calm, if the locks and the index
are accounted for. -/
theorem Calm.change (h : s.Calm base start keys n i w) (keys' : List Path) {j : SnapshotIndex}
    {disk : Disk} (hframe : Frame (base <+: ·) w.disk disk)
    (htaken : ∀ key ∈ keys', ∃ content mode modified,
      disk.at? (lockLocation base key) = some (.file content mode modified))
    (hfree : ∀ file, disk.at? (base ++ ["locks"] ++ [file]) = none ∨
      ∃ key ∈ keys', file = lockName key)
    (hflat : ∀ name, disk.at? (base ++ [name]) = some .directory →
      w.disk.at? (base ++ [name]) = some .directory)
    (hindex : disk.at? (indexLocation base) ≠ some .directory) (hisAt : j.IsAt base disk)
    (hvalid : j.IsValid) : s.Calm base start keys' n j { w with disk, held := keys' } where
  since := h.since.trans ⟨hframe, rfl, rfl, rfl, Nat.le_refl _, rfl⟩
  flat := fun name hname => h.flat name (hflat name hname)
  under := ⟨h.under.tree.frame_below hframe fun _ hl => hl, h.under.dir_eq⟩
  tidy := h.tidy
  plain := h.plain.frame hframe
  trouble := h.trouble
  held := rfl
  drawn := h.drawn
  clock := h.clock
  locksDir := hframe.directory _ h.locksDir
  taken := htaken
  free := hfree
  index := hindex
  isAt := hisAt
  valid := hvalid

/-! ## Locks -/

theorem lockLocation_ne_nil (key : Path) : lockLocation base key ≠ [] := by
  simp [lockLocation]

theorem below_lockLocation (key : Path) : base <+: lockLocation base key := by
  rw [lockLocation, List.append_assoc]
  exact List.prefix_append base _

theorem ne_lockLocation (name : String) (key : Path) : base ++ [name] ≠ lockLocation base key := by
  rw [lockLocation, List.append_assoc]
  intro heq
  cases List.append_cancel_left heq

theorem eq_lockName {file : String} (h : base ++ ["locks"] ++ [file] = lockLocation base key) :
    file = lockName key := by
  have hnames : [file] = [lockName key] := List.append_cancel_left h
  exact (List.cons.inj hnames).1

theorem lockName_injective {k : Path} (h : lockLocation base k = lockLocation base key) :
    lockName k = lockName key := eq_lockName h

theorem fits_lockName (key : Path) : Fits (lockName key) := by
  refine ⟨?_, fun h => ?_⟩
  · rw [lockName, String.utf8ByteSize_append, Digest.utf8ByteSize_blake3]
    decide
  · rw [lockName, String.toList_append] at h
    rcases List.mem_append.mp h with h | h
    · exact Text.noZero_toHex _ h
    · exact absurd h (by decide)

theorem locate_lockFile {locks : FileLocks} {dir : Path} (h : locks.Under dir base w)
    (hdir : w.disk.at? (base ++ ["locks"]) = some .directory) (key : Path) {followLast : Bool} :
    w.disk.locate (w.absolute (locks.fileOf key)) followLast = .ok (lockLocation base key) := by
  rw [h.absolute_fileOf]
  exact h.tree.locate_names FileLocks.isName_locks (FileLocks.isName_lockFile key)
    ⟨by decide, by decide⟩ hdir (fits_lockName key)

theorem Calm.locate_lockFile (h : s.Calm base start keys n i w) (key : Path) {followLast : Bool} :
    w.disk.locate (w.absolute (s.locks.fileOf key)) followLast = .ok (lockLocation base key) :=
  SnapshotStore.locate_lockFile h.under h.locksDir key

theorem Calm.at?_lock (h : s.Calm base start keys n i w) (hkey : IsNewKey keys key) :
    w.disk.at? (lockLocation base key) = none := by
  refine (h.free (lockName key)).resolve_right ?_
  rintro ⟨k, hk, heq⟩
  exact (hkey k hk).2 heq

/-- The world in which the lock on a key was taken. -/
def locked (base : Location) (key : Path) (w : World) : World :=
  { w with
    held := key :: w.held
    disk := w.disk.put (lockLocation base key) (.file "lock\n".toUTF8 defaultMode w.now) }

theorem Calm.locked (h : s.Calm base start keys n i w) (hkey : IsNewKey keys key) :
    s.Calm base start (key :: keys) n i (locked base key w) := by
  have hput : Frame (· = lockLocation base key) w.disk (SnapshotStore.locked base key w).disk := by
    refine Frame.put_file (lockLocation_ne_nil key) ?_ _ _ _
    rw [h.at?_lock hkey]
    exact nofun
  have hsame {l : Location} (hl : l ≠ lockLocation base key) :
      (SnapshotStore.locked base key w).disk.at? l = w.disk.at? l :=
    Disk.at?_put_of_ne w.disk _ hl
  have hindex : indexLocation base ≠ lockLocation base key := ne_lockLocation _ key
  have hchange := h.change (key :: keys)
    (hput.mono fun l hl => hl ▸ below_lockLocation key) (fun k hk => ?_) (fun file => ?_)
    (fun name hname => hsame (ne_lockLocation name key) ▸ hname)
    (by rw [hsame hindex]; exact h.index) (h.isAt.frame hput hindex) h.valid
  · rw [SnapshotStore.locked, h.held]
    exact hchange
  · rcases List.mem_cons.mp hk with rfl | hk
    · exact ⟨_, _, _, Disk.at?_put_self _ _ _ (lockLocation_ne_nil k)⟩
    · rw [hsame fun heq => (hkey k hk).2 (lockName_injective heq).symm]
      exact h.taken k hk
  · by_cases heq : file = lockName key
    · exact Or.inr ⟨key, List.mem_cons_self, heq⟩
    · rw [hsame fun hl => heq (eq_lockName hl)]
      exact (h.free file).imp_right fun ⟨k, hk, hfile⟩ => ⟨k, List.mem_cons_of_mem key hk, hfile⟩

/-- Taking a lock touches no more than lock files. -/
theorem Calm.within_locked (h : s.Calm base start keys n i w) (hkey : IsNewKey keys key) :
    Within (Region base) w (SnapshotStore.locked base key w) := by
  refine ⟨(Frame.put_file (lockLocation_ne_nil key) ?_ _ _ _).mono ?_, rfl, rfl, rfl,
    Nat.le_refl _, rfl⟩
  · rw [h.at?_lock hkey]
    exact nofun
  · rintro _ rfl
    exact ⟨lockName key, by rw [lockLocation, List.append_assoc]; rfl⟩

/-- The lock on a key that can be had at once: this process does not hold it, its file is not there
and the system refuses nothing. -/
structure IsFree (locks : FileLocks) (dir : Path) (base : Location) (key : Path) (w : World) :
    Prop where
  under : locks.Under dir base w
  locksDir : w.disk.at? (base ++ ["locks"]) = some .directory
  trouble : w.trouble = []
  noFile : w.disk.at? (lockLocation base key) = none
  unheld : FileLocks.holds w key = false

theorem Calm.isFree (h : s.Calm base start keys n i w) (hkey : IsNewKey keys key) :
    IsFree s.locks s.dir base key w where
  under := h.under
  locksDir := h.locksDir
  trouble := h.trouble
  noFile := h.at?_lock hkey
  unheld := by
    rw [FileLocks.holds, h.held, List.any_eq_false]
    intro k hk
    rw [(hkey k hk).1]
    exact Bool.false_ne_true

section Free

variable {locks : FileLocks} {dir : Path}

theorem IsFree.acquireFile (h : IsFree locks dir base key w) (deadline : Nat) :
    (locks.acquireFile key deadline).Yields { w with held := key :: w.held } fun _ w' =>
      w' = SnapshotStore.locked base key w := by
  have hdir {followLast : Bool} :
      w.disk.locate (w.absolute locks.dir) followLast = .ok (base ++ ["locks"]) := by
    rw [h.under.dir_eq]
    exact (h.under.locate_name FileLocks.isName_locks).mpr ⟨rfl, by decide, by decide⟩
  have hcreate : (World.createNew (locks.fileOf key) "lock\n".toUTF8).Yields
      { w with held := key :: w.held } fun _ w' => w' = SnapshotStore.locked base key w :=
    World.yields_diskOperation h.trouble
      (Disk.create_of_none (locate_lockFile h.under h.locksDir key) h.noFile) rfl
  have hattempt : (locks.attempt (locks.fileOf key)).Yields { w with held := key :: w.held }
      fun r w' => r = .taken ∧ w' = SnapshotStore.locked base key w := by
    rw [FileLocks.attempt]
    refine hcreate.outcome.bind ?_
    rintro _ w' ⟨_, rfl, hw'⟩
    exact Act.yields_pure ⟨rfl, hw'⟩
  have hthere : (World.makeDirectories locks.dir).Yields { w with held := key :: w.held }
      fun _ w' => w' = { w with held := key :: w.held } :=
    World.yields_makeDirectories h.trouble hdir hdir h.locksDir
  rw [FileLocks.acquireFile]
  refine hthere.mapError.bind ?_
  rintro _ w' rfl
  refine Act.ends_look_bind ?_
  obtain ⟨fuel, hfuel⟩ : ∃ fuel, 2 * (locks.waitMs / FileLocks.retryMs + 2) +
      w.trouble.length = fuel + 1 := by
    refine Nat.exists_eq_succ_of_ne_zero (Nat.ne_of_gt (Nat.add_pos_left ?_ _))
    exact Nat.mul_pos Nat.two_pos (Nat.succ_pos _)
  dsimp only
  rw [hfuel, FileLocks.takeFile]
  refine hattempt.bind ?_
  rintro _ w' ⟨rfl, hw'⟩
  exact Act.yields_pure hw'

theorem IsFree.acquire (h : IsFree locks dir base key w) :
    (locks.acquire key).Yields w fun _ w' => w' = SnapshotStore.locked base key w := by
  have hfile := Act.ends_iff.mp (h.acquireFile (w.now + locks.waitMs))
  rw [Act.Yields, Act.ends_iff, FileLocks.acquire, Act.apply, Act.ofFun, h.unheld]
  split
  · contradiction
  · split
    all_goals
      rename_i heq
      rw [heq] at hfile
    · exact hfile
    · obtain ⟨_, heq, -⟩ := hfile
      cases heq

end Free

theorem Calm.acquire (h : s.Calm base start keys n i w) (hkey : IsNewKey keys key) :
    (s.locks.acquire key).Yields w fun _ w' => w' = SnapshotStore.locked base key w :=
  (h.isFree hkey).acquire

/-- Giving a lock back removes its file and nothing else. -/
theorem Calm.release_eq (h : s.Calm base start (key :: keys) n i w) (hkey : IsNewKey keys key) :
    s.locks.release key w =
      { w with disk := w.disk.erase (lockLocation base key), held := keys } := by
  obtain ⟨content, mode, modified, hfile⟩ := h.taken key List.mem_cons_self
  have hremove : (World.removeFile (s.locks.fileOf key)).Yields w fun _ w' =>
      w' = { w with disk := w.disk.erase (lockLocation base key) } :=
    World.yields_diskOperation h.trouble (Disk.remove_of_file (h.locate_lockFile key) hfile) rfl
  have hforget : (w.held.filter fun k => !k.same key) = keys := by
    rw [h.held, List.filter_cons_of_neg (by simp [Path.same]), List.filter_eq_self]
    intro k hk
    rw [(hkey k hk).1]
    rfl
  obtain ⟨_, -, hw'⟩ := Act.ends_iff.mp hremove
  rw [FileLocks.release, hw', FileLocks.forget, hforget]

theorem Calm.release (h : s.Calm base start (key :: keys) n i w) (hkey : IsNewKey keys key) :
    s.Calm base start keys n i (s.locks.release key w) := by
  obtain ⟨content, mode, modified, hfile⟩ := h.taken key List.mem_cons_self
  have hnotdir : w.disk.at? (lockLocation base key) ≠ some .directory := by
    rw [hfile]
    exact nofun
  have herase := Frame.erase (lockLocation_ne_nil key) hnotdir
  have hsame {l : Location} (hl : l ≠ lockLocation base key) :
      (w.disk.erase (lockLocation base key)).at? l = w.disk.at? l :=
    Disk.at?_erase_of_ne w.disk hl
  have hindex : indexLocation base ≠ lockLocation base key := ne_lockLocation _ key
  rw [h.release_eq hkey]
  refine h.change keys (herase.mono fun l hl => hl ▸ below_lockLocation key) (fun k hk => ?_)
    (fun file => ?_) (fun name hname => hsame (ne_lockLocation name key) ▸ hname)
    (by rw [hsame hindex]; exact h.index) (h.isAt.frame herase hindex) h.valid
  · rw [hsame fun heq => (hkey k hk).2 (lockName_injective heq).symm]
    exact h.taken k (List.mem_cons_of_mem key hk)
  · by_cases heq : file = lockName key
    · refine Or.inl ?_
      rw [heq]
      exact Disk.at?_erase_self _ _ (lockLocation_ne_nil key)
    · rw [hsame fun hl => heq (eq_lockName hl)]
      refine (h.free file).imp_right ?_
      rintro ⟨k, hk, hname⟩
      rcases List.mem_cons.mp hk with rfl | hk
      · exact absurd hname heq
      · exact ⟨k, hk, hname⟩

/-- Only lock files have come and gone, and outside the directory of the store all is as it was. -/
structure OnlyLocks (base : Location) (w w' : World) : Prop where
  within : Within (Region base) w w'
  outside : ∀ l, ¬ base <+: l → w'.disk.at? l = w.disk.at? l

theorem OnlyLocks.trans {w'' : World} (h : OnlyLocks base w w') (h' : OnlyLocks base w' w'') :
    OnlyLocks base w w'' where
  within := h.within.trans h'.within
  outside := fun l hl => (h'.outside l hl).trans (h.outside l hl)

theorem Calm.onlyLocks_locked (h : s.Calm base start keys n i w) (hkey : IsNewKey keys key) :
    OnlyLocks base w (SnapshotStore.locked base key w) where
  within := h.within_locked hkey
  outside := by
    intro l hl
    refine Disk.at?_put_of_ne w.disk _ ?_
    rintro rfl
    exact hl (below_lockLocation key)

theorem Calm.onlyLocks_release (h : s.Calm base start (key :: keys) n i w)
    (hkey : IsNewKey keys key) : OnlyLocks base w (s.locks.release key w) where
  within := h.under.release
  outside := by
    intro l hl
    rw [h.release_eq hkey]
    refine Disk.at?_erase_of_ne w.disk ?_
    rintro rfl
    exact hl (below_lockLocation key)

/-- Under a lock an action runs for certain, and the lock is given back. -/
theorem Calm.ends_withLock {α : Type} {a : Act SnapshotError α}
    {P : Except SnapshotError α → World → Prop} (h : s.Calm base start keys n i w)
    (hkey : IsNewKey keys key) (ha : a.Ends (SnapshotStore.locked base key w) P) :
    (s.locks.withLock key a).Ends w fun r w' => ∃ w₁, P r w₁ ∧ w' = s.locks.release key w₁ := by
  have hacquire := Act.ends_iff.mp (h.acquire hkey)
  rw [Act.ends_iff, FileLocks.withLock, Act.apply, Act.ofFun]
  split
  all_goals
    rename_i heq
    rw [heq] at hacquire
    obtain ⟨_, heq, hw⟩ := hacquire
    cases heq
  dsimp only at hw
  rw [hw]
  have hP := Act.ends_iff.mp ha
  exact ⟨_, hP, rfl⟩

theorem Calm.runs {α : Type} {a : Act SnapshotError α} {P : α → World → Prop}
    (h : s.Calm base start keys n i w) (hkey : IsNewKey keys key)
    (ha : a.Yields (SnapshotStore.locked base key w) P) :
    (s.locks.withLock key a).Yields w fun x w' => ∃ w₁, P x w₁ ∧ w' = s.locks.release key w₁ := by
  refine (h.ends_withLock hkey ha).mono ?_
  rintro r w' ⟨w₁, ⟨x, hx, hP⟩, hw'⟩
  exact ⟨x, hx, w₁, hP, hw'⟩

theorem Calm.withLock {α : Type} {a : Act SnapshotError α} {P : α → Nat → SnapshotIndex → Prop}
    (h : s.Calm base start keys n i w) (hkey : IsNewKey keys key)
    (ha : a.Yields (SnapshotStore.locked base key w) fun x w' =>
      ∃ m j, P x m j ∧ s.Calm base start (key :: keys) m j w') :
    (s.locks.withLock key a).Yields w fun x w' =>
      ∃ m j, P x m j ∧ s.Calm base start keys m j w' := by
  refine (h.runs hkey ha).mono ?_
  rintro x w' ⟨w₁, ⟨m, j, hP, hcalm⟩, rfl⟩
  exact ⟨m, j, hP, hcalm.release hkey⟩

/-! ## Writing in the directory -/

/-- A file is written under a name in the directory of the store. -/
theorem Calm.writeFile (h : s.Calm base start keys n i w) {name : String} (hname : IsName name)
    (hfits : Fits name) (hdirectory : w.disk.at? (base ++ [name]) ≠ some .directory)
    {content : ByteArray} : (writeFile (s.dir ++ name) content).Yields w fun _ w' =>
      ∃ mode modified,
        w' = { w with disk := w.disk.put (base ++ [name]) (.file content mode modified) } := by
  have hnonempty : s.dir.text ≠ "" := by
    intro hempty
    have habsolute := h.tidy.absolute
    rw [Path.isAbsolute, hempty] at habsolute
    cases habsolute
  have hparent : (s.dir ++ name).parent? = some s.dir := h.tidy.parent?_join hname
  have hjoin : w.absolute (s.dir ++ name) = (w.absolute s.dir).join ⟨name⟩ :=
    Path.join_join hname s.dir w.directory
  have hbase := h.under.tree.located
  have hthere : (World.makeDirectories s.dir).Yields w fun _ w' => w' = w :=
    World.yields_makeDirectories h.trouble (h.plain.locate_congr hbase) hbase
      h.under.tree.isDirectory
  have hnothing : (World.operation fun w => .ok ((), w)).Yields w fun _ w' => w' = w :=
    World.yields_operation h.trouble rfl rfl
  have hlocate : w.disk.locate ((w.absolute s.dir).join ⟨name⟩) false = .ok (base ++ [name]) :=
    (h.under.tree.locate_name hname).mpr ⟨rfl, hfits⟩
  have hreplaced (mode : Nat) : w.disk.replace (w.absolute (s.dir ++ name)) content mode w.now =
      .ok (w.disk.put (base ++ [name]) (.file content mode w.now)) := by
    rw [hjoin]
    exact Disk.replace_of_name hname hlocate hdirectory
  have hmoved : (World.diskOperation fun w => w.disk.replace (w.absolute (s.dir ++ name)) content
      (w.keptMode (s.dir ++ name)) w.now).Yields w fun _ w' => ∃ mode modified,
        w' = { w with disk := w.disk.put (base ++ [name]) (.file content mode modified) } :=
    World.yields_diskOperation h.trouble (hreplaced _) ⟨_, _, rfl⟩
  rw [Amend.writeFile, hparent]
  dsimp only
  rw [if_neg hnonempty]
  refine hthere.mapError.bind fun _ w₁ hw₁ => ?_
  rw [hw₁]
  refine hnothing.mapError.bind fun _ w₂ hw₂ => ?_
  rw [hw₂]
  exact hmoved.mapError

/-- A file under a name other than that of the locks does not disturb them. -/
theorem Calm.put (h : s.Calm base start keys n i w) {name : String} {content : ByteArray}
    {mode modified : Nat} (hdirectory : w.disk.at? (base ++ [name]) ≠ some .directory)
    {j : SnapshotIndex}
    (hj : j.IsAt base (w.disk.put (base ++ [name]) (.file content mode modified)))
    (hvalid : j.IsValid) :
    s.Calm base start keys n j
      { w with disk := w.disk.put (base ++ [name]) (.file content mode modified) } := by
  have hne : base ++ [name] ≠ [] := by simp
  have hput := Frame.put_file hne hdirectory content mode modified
  have hsame (file : String) : (w.disk.put (base ++ [name]) (.file content mode modified)).at?
      (base ++ ["locks"] ++ [file]) = w.disk.at? (base ++ ["locks"] ++ [file]) := by
    refine Disk.at?_put_of_ne _ _ fun heq => ?_
    have hlength := congrArg List.length heq
    simp at hlength
  have hworld : { w with disk := w.disk.put (base ++ [name]) (.file content mode modified) } =
      { w with
        disk := w.disk.put (base ++ [name]) (.file content mode modified)
        held := keys } := by
    rw [← h.held]
  rw [hworld]
  refine h.change keys (hput.mono fun l hl => hl ▸ List.prefix_append base [name])
    (fun key hkey => ?_) (fun file => ?_) (fun other hother => ?_) ?_ hj hvalid
  · rw [lockLocation, hsame]
    exact h.taken key hkey
  · rw [hsame]
    exact h.free file
  · by_cases heq : base ++ [other] = base ++ [name]
    · rw [heq, Disk.at?_put_self _ _ _ hne] at hother
      cases hother
    · rwa [Disk.at?_put_of_ne _ _ heq] at hother
  · by_cases heq : indexLocation base = base ++ [name]
    · rw [heq, Disk.at?_put_self _ _ _ hne]
      exact nofun
    · rw [Disk.at?_put_of_ne _ _ heq]
      exact h.index

/-! ## The index -/

theorem Calm.loadIndex (h : s.Calm base start keys n i w) :
    s.loadIndex.Yields w fun j w' => j = i ∧ w' = w := by
  have hlocate : w.disk.locate (w.absolute s.indexFile) = .ok (indexLocation base) :=
    (h.under.locate_name isName_index).mpr ⟨rfl, by decide, by decide⟩
  rw [SnapshotStore.loadIndex]
  refine Act.ends_look_bind ?_
  rcases h.isAt with ⟨content, mode, modified, hat, hdecode⟩ | ⟨hnofile, rfl⟩
  · have hstat : w.disk.stat (w.absolute s.indexFile) = .ok (.file content mode modified) :=
      Disk.stat_eq_ok_iff.mpr ⟨_, hlocate, hat⟩
    have hthere : w.pathExists s.indexFile = true := by
      rw [World.pathExists, Disk.pathExists, hstat]
      rfl
    have hread := World.yields_readBytes h.trouble
      (Disk.read_eq_ok_iff.mpr ⟨_, mode, modified, hlocate, hat⟩)
    rw [hthere]
    refine hread.mapError.bind ?_
    rintro _ w' ⟨rfl, hw'⟩
    simp only [hdecode]
    exact Act.yields_pure ⟨rfl, hw'⟩
  · have hnothere : w.pathExists s.indexFile = false := by
      rw [World.pathExists, Disk.pathExists]
      cases hstat : w.disk.stat (w.absolute s.indexFile) with
      | error e => rfl
      | ok e =>
        obtain ⟨l, hl, hat⟩ := Disk.stat_eq_ok_iff.mp hstat
        rw [hlocate] at hl
        cases hl
        cases e with
        | file content mode modified => exact absurd hat (hnofile content mode modified)
        | directory => exact absurd hat h.index
        | link target =>
          exact absurd hat (h.under.tree.noLinks _ (List.prefix_append base _) target)
    rw [hnothere]
    exact Act.yields_pure ⟨rfl, rfl⟩

theorem Calm.askIndex (h : s.Calm base start keys n i w) (hkey : IsNewKey keys s.indexFile) :
    s.index.Yields w fun j w' => j = i ∧ s.Calm base start keys n i w' ∧ OnlyLocks base w w' := by
  have hlocked := h.locked hkey
  refine (h.runs hkey hlocked.loadIndex).mono ?_
  rintro j w' ⟨_, ⟨rfl, rfl⟩, rfl⟩
  exact ⟨rfl, hlocked.release hkey,
    (h.onlyLocks_locked hkey).trans (hlocked.onlyLocks_release hkey)⟩

/-- A change of the index that succeeds is written. -/
theorem Calm.updateIndex {α : Type} {f : SnapshotIndex → Act SnapshotError (α × SnapshotIndex)}
    {P : α → Nat → SnapshotIndex → Prop} (h : s.Calm base start keys n i w)
    (hkey : IsNewKey keys s.indexFile)
    (hf : (f i).Yields (SnapshotStore.locked base s.indexFile w) fun (a, j) w' =>
      j.IsValid ∧ ∃ m, P a m j ∧ s.Calm base start (s.indexFile :: keys) m i w') :
    (s.updateIndex f).Yields w fun a w' => ∃ m j, P a m j ∧ s.Calm base start keys m j w' := by
  refine h.withLock hkey ((h.locked hkey).loadIndex.bind ?_)
  rintro _ w₁ ⟨rfl, hw₁⟩
  rw [hw₁]
  refine hf.bind ?_
  rintro ⟨a, j⟩ w₂ ⟨hvalid, m, hP, hcalm⟩
  refine (hcalm.writeFile isName_index ⟨by decide, by decide⟩ hcalm.index).mapError.bind ?_
  rintro _ w₃ ⟨mode, modified, rfl⟩
  have hne : indexLocation base ≠ [] := by simp [indexLocation]
  refine Act.yields_pure ⟨m, j, hP, hcalm.put hcalm.index (Or.inl ?_) hvalid⟩
  exact ⟨_, mode, modified, Disk.at?_put_self _ _ _ hne, SnapshotIndex.decode?_encode hvalid⟩

/-! ## Taking snapshots -/

/-- A file that is found, and stays as it is whatever happens in the directory of the store. -/
structure Outside (base : Location) (w : World) (file : Path) (content : ByteArray) : Prop where
  found : ∃ l mode modified, w.disk.locate (w.absolute file) = .ok l ∧ ¬ base <+: l ∧
    w.disk.at? l = some (.file content mode modified)

theorem Outside.frame {file : Path} {content : ByteArray} (h : Outside base w file content)
    (hunder : s.locks.Under s.dir base w) {d : Disk} (hframe : Frame (base <+: ·) w.disk d) :
    ∃ l mode modified, d.locate (w.absolute file) = .ok l ∧ ¬ base <+: l ∧
      d.at? l = some (.file content mode modified) := by
  obtain ⟨l, mode, modified, hl, hout, hat⟩ := h.found
  have hkind : Disk.meansDirectory (w.absolute file) = false := by
    obtain ⟨-, -, -, hkind⟩ := Disk.locate_eq_ok_iff.mp hl
    refine Bool.eq_false_iff.mpr fun hmeans => ?_
    exact hkind hmeans content mode modified hat
  have hlinks : ∀ m ∈ w.disk.linksTo (w.absolute file), ¬ base <+: m := by
    intro m hm hbelow
    obtain ⟨target, hlink⟩ := Disk.mem_linksTo hm
    exact hunder.tree.noLinks m hbelow target hlink
  have hlocate := (hframe.locate hl hlinks (Or.inl hkind)).1
  exact ⟨l, mode, modified, hlocate, hout, hframe.eq_of_some hout hat⟩

theorem Outside.within {file : Path} {content : ByteArray} (h : Outside base w file content)
    (hunder : s.locks.Under s.dir base w) (hw : Within (base <+: ·) w w') :
    Outside base w' file content := by
  refine ⟨?_⟩
  rw [hw.absolute]
  exact h.frame hunder hw.frame

theorem Outside.read {file : Path} {content : ByteArray} (h : Outside base w file content)
    (hunder : s.locks.Under s.dir base w) {d : Disk} (hframe : Frame (base <+: ·) w.disk d) :
    d.read (w.absolute file) = .ok content := by
  obtain ⟨l, mode, modified, hl, -, hat⟩ := h.frame hunder hframe
  exact Disk.read_eq_ok_iff.mpr ⟨l, mode, modified, hl, hat⟩

/-- A file that is found, and stays as it is whatever happens to lock files. -/
structure Settled (base : Location) (w : World) (file : Path) (content : ByteArray) : Prop where
  found : ∃ l mode modified, w.disk.locate (w.absolute file) = .ok l ∧ ¬ Region base l ∧
    w.disk.at? l = some (.file content mode modified)

theorem Outside.settled {file : Path} {content : ByteArray} (h : Outside base w file content) :
    Settled base w file content := by
  obtain ⟨l, mode, modified, hl, hout, hat⟩ := h.found
  exact ⟨l, mode, modified, hl, fun hregion => hout hregion.below, hat⟩

theorem Settled.read {file : Path} {content : ByteArray} (h : Settled base w file content)
    (hunder : s.locks.Under s.dir base w) (hw : Within (Region base) w w') :
    w'.disk.read (w'.absolute file) = .ok content := by
  obtain ⟨l, mode, modified, hl, hout, hat⟩ := h.found
  refine hw.read (Disk.read_eq_ok_iff.mpr ⟨l, mode, modified, hl, hat⟩) (fun m hm => ?_)
    fun m hm hregion => ?_
  · rw [hl] at hm
    cases hm
    exact hout
  · obtain ⟨target, hlink⟩ := Disk.mem_linksTo hm
    exact hunder.tree.noLinks m hregion.below target hlink

/-- A file of which no copy has the name that the next copy is to have. -/
def IsUncopied (base : Location) (w : World) (source : Path) : Prop :=
  ∀ m, Fits (copyName source (w.clock m)) ∧
    w.disk.at? (base ++ [copyName source (w.clock m)]) = none

theorem Calm.locationFor (h : s.Calm base start keys n i w) {source : Path} {t : Timestamp}
    (hnone : w.disk.at? (base ++ [copyName source t]) = none) :
    s.locationFor source t w = s.dir ++ copyName source t := by
  have hname : IsName (copyName source t) := (isCopyName_candidate source t 0).isName
  have hfree : w.pathExists (s.dir ++ copyName source t) = false := by
    rw [World.pathExists, Disk.pathExists]
    cases hstat : w.disk.stat (w.absolute (s.dir ++ copyName source t)) with
    | error e => rfl
    | ok e =>
      obtain ⟨l, hl, hat⟩ := Disk.stat_eq_ok_iff.mp hstat
      obtain ⟨rfl, -⟩ := (h.under.locate_name hname).mp hl
      rw [hnone] at hat
      cases hat
  rw [SnapshotStore.locationFor, freeName]
  exact if_neg (by simpa using hfree)

/-- The snapshot of a file that is recorded next, after `n` identifiers were drawn. -/
structure IsRecord (s : SnapshotStore) (w : World) (n : Nat) (file : Path) (content : ByteArray)
    (t : Snapshot) : Prop where
  id : t.id = w.ids n
  source : t.source = file
  location : t.location = s.dir ++ copyName file (w.clock w.readings)
  checksum : t.checksum = Digest.blake3 content
  createdAt : t.createdAt = w.clock w.readings

/-- A copy that is on the disk is entered into the index. -/
theorem Calm.enter (h : s.Calm base start keys n i w) (hkey : IsNewKey keys s.indexFile)
    {source location : Path} {content : ByteArray} {createdAt : Timestamp}
    (hcreated : createdAt.IsReading) :
    (s.updateIndex fun index => do
      let snapshot : Snapshot :=
        { id := ← World.drawId, source, location, checksum := Digest.blake3 content, createdAt
          size := MachineWord.wrap content.size, sequence := index.nextSequence }
      return (snapshot, index.add snapshot)).Yields w fun t w' =>
        (t.id = w.ids n ∧ t.source = source ∧ t.location = location ∧
          t.checksum = Digest.blake3 content ∧ t.createdAt = createdAt) ∧
          s.Calm base start keys (n + 1) (i.add t) w' := by
  have hlocked := h.locked hkey
  refine (h.updateIndex (P := fun t m j => (t.id = w.ids n ∧ t.source = source ∧
    t.location = location ∧ t.checksum = Digest.blake3 content ∧ t.createdAt = createdAt) ∧
    m = n + 1 ∧ j = i.add t) hkey ?_).mono ?_
  · refine World.ends_drawId_bind
      (Act.yields_pure ⟨?_, n + 1, ⟨⟨?_, rfl, rfl, rfl, rfl⟩, rfl, rfl⟩, ?_⟩)
    · exact h.valid.add ⟨hcreated, Nat.mod_lt _ (by decide), h.valid.nextSequence⟩
    · exact congrArg w.ids h.drawn
    · exact hlocked.drawId
  · rintro t w' ⟨_, _, ⟨ht, rfl, rfl⟩, hcalm⟩
    exact ⟨ht, hcalm⟩

/-- A file that is there gets its snapshot. -/
theorem Calm.record (h : s.Calm base start [] n i w) {source : Path} {content : ByteArray}
    (hsource : Settled base w source content) (hcopy : IsUncopied base w source)
    (hkey : IsNewKey [source] s.indexFile) :
    (s.record source).Yields w fun t w' => s.IsRecord w n source content t ∧
      s.Calm base start [] (n + 1) (i.add t) w' := by
  have hlocked : s.Calm base start [source] n i (SnapshotStore.locked base source w) :=
    h.locked (isNewKey_nil _)
  have hread := World.yields_readBytes hlocked.trouble
    (hsource.read h.under (h.within_locked (isNewKey_nil source)))
  refine (h.withLock (P := fun t m j => s.IsRecord w n source content t ∧ m = n + 1 ∧
    j = i.add t)
    (isNewKey_nil _) ?_).mono ?_
  · refine hread.mapError.bind ?_
    rintro bytes w₁ ⟨rfl, hw₁⟩
    rw [hw₁]
    refine World.ends_readClock_bind (Act.ends_look_bind ?_)
    set w₂ : World := { SnapshotStore.locked base source w with
      readings := (SnapshotStore.locked base source w).readings + 1 } with hw₂
    have hcalm : s.Calm base start [source] n i w₂ := hlocked.readClock
    obtain ⟨hfits, hnone⟩ := hcopy w.readings
    have hname := isCopyName_candidate source (w.clock w.readings) 0
    have hnone₂ : w₂.disk.at? (base ++ [copyName source (w.clock w.readings)]) = none := by
      rw [← hnone]
      exact Disk.at?_put_of_ne w.disk _ (ne_lockLocation _ source)
    have hdirectory : w₂.disk.at? (base ++ [copyName source (w.clock w.readings)]) ≠
        some .directory := by
      rw [hnone₂]
      exact nofun
    have hindex : indexLocation base ≠ base ++ [copyName source (w.clock w.readings)] := by
      intro heq
      have hnames : ["index.json"] = [copyName source (w.clock w.readings)] :=
        List.append_cancel_left heq
      exact hname.ne_index (List.cons.inj hnames).1.symm
    have hlocation : s.locationFor source (w.clock w.readings) w₂ =
      s.dir ++ copyName source (w.clock w.readings) := hcalm.locationFor hnone₂
    rw [show (SnapshotStore.locked base source w).clock
      (SnapshotStore.locked base source w).readings = w.clock w.readings from rfl, hlocation]
    refine (hcalm.writeFile hname.isName hfits hdirectory).mapError.bind ?_
    rintro _ w₃ ⟨mode, modified, rfl⟩
    have hne : base ++ [copyName source (w.clock w.readings)] ≠ [] := by simp
    have hwritten := hcalm.put hdirectory
      (hcalm.isAt.frame (Frame.put_file hne hdirectory bytes mode modified) hindex) hcalm.valid
    refine (hwritten.enter hkey (h.clock _)).outcome.bind ?_
    rintro _ w₄ ⟨t, rfl, ⟨hid, hsource, hlocation, hchecksum, hcreated⟩, hentered⟩
    exact Act.yields_pure ⟨n + 1, i.add t, ⟨⟨hid, hsource, hlocation, hchecksum, hcreated⟩, rfl,
      rfl⟩, hentered⟩
  · rintro t w' ⟨_, _, ⟨ht, rfl, rfl⟩, hcalm⟩
    exact ⟨ht, hcalm⟩

/-! ## Dropping -/

/-- A copy is removed, if it is still there. -/
theorem Calm.removeCopy (h : s.Calm base start keys n i w) {name : String} (hname : IsCopyName name)
    (hfits : Fits name) (hflat : start.disk.at? (base ++ [name]) ≠ some .directory) :
    (removeCopy (s.dir ++ name)).Yields w fun _ w' => s.Calm base start keys n i w' ∧
      w'.disk.at? (base ++ [name]) = none := by
  have hlocate : w.disk.locate (w.absolute (s.dir ++ name)) false = .ok (base ++ [name]) :=
    (h.under.locate_name hname.isName).mpr ⟨rfl, hfits⟩
  have hne : base ++ [name] ≠ [] := by simp
  have hindex : indexLocation base ≠ base ++ [name] := by
    intro heq
    have hnames : ["index.json"] = [name] := List.append_cancel_left heq
    exact hname.ne_index (List.cons.inj hnames).1.symm
  rw [SnapshotStore.removeCopy]
  cases hat : w.disk.at? (base ++ [name]) with
  | none =>
    have hremove : (World.removeFile (s.dir ++ name)).Ends w fun r w' =>
        r = .error .notFound ∧ w' = w := by
      rw [World.removeFile, World.diskOperation]
      refine World.ends_operation_of_error h.trouble ?_ ⟨rfl, rfl⟩
      rw [Disk.remove_of_none hlocate hat]
      rfl
    refine hremove.outcome.bind ?_ fun e w' hw' => hw'.elim
    rintro _ w' ⟨rfl, rfl⟩
    exact Act.yields_pure ⟨h, hat⟩
  | some e =>
    cases e with
    | directory => exact absurd (h.flat name hat) hflat
    | link target =>
      exact absurd hat (h.under.tree.noLinks _ (List.prefix_append base [name]) target)
    | file content mode modified =>
      have herase := Frame.erase hne (by rw [hat]; rintro ⟨⟩)
      have hsame {l : Location} (hl : l ≠ base ++ [name]) :
          (w.disk.erase (base ++ [name])).at? l = w.disk.at? l := Disk.at?_erase_of_ne w.disk hl
      have hlock (file : String) : base ++ ["locks"] ++ [file] ≠ base ++ [name] := by
        intro heq
        have hlength := congrArg List.length heq
        simp at hlength
      have hremove : (World.removeFile (s.dir ++ name)).Yields w fun _ w' =>
          w' = { w with disk := w.disk.erase (base ++ [name]) } :=
        World.yields_diskOperation h.trouble (Disk.remove_of_file hlocate hat) rfl
      refine hremove.outcome.bind ?_
      rintro _ w' ⟨_, rfl, rfl⟩
      have hworld : { w with disk := w.disk.erase (base ++ [name]) } =
          { w with disk := w.disk.erase (base ++ [name]), held := keys } := by
        rw [← h.held]
      rw [hworld]
      refine Act.yields_pure ⟨h.change keys
        (herase.mono fun l hl => hl ▸ List.prefix_append base [name]) (fun key hkey => ?_)
        (fun file => ?_) (fun other hother => ?_) ?_ (h.isAt.frame herase hindex) h.valid,
        Disk.at?_erase_self _ _ hne⟩
      · rw [lockLocation, hsame (hlock _)]
        exact h.taken key hkey
      · rw [hsame (hlock file)]
        exact h.free file
      · by_cases heq : base ++ [other] = base ++ [name]
        · rw [heq, Disk.at?_erase_self _ _ hne] at hother
          cases hother
        · rwa [hsame heq] at hother
      · rw [hsame hindex]
        exact h.index

theorem Calm.delete (h : s.Calm base start [] n i w) {t : Snapshot} {name : String}
    (hfound : i.find? t.id = some t) (hname : IsCopyName name) (hfits : Fits name)
    (hlocation : t.location = s.dir ++ name)
    (hflat : start.disk.at? (base ++ [name]) ≠ some .directory) :
    (s.delete t.id).Yields w fun _ w' => s.Calm base start [] n (i.drop t.id) w' ∧
      w'.disk.at? (base ++ [name]) = none := by
  rw [SnapshotStore.delete]
  refine (h.updateIndex (P := fun u m j => u = t ∧ m = n ∧ j = i.drop t.id)
    (isNewKey_nil _) ?_).bind ?_
  · simp only [hfound]
    exact Act.yields_pure ⟨h.valid.drop t.id, n, ⟨rfl, rfl, rfl⟩, h.locked (isNewKey_nil _)⟩
  · rintro _ w₁ ⟨_, _, ⟨rfl, rfl, rfl⟩, h₁⟩
    rw [hlocation]
    exact h₁.removeCopy hname hfits hflat

theorem Calm.listFor (h : s.Calm base start [] n i w) (file : Path) :
    (s.listFor file).Yields w fun newest w' => newest = i.ofFile (w.identity file) ∧
      s.Calm base start [] n i w' := by
  rw [SnapshotStore.listFor]
  refine Act.ends_look_bind ((h.askIndex (isNewKey_nil _)).bind ?_)
  rintro _ w₁ ⟨rfl, hcalm, -⟩
  exact Act.yields_pure ⟨rfl, hcalm⟩

/-- Retention succeeds if what is expired can be dropped. -/
theorem Calm.retain_of_delete (h : s.Calm base start [] n i w) {file : Path} {keep : Nat}
    {P : World → Prop} (hdelete : ∀ w₁, s.Calm base start [] n i w₁ →
      ((expired w.pinned keep (i.ofFile (w.identity file))).forM s.delete).Yields w₁
        fun _ w₂ => P w₂) :
    (s.retain file keep).Yields w fun gone w' =>
      gone = expired w.pinned keep (i.ofFile (w.identity file)) ∧ P w' := by
  rw [SnapshotStore.retain]
  refine Act.ends_look_bind ((h.listFor file).bind ?_)
  rintro newest w₁ ⟨rfl, hcalm⟩
  exact (hdelete w₁ hcalm).bind fun _ w₂ hP => Act.yields_pure ⟨rfl, hP⟩

/-- The same when there is one snapshot to be dropped. -/
theorem Calm.retain_of_delete_one (h : s.Calm base start [] n i w) {file : Path} {keep : Nat}
    {id : Uid} (hexpired : expired w.pinned keep (i.ofFile (w.identity file)) = [id])
    {P : World → Prop} (hdelete : ∀ w₁, s.Calm base start [] n i w₁ →
      (s.delete id).Yields w₁ fun _ w₂ => P w₂) :
    (s.retain file keep).Yields w fun gone w' => gone = [id] ∧ P w' := by
  rw [← hexpired]
  refine h.retain_of_delete fun w₁ hcalm => ?_
  rw [hexpired]
  exact (hdelete w₁ hcalm).bind fun _ w₂ hP => Act.yields_pure hP

/-- Retention drops nothing as long as there are no more snapshots than are kept. -/
theorem Calm.retain (h : s.Calm base start [] n i w) (file : Path) {keep : Nat}
    (hroom : (i.ofFile (w.identity file)).length ≤ keep) :
    (s.retain file keep).Yields w fun _ w' => s.Calm base start [] n i w' := by
  have hnone : expired w.pinned keep (i.ofFile (w.identity file)) = [] := by
    rw [expired, List.drop_eq_nil_of_le hroom]
    rfl
  refine (h.retain_of_delete (P := fun w' => s.Calm base start [] n i w') fun w₁ hcalm => ?_).mono
    fun _ _ hw' => hw'.2
  rw [hnone]
  exact Act.yields_pure hcalm

theorem length_ofFile_le (i : SnapshotIndex) (file : Path) :
    (i.ofFile file).length ≤ i.snapshots.length := by
  rw [SnapshotIndex.ofFile, Snapshot.newestFirst, List.length_mergeSort]
  exact List.length_filter_le _ _

/-- A snapshot is taken of a file that is there, if retention is nothing to worry about. -/
theorem Calm.create_of_retain (h : s.Calm base start [] n i w) {file : Path} {content : ByteArray}
    (hsource : Settled base w (w.identity file) content)
    (hcopy : IsUncopied base w (w.identity file)) (hkey : IsNewKey [w.identity file] s.indexFile)
    {P : Snapshot → World → Prop}
    (hretain : ∀ t w₁, s.IsRecord w n (w.identity file) content t →
      s.Calm base start [] (n + 1) (i.add t) w₁ →
      (s.retain (w.identity file) s.kept).Yields w₁ fun _ w₂ => P t w₂) :
    (s.create file).Yields w P := by
  have hisFile : w.isFile (w.identity file) = true := by
    obtain ⟨l, mode, modified, hl, -, hat⟩ := hsource.found
    rw [World.isFile, Disk.isFile, Disk.stat_eq_ok_iff.mpr ⟨l, hl, hat⟩]
    rfl
  rw [SnapshotStore.create]
  refine Act.ends_look_bind (Act.ends_look_bind ?_)
  rw [if_pos hisFile]
  refine (h.record hsource hcopy hkey).bind ?_
  rintro t w₁ ⟨ht, hcalm⟩
  exact (hretain t w₁ ht hcalm).bind fun _ w₂ hP => Act.yields_pure hP

theorem Calm.create (h : s.Calm base start [] n i w) {file : Path} {content : ByteArray}
    (hsource : Settled base w (w.identity file) content)
    (hcopy : IsUncopied base w (w.identity file)) (hkey : IsNewKey [w.identity file] s.indexFile)
    (hroom : i.snapshots.length < s.kept) :
    (s.create file).Yields w fun t w' => s.IsRecord w n (w.identity file) content t ∧
      s.Calm base start [] (n + 1) (i.add t) w' := by
  refine h.create_of_retain hsource hcopy hkey fun t w₁ ht hcalm => ?_
  refine (hcalm.retain (w.identity file) ((length_ofFile_le _ _).trans ?_)).mono
    fun _ w₂ hcalm => ⟨ht, hcalm⟩
  rw [SnapshotIndex.add, List.length_append]
  exact hroom

/-- The set of a file is taken once its snapshot is.  The snapshot is pinned then. -/
theorem Calm.createSet_of_create {file : Path} {Q : Snapshot → World → SnapshotIndex → Prop}
    (hcreate : (s.create file).Yields w fun t w' => ∃ start i, Q t start i ∧
      s.Calm base start [] n i w') :
    (s.createSet [file]).Yields w fun set w' => ∃ t start i, Q t start i ∧ set.members = [t.id] ∧
      s.Calm base { start with pinned := start.pinned ++ set.members } [] (n + 1) (i.addSet set)
        w' := by
  have hmembers : (s.createMembers [] [] [file]).Yields w fun members w' => ∃ t, members = [t] ∧
      ∃ start i, Q t start i ∧ s.Calm base start [] n i w' := by
    rw [SnapshotStore.createMembers]
    refine Act.ends_look_bind (hcreate.outcome.bind ?_)
    rintro _ w₁ ⟨t, rfl, ht⟩
    exact Act.yields_pure ⟨t, rfl, ht⟩
  rw [SnapshotStore.createSet]
  refine hmembers.bind ?_
  rintro _ w₁ ⟨t, rfl, start, i, ht, hcalm⟩
  refine World.ends_drawId_bind (World.ends_readClock_bind ?_)
  generalize hset : SnapshotSet.mk (w₁.ids w₁.drawn) _ _ = set
  have hcreated : set.createdAt.IsReading := by
    rw [← hset]
    exact hcalm.clock _
  have hdrawn := hcalm.drawId.readClock
  refine (hdrawn.updateIndex (P := fun _ m j => m = n + 1 ∧ j = i.addSet set)
    (isNewKey_nil _) ?_).bind ?_
  · refine Act.yields_pure ⟨hdrawn.valid.addSet hcreated, n + 1, ⟨rfl, rfl⟩, ?_⟩
    exact hdrawn.locked (isNewKey_nil _)
  · rintro _ w₂ ⟨_, _, ⟨rfl, rfl⟩, hdone⟩
    refine Act.ends_change_bind (Act.yields_pure ⟨t, start, i, ht, ?_, hdone.pin set.members⟩)
    rw [← hset]
    rfl

/-- A calm store takes the set of a file that is there. -/
theorem Calm.createSet (h : s.Calm base start [] n i w) {file : Path} {content : ByteArray}
    (hsource : Settled base w (w.identity file) content)
    (hcopy : IsUncopied base w (w.identity file)) (hkey : IsNewKey [w.identity file] s.indexFile)
    (hroom : i.snapshots.length < s.kept) :
    (s.createSet [file]).Yields w fun set w' => ∃ t, s.IsRecord w n (w.identity file) content t ∧
      set.members = [t.id] ∧
      s.Calm base { start with pinned := start.pinned ++ set.members } [] (n + 2)
        ((i.add t).addSet set) w' := by
  have hcreate := (h.create hsource hcopy hkey hroom).mono
    (Q := fun t w' => ∃ first j, (s.IsRecord w n (w.identity file) content t ∧ first = start ∧
      j = i.add t) ∧ s.Calm base first [] (n + 1) j w') fun t _ ⟨ht, hcalm⟩ =>
      ⟨start, i.add t, ⟨ht, rfl, rfl⟩, hcalm⟩
  refine (Calm.createSet_of_create hcreate).mono ?_
  rintro set w' ⟨t, _, _, ⟨ht, rfl, rfl⟩, hmembers, hcalm⟩
  exact ⟨t, ht, hmembers, hcalm⟩

/-! ## Putting back -/

/-- A store puts a file of its own directory back.  If that is its index, it has the index of that
time. -/
theorem Calm.restoreWithin (h : s.Calm base start [] n i w) {t : Snapshot} {name : String}
    {content : ByteArray} {j : SnapshotIndex} (hname : IsName name) (hfits : Fits name)
    (hsource : t.source = s.dir ++ name) (hcopy : t.HasCopy s.dir base content w.disk)
    (hchecksum : Digest.blake3 content = t.checksum)
    (hdirectory : w.disk.at? (base ++ [name]) ≠ some .directory)
    (hj : name = "index.json" ∧ content = j.encode ∨ name ≠ "index.json" ∧ j = i)
    (hvalid : j.IsValid) : (s.restore t).Yields w fun _ w' => s.Calm base start [] n j w' ∧
      Within (fun l => Region base l ∨ l = base ++ [name]) w w' ∧
      ∃ mode modified, w'.disk.at? (base ++ [name]) = some (.file content mode modified) := by
  obtain ⟨v, hv⟩ : ∃ v, v = SnapshotStore.locked base t.source w := ⟨_, rfl⟩
  have hlocked : s.Calm base start [t.source] n i v := hv ▸ h.locked (isNewKey_nil _)
  have hput : Within (Region base) w v := hv ▸ h.within_locked (isNewKey_nil t.source)
  have hread : v.disk.read (v.absolute t.location) = .ok content :=
    (hcopy.frame hput.frame (List.mem_singleton_self t) fun _ => isSpare_of_region).read
      hlocked.under
  have hne : base ++ [name] ≠ [] := by simp
  have hdirectory' : v.disk.at? (base ++ [name]) ≠ some .directory := by
    rw [hv, SnapshotStore.locked, Disk.at?_put_of_ne _ _ (ne_lockLocation name t.source)]
    exact hdirectory
  -- the index that is found once the file has been written
  have hindex (mode modified : Nat) :
      j.IsAt base (v.disk.put (base ++ [name]) (.file content mode modified)) := by
    rcases hj with ⟨rfl, rfl⟩ | ⟨hother, rfl⟩
    · exact Or.inl ⟨j.encode, mode, modified, Disk.at?_put_self _ _ _ hne,
        SnapshotIndex.decode?_encode hvalid⟩
    · refine hlocked.isAt.frame (Frame.put_file hne hdirectory' content mode modified) ?_
      intro heq
      have hnames : ["index.json"] = [name] := List.append_cancel_left heq
      exact hother (List.cons.inj hnames).1.symm
  refine (h.runs (P := fun _ w' => s.Calm base start [t.source] n j w' ∧
    Within (fun l => Region base l ∨ l = base ++ [name]) w w' ∧ ∃ mode modified,
    w'.disk.at? (base ++ [name]) = some (.file content mode modified)) (isNewKey_nil _) ?_).mono ?_
  · rw [← hv]
    refine (World.yields_readBytes hlocked.trouble hread).mapError.bind ?_
    rintro bytes w₁ ⟨rfl, hw₁⟩
    rw [hw₁]
    dsimp only
    rw [if_neg (not_not.mpr hchecksum), hsource]
    refine (hlocked.writeFile hname hfits hdirectory').mapError.bind ?_
    rintro _ w₂ ⟨mode, modified, rfl⟩
    have hdone := hlocked.put hdirectory' (hindex mode modified) hvalid
    have hat := Disk.at?_put_self v.disk (base ++ [name]) (.file bytes mode modified) hne
    have hwritten := World.yields_readBytes hdone.trouble (Disk.read_eq_ok_iff.mpr
      ⟨_, mode, modified, (hdone.under.locate_name hname).mpr ⟨rfl, hfits⟩, hat⟩)
    refine hwritten.mapError.bind ?_
    rintro _ w₃ ⟨rfl, rfl⟩
    rw [if_neg (not_not.mpr rfl)]
    refine Act.yields_pure ⟨hsource ▸ hdone, (hput.mono fun _ => Or.inl).trans ?_, mode, modified,
      hat⟩
    exact .ofDisk ((Frame.put_file hne hdirectory' _ mode modified).mono fun _ => Or.inr)
      v.trouble
  · rintro _ w' ⟨w₁, ⟨hcalm, hw₁, mode, modified, hat⟩, rfl⟩
    refine ⟨hcalm.release (isNewKey_nil _),
      hw₁.trans (hcalm.under.release.mono fun _ => Or.inl), mode, modified, ?_⟩
    exact hcalm.under.release.frame.eq_of_some (fun hl => ne_concat_of_region hl name rfl) hat

/-- A store that puts its own index back has the index of that time. -/
theorem Calm.restoreIndex (h : s.Calm base start [] n i w) {t : Snapshot} {j : SnapshotIndex}
    (hsource : t.source = s.indexFile) (hcopy : t.HasCopy s.dir base j.encode w.disk)
    (hchecksum : Digest.blake3 j.encode = t.checksum) (hvalid : j.IsValid) :
    (s.restore t).Yields w fun _ w' => s.Calm base start [] n j w' ∧
      Within (fun l => Region base l ∨ l = indexLocation base) w w' :=
  (h.restoreWithin isName_index ⟨by decide, by decide⟩ hsource hcopy hchecksum h.index
    (Or.inl ⟨rfl, rfl⟩) hvalid).mono fun _ _ hw' => ⟨hw'.1, hw'.2.1⟩

end SnapshotStore

end Amend
