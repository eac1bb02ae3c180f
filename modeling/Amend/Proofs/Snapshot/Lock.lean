import Amend.Snapshot.Lock
import Amend.Proofs.Digest
import Amend.Proofs.Disk.Tree
import Amend.Proofs.World

/-!
# What locks leave alone

The locks of a store are kept in a directory of their own below the directory of the store.  Taking
and giving back a lock touches the lock files and nothing else, whether it succeeds or not.

Where the locks are kept does not matter to a property of worlds that survives whatever locking does
to the disk and to the memory of the process: an action under a lock keeps it if the action does.
-/

namespace Amend

open Disk (Tree)
open Path (IsName)
open World (Within)

namespace FileLocks

/-! ## Properties that locking keeps -/

/-- A property of worlds that survives every single step of taking and giving back a lock. -/
structure Stable (I : World → Prop) : Prop where
  makeDirectories : ∀ p, (World.makeDirectories p).Keeps I
  createNew : ∀ p, (World.createNew p "lock\n".toUTF8).Keeps I
  removeFile : ∀ p, (World.removeFile p).Keeps I
  memory : ∀ w now held, I w → I { w with now, held }

namespace Stable

variable {I : World → Prop} (h : Stable I) (l : FileLocks) (key : Path)

include h

theorem attempt (file : Path) : (l.attempt file).Keeps I := by
  refine (h.createNew file).outcome.bind fun r => ?_
  split
  · exact Act.keeps_pure _
  · refine (Act.keeps_look _).bind fun stale => ?_
    split
    · exact (h.removeFile file).outcome.bind fun _ => Act.keeps_pure _
    · exact Act.keeps_pure _
  · exact Act.keeps_pure _

theorem takeFile (deadline fuel : Nat) : (l.takeFile key deadline fuel).Keeps I := by
  induction fuel with
  | zero => exact Act.keeps_throw _
  | succ fuel ih =>
    refine (h.attempt l _).bind fun r => ?_
    cases r with
    | taken => exact Act.keeps_pure _
    | broken => exact ih
    | busy =>
      refine (Act.keeps_look _).bind fun late => ?_
      split
      · exact Act.keeps_throw _
      · exact (Act.keeps_change fun w hw => h.memory w _ w.held hw).bind fun _ => ih
    | failed e => exact Act.keeps_throw _

theorem acquire : (l.acquire key).Keeps I := by
  intro w hw
  have hfile : (l.acquireFile key (w.now + l.waitMs)).Keeps I :=
    (h.makeDirectories _).mapError.bind fun _ => (Act.keeps_look _).bind fun _ =>
      h.takeFile l key _ _
  have htaken := Act.ends_iff.mp (hfile _ (h.memory w w.now (key :: w.held) hw))
  rw [Act.ends_iff, FileLocks.acquire, Act.apply, Act.ofFun]
  split
  · exact h.memory w _ w.held hw
  · split
    · rename_i heq
      rw [heq] at htaken
      exact htaken
    · rename_i heq
      rw [heq] at htaken
      exact h.memory _ _ _ htaken

theorem release {w : World} (hw : I w) : I (l.release key w) :=
  h.memory _ _ _ (Act.ends_iff.mp (h.removeFile (l.fileOf key) w hw))

/-- An action under a lock ends as it ends without, where locking does not matter. -/
theorem ends_withLock {α : Type} {a : Act SnapshotError α}
    {Q : Except SnapshotError α → World → Prop} (hQ : ∀ r, Stable (Q r))
    (hbusy : ∀ e w, I w → Q (.error e) w) (ha : ∀ w, I w → a.Ends w Q) {w : World} (hw : I w) :
    (l.withLock key a).Ends w Q := by
  have hacquired := Act.ends_iff.mp (h.acquire l key w hw)
  rw [Act.ends_iff, withLock, Act.apply, Act.ofFun]
  split
  · rename_i heq
    rw [heq] at hacquired
    exact hbusy _ _ hacquired
  · rename_i heq
    rw [heq] at hacquired
    exact (hQ _).release l key (Act.ends_iff.mp (ha _ hacquired))

theorem keeps_withLock {α : Type} {a : Act SnapshotError α} (ha : a.Keeps I) :
    (l.withLock key a).Keeps I := fun _ hw =>
  h.ends_withLock l key (fun _ => h) (fun _ _ hw' => hw') ha hw

theorem and_const (p : Prop) : Stable fun w => I w ∧ p where
  makeDirectories := fun q => (h.makeDirectories q).and_const p
  createNew := fun q => (h.createNew q).and_const p
  removeFile := fun q => (h.removeFile q).and_const p
  memory := fun w now held hw => ⟨h.memory w now held hw.1, hw.2⟩

end Stable

theorem Stable.exists {ι : Type} {J : ι → World → Prop} (h : ∀ x, Stable (J x)) :
    Stable fun w => ∃ x, J x w where
  makeDirectories := fun p => Act.Keeps.exists fun x => (h x).makeDirectories p
  createNew := fun p => Act.Keeps.exists fun x => (h x).createNew p
  removeFile := fun p => Act.Keeps.exists fun x => (h x).removeFile p
  memory := by
    rintro w now held ⟨x, hx⟩
    exact ⟨x, (h x).memory w now held hx⟩

/-! ## Locks below a directory -/

/-- The locations of lock files below a directory. -/
def Region (base : Location) (l : Location) : Prop := ∃ file, l = base ++ ["locks", file]

theorem Region.below {base l : Location} (h : Region base l) : base <+: l := by
  obtain ⟨file, rfl⟩ := h
  exact List.prefix_append base _

/-- Locks that are kept below a directory without links. -/
structure Under (locks : FileLocks) (dir : Path) (base : Location) (w : World) : Prop where
  tree : Tree w.disk (w.absolute dir) base
  dir_eq : locks.dir = dir ++ "locks"

variable {locks : FileLocks} {dir : Path} {base : Location} {w w' : World} {key : Path}

theorem Under.within (h : Under locks dir base w) {touched : Location → Prop}
    (hw : Within touched w w') (hbelow : ∀ l, touched l → base <+: l) :
    Under locks dir base w' where
  tree := by
    rw [hw.absolute]
    exact h.tree.frame_below hw.frame hbelow
  dir_eq := h.dir_eq

/-- The links on the way to the directory are not below it. -/
theorem Under.linksTo_eq (h : Under locks dir base w) {touched : Location → Prop}
    (hw : Within touched w w') (hbelow : ∀ l, touched l → base <+: l) :
    w'.disk.linksTo (w'.absolute dir) = w.disk.linksTo (w.absolute dir) := by
  rw [hw.absolute]
  refine (hw.frame.locate h.tree.located (fun l hl htouched => ?_) (Or.inr h.tree.isDirectory)).2
  obtain ⟨target, hat⟩ := Disk.mem_linksTo hl
  exact h.tree.noLinks l (hbelow l htouched) target hat

/-- A name in the directory leads to the location of that name. -/
theorem Under.locate_name (h : Under locks dir base w) {name : String} (hname : IsName name)
    {followLast : Bool} {l : Location} :
    w.disk.locate (w.absolute (dir ++ name)) followLast = .ok l ↔
      l = base ++ [name] ∧ name.utf8ByteSize ≤ Disk.maxNameBytes ∧ '\x00' ∉ name.toList := by
  have hpath : w.absolute (dir ++ name) = (w.absolute dir).join ⟨name⟩ :=
    Path.join_join hname dir w.directory
  rw [hpath]
  exact h.tree.locate_name hname

theorem Under.eq_of_mayLead (h : Under locks dir base w) {name : String} (hname : IsName name)
    {l : Location} (hl : w.MayLead (dir ++ name) l) :
    l = base ++ [name] ∧ name.utf8ByteSize ≤ Disk.maxNameBytes ∧ '\x00' ∉ name.toList := by
  obtain ⟨d, hframe, hlocate⟩ := hl
  have hpath : w.absolute (dir ++ name) = (w.absolute dir).join ⟨name⟩ :=
    Path.join_join hname dir w.directory
  rw [hpath] at hlocate
  exact ((h.tree.frame_below hframe fun _ => False.elim).locate_name hname).mp hlocate

theorem isName_lockFile (key : Path) : IsName (Digest.blake3 key.text.toUTF8 ++ ".lock") := by
  refine Path.isName_of_two_lt ?_ fun h => ?_
  · rw [String.toList_append, List.length_append]
    exact Nat.lt_of_lt_of_le (by decide) (Nat.le_add_left 5 _)
  · rw [String.toList_append] at h
    rcases List.mem_append.mp h with h | h
    · exact Text.noSlash_toHex _ h
    · exact absurd h (by decide)

theorem isName_locks : IsName "locks" := Path.isName_of_two_lt (by decide) (by decide)

theorem Under.absolute_fileOf (h : Under locks dir base w) (key : Path) :
    w.absolute (locks.fileOf key) = ((w.absolute dir).join ⟨"locks"⟩).join
      ⟨Digest.blake3 key.text.toUTF8 ++ ".lock"⟩ := by
  rw [fileOf, h.dir_eq, World.absolute, World.absolute, Path.join_join (isName_lockFile key)]
  exact congrArg (Path.join · _) (Path.join_join isName_locks dir w.directory)

/-- A lock file lies where lock files do. -/
theorem Under.region (h : Under locks dir base w) {followLast : Bool} {l : Location}
    (hl : w.disk.locate (w.absolute (locks.fileOf key)) followLast = .ok l) : Region base l := by
  rw [h.absolute_fileOf] at hl
  exact ⟨_, h.tree.eq_of_locate_names isName_locks (isName_lockFile key) hl⟩

/-! ## Taking and giving back -/

theorem Under.attempt (h : Under locks dir base w) :
    (locks.attempt (locks.fileOf key)).Ends w fun _ w' => Within (Region base) w w' := by
  rw [FileLocks.attempt]
  refine (World.ends_createNew fun l hl => h.region hl).outcome.bind (fun r w₁ h₁ => ?_)
    fun e w₁ h₁ => h₁.elim
  cases r with
  | ok _ => exact Act.ends_pure h₁
  | error e =>
    cases e with
    | alreadyExists =>
      have hunder := h.within h₁ fun l hl => hl.below
      refine Act.ends_look_bind ?_
      split
      · refine (World.ends_removeFile fun l hl => hunder.region hl).outcome.bind
          (fun r w₂ h₂ => Act.ends_pure (h₁.trans h₂)) fun e w₂ h₂ => h₂.elim
      · exact Act.ends_pure h₁
    | _ => exact Act.ends_pure h₁

theorem Under.takeFile (h : Under locks dir base w) {deadline fuel : Nat} :
    (locks.takeFile key deadline fuel).Ends w fun _ w' => Within (Region base) w w' := by
  induction fuel generalizing w with
  | zero => exact Act.ends_throw (.refl w)
  | succ fuel ih =>
    rw [FileLocks.takeFile]
    refine h.attempt.bind (fun r w₁ h₁ => ?_) fun e w₁ h₁ => h₁
    have hunder := h.within h₁ fun l hl => hl.below
    cases r with
    | taken => exact Act.ends_pure h₁
    | broken => exact (ih hunder).mono fun _ _ h₂ => h₁.trans h₂
    | busy =>
      refine Act.ends_look_bind ?_
      split
      · exact Act.ends_throw h₁
      · refine (World.ends_sleep (Region base)).bind (fun _ w₂ h₂ => ?_)
          fun e w₂ h₂ => h₁.trans h₂
        have hwithin := h₁.trans h₂
        exact (ih (h.within hwithin fun l hl => hl.below)).mono fun _ _ h₃ => hwithin.trans h₃
    | failed e => exact Act.ends_throw h₁

theorem Under.acquireFile (h : Under locks dir base w) {deadline : Nat} :
    (locks.acquireFile key deadline).Ends w fun _ w' => Within (Region base) w w' := by
  rw [FileLocks.acquireFile]
  refine (World.ends_makeDirectories (Region base)).mapError.bind (fun _ w₁ h₁ => ?_) ?_
  · have hunder := h.within h₁ fun l hl => hl.below
    exact Act.ends_look_bind (hunder.takeFile.mono fun _ _ h₂ => h₁.trans h₂)
  · rintro e w₁ ⟨-, -, h₁⟩
    exact h₁

/-- What is held in memory and what time it is does not matter here. -/
theorem within_memory (w : World) {touched : Location → Prop} (held : List Path) (now : Nat) :
    Within touched w { w with held, now } :=
  ⟨Disk.Frame.refl w.disk, rfl, rfl, rfl, Nat.le_refl _, rfl⟩

theorem Under.acquire (h : Under locks dir base w) :
    (locks.acquire key).Ends w fun _ w' => Within (Region base) w w' := by
  rw [Act.ends_iff, FileLocks.acquire, Act.apply, Act.ofFun]
  split
  · exact within_memory w w.held _
  · have hheld : Within (Region base) w { w with held := key :: w.held } :=
      within_memory w (key :: w.held) w.now
    have hacquire : (locks.acquireFile key (w.now + locks.waitMs)).Ends
        { w with held := key :: w.held } fun _ w' =>
          Within (Region base) { w with held := key :: w.held } w' :=
      (h.within hheld fun l hl => hl.below).acquireFile
    have hfile := Act.ends_iff.mp hacquire
    split
    all_goals
      rename_i heq
      rw [heq] at hfile
    · exact hheld.trans hfile
    · exact (hheld.trans hfile).trans (within_memory _ _ _)

theorem Under.release (h : Under locks dir base w) :
    Within (Region base) w (locks.release key w) := by
  have hremove : (World.removeFile (locks.fileOf key)).Ends w fun _ w' =>
      Within (Region base) w w' := World.ends_removeFile fun l hl => h.region hl
  exact (Act.ends_iff.mp hremove).trans (within_memory _ _ _)

/-- An action under a lock runs where at most lock files have changed, and is followed by a world
where no more than these have changed again. -/
theorem Under.withLock {α : Type} {a : Act SnapshotError α}
    {P Q : Except SnapshotError α → World → Prop} (h : Under locks dir base w)
    (ha : ∀ w₁, Within (Region base) w w₁ → a.Ends w₁ P)
    (hrefused : ∀ e w₁, Within (Region base) w w₁ → Q (.error e) w₁)
    (hdone : ∀ r w₂, P r w₂ → Under locks dir base w₂ ∧
      ∀ w₃, Within (Region base) w₂ w₃ → Q r w₃) :
    (locks.withLock key a).Ends w Q := by
  have hacquire : (locks.acquire key).Ends w fun _ w' => Within (Region base) w w' := h.acquire
  rw [Act.ends_iff] at hacquire
  rw [Act.ends_iff, FileLocks.withLock, Act.apply, Act.ofFun]
  split
  all_goals
    rename_i heq
    rw [heq] at hacquire
  · exact hrefused _ _ hacquire
  · obtain ⟨hunder, hlater⟩ := hdone _ _ (Act.ends_iff.mp (ha _ hacquire))
    exact hlater _ hunder.release

end FileLocks

end Amend
