import Amend.Proofs.Snapshot.Balance
import Amend.Proofs.Snapshot.LockFile

/-!
# Locks that others hold

A process removes the lock file of another one only after it has become stale, and it creates a lock
file only where none is.  So what it does between taking a lock and giving it back leaves all other
lock files as they are, as long as they stay fresh.

The lock file that a process has created itself is gone when the lock is given back, unless the
system refuses to remove it.
-/

namespace Amend

namespace Disk

variable {touched : Location → Prop} {d d' d'' : Disk} {l : Location}

/-- Two disks have the same file at a location, or both have none there. -/
def SameFile (d d' : Disk) (l : Location) : Prop :=
  ∀ content mode modified, d'.at? l = some (.file content mode modified) ↔
    d.at? l = some (.file content mode modified)

theorem SameFile.trans (h : SameFile d d' l) (h' : SameFile d' d'' l) : SameFile d d'' l :=
  fun content mode modified => (h' content mode modified).trans (h content mode modified)

theorem SameFile.of_eq (h : d'.at? l = d.at? l) : SameFile d d' l := fun _ _ _ => by rw [h]

theorem Frame.sameFile (h : Frame touched d d') (hl : ¬ touched l) : SameFile d d' l :=
  fun _ _ _ => ⟨h.file_of_file hl, h.eq_of_some hl⟩

end Disk

open Disk (SameFile)
open SnapshotStore (IsFree below_lockLocation lockLocation)
open World (SameMoment Within momentary_createNew momentary_makeDirectories momentary_removeFile)

namespace FileLocks

variable {locks : FileLocks} {dir : Path} {base : Location} {key : Path}
  {own : Location → Prop} {w w' w'' : World} {l : Location}

theorem region_lockLocation (key : Path) : Region base (lockLocation base key) :=
  ⟨_, by rw [lockLocation, List.append_assoc]; rfl⟩

/-! ## Lock files that stay -/

/-- A world in which all lock files are left that have stayed fresh, and in which there are no new
ones but the own ones, unless the system refuses something. -/
structure Spares (locks : FileLocks) (base : Location) (own : Location → Prop) (w w' : World) :
    Prop where
  now_le : w.now ≤ w'.now
  quiet : w.trouble = [] → w'.trouble = []
  fresh : ∀ l, Region base l → ∀ content mode modified,
    w.disk.at? l = some (.file content mode modified) → w'.now ≤ modified + locks.staleMs →
      w'.disk.at? l = some (.file content mode modified)
  old : w.trouble = [] → ∀ l, Region base l → ¬ own l → ∀ content mode modified,
    w'.disk.at? l = some (.file content mode modified) →
      w.disk.at? l = some (.file content mode modified)

namespace Spares

theorem trans (h : locks.Spares base own w w') (h' : locks.Spares base own w' w'') :
    locks.Spares base own w w'' where
  now_le := Nat.le_trans h.now_le h'.now_le
  quiet := h'.quiet ∘ h.quiet
  fresh := fun l hl _ _ _ hat hfresh =>
    h'.fresh l hl _ _ _ (h.fresh l hl _ _ _ hat (Nat.le_trans h'.now_le hfresh)) hfresh
  old := fun hquiet l hl hown _ _ _ hat =>
    h.old hquiet l hl hown _ _ _ (h'.old (h.quiet hquiet) l hl hown _ _ _ hat)

theorem mono (h : locks.Spares base (fun _ => False) w w') : locks.Spares base own w w' :=
  { h with old := fun hquiet l hl _ => h.old hquiet l hl id }

/-- What touches no lock file and takes no time spares them all. -/
theorem of_within {touched : Location → Prop} (hw : Within touched w w') (hmoment : SameMoment w w')
    (htouched : ∀ l, touched l → ¬ Region base l) : locks.Spares base own w w' where
  now_le := Nat.le_of_eq hmoment.now.symm
  quiet := hmoment.quiet
  fresh := fun l hl _ _ _ hat _ => hw.frame.eq_of_some (fun ht => htouched l ht hl) hat
  old := fun _ l hl _ _ _ _ hat => hw.frame.file_of_file (fun ht => htouched l ht hl) hat

/-- Time passes and locks are remembered, and no file changes. -/
theorem memory (w : World) (held : List Path) {now : Nat} (hnow : w.now ≤ now) :
    locks.Spares base own w { w with now, held } where
  now_le := hnow
  quiet := id
  fresh := fun _ _ _ _ _ hat _ => hat
  old := fun _ _ _ _ _ _ _ hat => hat

end Spares

/-! ## Taking a lock -/

/-- A world in which the lock file of a key was created. Where it is, there was no file, or one that
has become stale. -/
structure Took (locks : FileLocks) (dir : Path) (base : Location) (key : Path) (w w' : World) :
    Prop where
  placed : Placed locks dir base w'
  spares : locks.Spares base (· = lockLocation base key) w w'
  filed : ∃ content mode modified,
    w'.disk.at? (lockLocation base key) = some (.file content mode modified)
  free : ∀ content mode modified,
    w.disk.at? (lockLocation base key) = some (.file content mode modified) →
      modified + locks.staleMs < w'.now

/-- What came before does not matter, if it spared the lock files. -/
theorem Took.after (h : Took locks dir base key w' w'')
    (hbefore : locks.Spares base (fun _ => False) w w') : Took locks dir base key w w'' where
  placed := h.placed
  spares := hbefore.mono.trans h.spares
  filed := h.filed
  free := by
    intro content mode modified hat
    by_contra hfresh
    have hthere := hbefore.fresh _ (region_lockLocation key) _ _ _ hat
      (Nat.le_trans h.spares.now_le (Nat.le_of_not_lt hfresh))
    exact hfresh (h.free _ _ _ hthere)

namespace Placed

theorem took_filed (h : Placed locks dir base w) {trouble : List (Option SystemError)}
    (hquiet : w.trouble = [] → trouble = [])
    (hnone : w.disk.at? (lockLocation base key) = none) :
    Took locks dir base key w (FileLocks.filed base key { w with trouble }) where
  placed := (h.memory w.now w.held trouble).filed hnone
  spares :=
    { now_le := Nat.le_refl _
      quiet := hquiet
      fresh := by
        intro l _ content mode modified hat _
        rw [at?_filed_of_ne]
        · exact hat
        · rintro rfl
          rw [hnone] at hat
          cases hat
      old := by
        intro _ l _ hown content mode modified hat
        rwa [at?_filed_of_ne hown] at hat }
  filed := ⟨_, _, _, at?_filed⟩
  free := by
    intro content mode modified hat
    rw [hnone] at hat
    cases hat

/-- A stale lock file may be removed. -/
theorem spares_cleared {trouble : List (Option SystemError)}
    (hquiet : w.trouble = [] → trouble = [])
    (hstale : ∀ content mode modified,
      w.disk.at? (lockLocation base key) = some (.file content mode modified) →
        modified + locks.staleMs < w.now) :
    locks.Spares base (fun _ => False) w (FileLocks.cleared base key { w with trouble }) where
  now_le := Nat.le_refl _
  quiet := hquiet
  fresh := by
    intro l _ content mode modified hat hfresh
    rw [at?_cleared_of_ne]
    · exact hat
    · rintro rfl
      exact absurd (hstale content mode modified hat) (Nat.not_lt_of_le hfresh)
  old := by
    intro _ l _ _ content mode modified hat
    by_cases heq : l = lockLocation base key
    · rw [heq, at?_cleared] at hat
      cases hat
    · rwa [at?_cleared_of_ne heq] at hat

theorem spares_trouble {trouble : List (Option SystemError)}
    (hquiet : w.trouble = [] → trouble = []) :
    locks.Spares base own w { w with trouble } :=
  .of_within (.ofTrouble w trouble) ⟨rfl, rfl, hquiet⟩ fun _ (hl : False) => hl.elim

/-- An attempt creates the lock file, or spares all of them. -/
theorem attempt (h : Placed locks dir base w) :
    (locks.attempt (locks.fileOf key)).Ends w fun r w' =>
      r = .ok .taken ∧ Took locks dir base key w w' ∨
        r ≠ .ok .taken ∧ Placed locks dir base w' ∧
          locks.Spares base (fun _ => False) w w' := by
  rw [FileLocks.attempt]
  refine ((h.ends_createNew key).and ((momentary_createNew _ _).ends w)).outcome.bind
    (fun r w₁ h₁ => ?_) fun e w₁ h₁ => h₁.elim
  obtain ⟨hcreated, hmoment⟩ := h₁
  cases r with
  | ok _ =>
    obtain ⟨hnone, trouble, rfl⟩ := hcreated
    exact Act.ends_pure (Or.inl ⟨rfl, h.took_filed hmoment.quiet hnone⟩)
  | error e =>
    obtain ⟨trouble, rfl⟩ := hcreated
    have hplaced := h.memory w.now w.held trouble
    have hspares : locks.Spares base (fun _ => False) w { w with trouble } :=
      spares_trouble hmoment.quiet
    cases e with
    | alreadyExists =>
      refine Act.ends_look_bind ?_
      split
      case isTrue hstale =>
        obtain ⟨content, mode, modified, hfile, hold⟩ := hplaced.isStale_iff.mp hstale
        refine ((hplaced.ends_removeFile key).and
          ((momentary_removeFile _).ends _)).outcome.bind (fun r w₂ h₂ => ?_) fun e w₂ h₂ => h₂.elim
        obtain ⟨hremoved, hmoment₂⟩ := h₂
        refine Act.ends_pure (Or.inr ⟨by rintro ⟨⟩, ?_⟩)
        cases r with
        | ok _ =>
          obtain ⟨hdirectory, trouble', rfl⟩ := hremoved
          refine ⟨(hplaced.memory w.now w.held trouble').cleared hdirectory,
            hspares.trans (spares_cleared hmoment₂.quiet ?_)⟩
          intro content' mode' modified' hfile'
          rw [hfile] at hfile'
          cases hfile'
          omega
        | error e =>
          obtain ⟨trouble', rfl⟩ := hremoved
          exact ⟨hplaced.memory w.now w.held trouble',
            hspares.trans (spares_trouble hmoment₂.quiet)⟩
      case isFalse => exact Act.ends_pure (Or.inr ⟨by rintro ⟨⟩, hplaced, hspares⟩)
    | _ => exact Act.ends_pure (Or.inr ⟨by rintro ⟨⟩, hplaced, hspares⟩)

/-- However often it is tried, the lock file is created in the end or all of them are spared. -/
theorem takeFile (h : Placed locks dir base w) {deadline fuel : Nat} :
    (locks.takeFile key deadline fuel).Ends w fun r w' =>
      match r with
      | .ok _ => Took locks dir base key w w'
      | .error _ => locks.Spares base (fun _ => False) w w' := by
  induction fuel generalizing w with
  | zero => exact Act.ends_throw (.memory w w.held (Nat.le_refl _))
  | succ fuel ih =>
    rw [FileLocks.takeFile]
    have hagain {v : World} (hv : Placed locks dir base v)
        (hspares : locks.Spares base (fun _ => False) w v) :
        (locks.takeFile key deadline fuel).Ends v fun r w' =>
          match r with
          | .ok _ => Took locks dir base key w w'
          | .error _ => locks.Spares base (fun _ => False) w w' := by
      refine (ih hv).mono ?_
      rintro (e | _) w' hw'
      · exact hspares.trans hw'
      · exact hw'.after hspares
    refine h.attempt.bind ?_ ?_
    · rintro r w₁ (⟨hr, htook⟩ | ⟨hr, hplaced, hspares⟩)
      · cases hr
        exact Act.ends_pure htook
      · cases r with
        | taken => exact absurd rfl hr
        | broken => exact hagain hplaced hspares
        | busy =>
          refine Act.ends_look_bind ?_
          split
          · exact Act.ends_throw hspares
          · exact Act.ends_change_bind (hagain (hplaced.memory _ _ _)
              (hspares.trans (.memory w₁ w₁.held (Nat.le_add_right _ _))))
        | failed e => exact Act.ends_throw hspares
    · rintro e w₁ (⟨hr, -⟩ | ⟨-, -, hspares⟩)
      · cases hr
      · exact hspares

end Placed

/-- The directory of the lock files is there once it was created. -/
theorem Under.ends_makeDirectories (h : Under locks dir base w) :
    (World.makeDirectories locks.dir).Ends w fun r w' =>
      locks.Spares base (fun _ => False) w w' ∧ (r = .ok () → Placed locks dir base w') := by
  have hnothing : (World.makeDirectories locks.dir).Ends w fun _ w' =>
      Within (fun _ => False) w w' := World.ends_makeDirectories _
  have hplaced : (World.makeDirectories locks.dir).Ends w fun r w' =>
      r = .ok () → w'.disk.at? (base ++ ["locks"]) = some .directory := by
    refine World.ends_diskOperation (fun e trouble => nofun) fun trouble d hd _ => ?_
    have hpath : w.absolute locks.dir = (w.absolute dir).join ⟨"locks"⟩ := by
      rw [h.dir_eq]
      exact Path.join_join isName_locks dir w.directory
    have hnonempty : locks.dir.text ≠ "" := h.dir_eq ▸ Path.text_join_ne isName_locks dir
    dsimp only at hd
    rw [if_neg hnonempty] at hd
    exact h.tree.isDirectory_of_makeDirectories isName_locks (hpath ▸ hd)
  refine ((hnothing.and hplaced).and ((momentary_makeDirectories _).ends w)).mono ?_
  rintro r w' ⟨⟨hw, hdirectory⟩, hmoment⟩
  exact ⟨.of_within hw hmoment fun _ (hl : False) => hl.elim,
    fun hr => ⟨h.within hw fun _ => False.elim, hdirectory hr⟩⟩

/-- A lock file is created or all of them are spared. -/
theorem Under.tookFile (h : Under locks dir base w) (key : Path) (deadline : Nat) :
    (locks.acquireFile key deadline).Ends w fun r w' =>
      match r with
      | .ok _ => Took locks dir base key w w'
      | .error _ => locks.Spares base (fun _ => False) w w' := by
  rw [FileLocks.acquireFile]
  refine h.ends_makeDirectories.mapError.bind ?_ ?_
  · rintro _ w₁ ⟨hspares, hplaced⟩
    refine Act.ends_look_bind ((hplaced rfl).takeFile.mono ?_)
    rintro (e | _) w₂ h₂
    · exact hspares.trans h₂
    · exact h₂.after hspares
  · rintro e w₁ ⟨_, -, hspares, -⟩
    exact hspares

/-- The same for a lock, which is held in memory too. -/
theorem Under.took (h : Under locks dir base w) : (locks.acquire key).Ends w fun r w' =>
    match r with
    | .ok _ => Took locks dir base key w w'
    | .error _ => locks.Spares base (fun _ => False) w w' := by
  rw [Act.ends_iff, FileLocks.acquire, Act.apply, Act.ofFun]
  cases hnew : holds w key with
  | true =>
    rw [if_pos rfl]
    exact .memory w w.held (Nat.le_add_right _ _)
  | false =>
    rw [if_neg Bool.false_ne_true]
    have hheld : locks.Spares base (fun _ => False) w { w with held := key :: w.held } :=
      .memory w (key :: w.held) (Nat.le_refl _)
    have hunder : Under locks dir base { w with held := key :: w.held } :=
      ⟨h.tree, h.dir_eq⟩
    have hfile := hunder.tookFile key (w.now + locks.waitMs)
    rcases hrun : (locks.acquireFile key (w.now + locks.waitMs)).apply
      { w with held := key :: w.held } with ⟨_ | _, w'⟩
    all_goals have hw' := hfile.of_apply hrun
    · exact (hheld.trans hw').trans (.memory w' _ (Nat.le_refl _))
    · exact hw'.after hheld

/-! ## Giving a lock back -/

theorem holds_forget (w : World) (key : Path) : holds (forget w key) key = false := by
  rw [holds, List.any_eq_false]
  intro k hk
  have hne := (List.mem_filter.mp hk).2
  rwa [Bool.not_eq_true', ← Bool.not_eq_true] at hne

theorem holds_forget_of_not {k : Path} (h : holds w k = false) (key : Path) :
    holds (forget w key) k = false := by
  rw [holds, List.any_eq_false] at h ⊢
  exact fun k' hk' => h k' (List.mem_filter.mp hk').1

/-- A world in which a lock was given back: its file is gone, unless there was none or the system
refused to remove it. -/
structure Released (locks : FileLocks) (dir : Path) (base : Location) (key : Path) (w w' : World) :
    Prop where
  placed : Placed locks dir base w'
  within : Within (Region base) w w'
  now : w'.now = w.now
  quiet : w.trouble = [] → w'.trouble = []
  held : ∃ v, w' = forget v key ∧ v.held = w.held
  same : ∀ l, l ≠ lockLocation base key → w'.disk.at? l = w.disk.at? l
  here : w'.disk.at? (lockLocation base key) = none ∨
    w'.disk.at? (lockLocation base key) = w.disk.at? (lockLocation base key) ∧
      (w.trouble = [] → ∀ content mode modified,
        w.disk.at? (lockLocation base key) ≠ some (.file content mode modified))

theorem Placed.release (h : Placed locks dir base w) :
    Released locks dir base key w (locks.release key w) := by
  have hwithin : Within (Region base) w (locks.release key w) := h.under.release
  have hmoment := Act.ends_iff.mp ((momentary_removeFile (locks.fileOf key)).ends w)
  have hplaced : Placed locks dir base (locks.release key w) :=
    h.within (hwithin.mono fun _ hl => hl.below)
  have hremove := Act.ends_iff.mp (h.ends_removeFile key)
  rcases hrun : (World.removeFile (locks.fileOf key)).apply w with ⟨e | _, v⟩
  all_goals
    rw [hrun] at hremove hmoment
    have heq : locks.release key w = forget v key := by rw [FileLocks.release, hrun]
    rw [heq] at hwithin hplaced ⊢
    refine ⟨hplaced, hwithin, hmoment.now, hmoment.quiet, ⟨v, rfl, hmoment.held⟩, ?_, ?_⟩
  · obtain ⟨trouble, rfl⟩ := hremove
    exact fun _ _ => rfl
  · obtain ⟨trouble, rfl⟩ := hremove
    refine Or.inr ⟨rfl, fun hquiet content mode modified hfile => ?_⟩
    rw [h.removeFile_of_file hquiet hfile] at hrun
    cases hrun
  · obtain ⟨-, trouble, rfl⟩ := hremove
    exact fun l hl => at?_cleared_of_ne hl
  · obtain ⟨-, trouble, rfl⟩ := hremove
    exact Or.inl at?_cleared

/-- What is done under a lock spares all lock files in the end if it spares them while the lock is
held. -/
theorem Took.release {w₁ w₂ w₃ : World} (h : Took locks dir base key w w₁)
    (hbetween : locks.Spares base (fun _ => False) w₁ w₂)
    (hreleased : Released locks dir base key w₂ w₃) :
    locks.Spares base (fun _ => False) w w₃ where
  now_le := by
    rw [hreleased.now]
    exact Nat.le_trans h.spares.now_le hbetween.now_le
  quiet := fun hquiet => hreleased.quiet (hbetween.quiet (h.spares.quiet hquiet))
  fresh := by
    intro l hl content mode modified hat hfresh
    rw [hreleased.now] at hfresh
    have hearlier := Nat.le_trans hbetween.now_le hfresh
    rw [hreleased.same]
    · exact hbetween.fresh l hl _ _ _ (h.spares.fresh l hl _ _ _ hat hearlier) hfresh
    · rintro rfl
      exact absurd (h.free _ _ _ hat) (Nat.not_lt_of_le hearlier)
  old := by
    intro hquiet l hl _ content mode modified hat
    have hquiet₁ := h.spares.quiet hquiet
    by_cases heq : l = lockLocation base key
    · rw [heq] at hat
      rcases hreleased.here with hnone | ⟨hsame, hgone⟩
      · rw [hnone] at hat
        cases hat
      · rw [hsame] at hat
        exact absurd hat (hgone (hbetween.quiet hquiet₁) _ _ _)
    · rw [hreleased.same l heq] at hat
      exact h.spares.old hquiet l hl heq _ _ _ (hbetween.old hquiet₁ l hl id _ _ _ hat)

/-- A lock that was given back can be had again at once. -/
theorem Released.isFree (h : Released locks dir base key w w') (hquiet : w.trouble = [])
    (hfile : ∃ content mode modified,
      w.disk.at? (lockLocation base key) = some (.file content mode modified)) :
    IsFree locks dir base key w' where
  under := h.placed.under
  locksDir := h.placed.locksDir
  trouble := h.quiet hquiet
  noFile := by
    obtain ⟨content, mode, modified, hat⟩ := hfile
    exact h.here.resolve_right fun hgone => hgone.2 hquiet _ _ _ hat
  unheld := by
    obtain ⟨v, rfl, -⟩ := h.held
    exact holds_forget v key

/-- A free lock stays free when another one is given back. -/
theorem Released.isFree_other (h : Released locks dir base key w w') {k : Path}
    (hfree : IsFree locks dir base k w) : IsFree locks dir base k w' where
  under := h.placed.under
  locksDir := h.placed.locksDir
  trouble := h.quiet hfree.trouble
  noFile := by
    by_cases heq : lockLocation base k = lockLocation base key
    · rw [heq]
      refine h.here.elim id fun hsame => ?_
      rw [hsame.1, ← heq, hfree.noFile]
    · rw [h.same _ heq, hfree.noFile]
  unheld := by
    obtain ⟨v, rfl, hheld⟩ := h.held
    refine holds_forget_of_not ?_ key
    rw [holds, hheld]
    exact hfree.unheld

/-! ## Under a lock -/

/-- An action under a lock is not begun if the lock cannot be taken, and else it runs between taking
the lock and giving it back. -/
theorem Under.between {α : Type} {a : Act SnapshotError α}
    {Q : Except SnapshotError α → World → Prop} (h : Under locks dir base w)
    (hrefused : ∀ e w₁, (locks.acquire key).apply w = (.error e, w₁) →
      Within (Region base) w w₁ → locks.Spares base (fun _ => False) w w₁ → Q (.error e) w₁)
    (hrun : ∀ w₁, Within (Region base) w w₁ → Took locks dir base key w w₁ →
      a.Ends w₁ fun r w₂ => Placed locks dir base w₂ ∧
        ∀ w₃, Released locks dir base key w₂ w₃ → Q r w₃) :
    (locks.withLock key a).Ends w Q := by
  have hacquire : (locks.acquire key).Ends w fun _ w' => Within (Region base) w w' := h.acquire
  have hacquire := hacquire.and h.took
  rw [Act.ends_iff, FileLocks.withLock, Act.apply, Act.ofFun]
  rcases hacquired : (locks.acquire key).apply w with ⟨e | _, w₁⟩
  · obtain ⟨hwithin, hspares⟩ := hacquire.of_apply hacquired
    exact hrefused e w₁ hacquired hwithin hspares
  · obtain ⟨hwithin, htook⟩ := hacquire.of_apply hacquired
    obtain ⟨hplaced, hlater⟩ := Act.ends_iff.mp (hrun w₁ hwithin htook)
    exact hlater _ hplaced.release

/-- A free lock can be taken. -/
theorem acquire_ne_error (h : IsFree locks dir base key w) (e : SnapshotError) (w' : World) :
    (locks.acquire key).apply w ≠ (.error e, w') := by
  intro hrun
  obtain ⟨_, heq, -⟩ := Act.Ends.of_apply h.acquire hrun
  cases heq

end FileLocks

end Amend
