import Amend.Snapshot.Store
import Amend.Proofs.Snapshot.Lock

/-!
# Where the system refuses nothing

What the system refuses is told in advance.  When it has nothing left to refuse, it refuses nothing
later on either: no operation on files and no step of a store brings new refusals about, whether
it succeeds or not.
-/

namespace Amend

namespace Act

variable {ε ε' α β : Type}

/-- What comes of an action where the system refuses nothing. -/
def freely (a : Act ε α) (w : World) : Except ε α := (a.apply { w with trouble := [] }).1

theorem freely_of_quiet (a : Act ε α) {w : World} (h : w.trouble = []) :
    a.freely w = (a.apply w).1 := by
  rw [freely, ← h]

/-- An action behind which the system refuses nothing if it refuses nothing before. -/
def Quiet (a : Act ε α) : Prop := ∀ w, w.trouble = [] → a.Ends w fun _ w' => w'.trouble = []

theorem quiet_pure (x : α) : (pure x : Act ε α).Quiet := keeps_pure x

theorem quiet_throw (e : ε) : (throw e : Act ε α).Quiet := keeps_throw e

theorem quiet_look (f : World → α) : (look f : Act ε α).Quiet := keeps_look f

theorem Quiet.bind {a : Act ε α} {f : α → Act ε β} (h : a.Quiet) (hf : ∀ x, (f x).Quiet) :
    (a >>= f).Quiet := Keeps.bind h hf

theorem Quiet.mapError {a : Act ε α} {f : ε → ε'} (h : a.Quiet) : (a.mapError f).Quiet :=
  Keeps.mapError h

theorem Quiet.outcome {a : Act ε α} (h : a.Quiet) :
    (a.outcome : Act ε' (Except ε α)).Quiet := Keeps.outcome h

end Act

open Act (quiet_pure quiet_throw quiet_look)

namespace World

variable {ε α : Type}

theorem quiet_operation {f : World → Except SystemError (α × World)}
    (hf : ∀ w x w', f w = .ok (x, w') → w'.trouble = w.trouble) : (operation f).Quiet := by
  intro w hw
  rw [Act.ends_iff, operation, Act.apply, Act.ofFun, hw]
  dsimp only [List.tail_nil]
  split
  · rename_i hdone
    exact hf _ _ _ hdone
  · rfl

theorem quiet_diskOperation (f : World → Except SystemError Disk) : (diskOperation f).Quiet := by
  refine quiet_operation fun w x w' h => ?_
  cases hd : f w with
  | error e =>
    rw [hd] at h
    cases h
  | ok d =>
    rw [hd] at h
    cases h
    rfl

theorem quiet_readBytes (p : Path) : (readBytes p).Quiet := by
  refine quiet_operation fun w x w' h => ?_
  cases hread : w.disk.read (w.absolute p) with
  | error e =>
    rw [hread] at h
    cases h
  | ok content =>
    rw [hread] at h
    cases h
    rfl

theorem quiet_makeDirectories (p : Path) : (makeDirectories p).Quiet := quiet_diskOperation _

theorem quiet_createNew (p : Path) (content : ByteArray) : (createNew p content).Quiet :=
  quiet_diskOperation _

theorem quiet_removeFile (p : Path) : (removeFile p).Quiet := quiet_diskOperation _

theorem quiet_readClock : (readClock : Act ε Timestamp).Quiet := fun _ h => Act.ends_iff.mpr h

theorem quiet_drawId : (drawId : Act ε Uid).Quiet := fun _ h => Act.ends_iff.mpr h

end World

open World (quiet_readBytes quiet_makeDirectories quiet_createNew quiet_removeFile)

theorem quiet_writeFile (target : Path) (content : ByteArray) :
    (writeFile target content).Quiet := by
  rw [writeFile]
  cases target.parent? with
  | none => exact quiet_throw _
  | some dir =>
    refine (quiet_makeDirectories _).mapError.bind fun _ => ?_
    refine (World.quiet_operation fun w x w' h => ?_).mapError.bind fun _ => ?_
    · cases h
      rfl
    · exact (World.quiet_diskOperation _).mapError

namespace FileLocks

theorem stable_quiet : Stable fun w => w.trouble = [] where
  makeDirectories := quiet_makeDirectories
  createNew := fun p => quiet_createNew p _
  removeFile := quiet_removeFile
  memory := fun _ _ _ h => h

theorem quiet_withLock {α : Type} (l : FileLocks) (key : Path) {a : Act SnapshotError α}
    (ha : a.Quiet) : (l.withLock key a).Quiet := stable_quiet.keeps_withLock l key ha

end FileLocks

namespace SnapshotStore

variable {α : Type} (s : SnapshotStore)

theorem quiet_loadIndex : s.loadIndex.Quiet := by
  refine (quiet_look _).bind fun there => ?_
  split
  · refine (quiet_readBytes _).mapError.bind fun bytes => ?_
    split
    · exact quiet_pure _
    · exact quiet_throw _
  · exact quiet_pure _

theorem quiet_index : s.index.Quiet := s.locks.quiet_withLock _ s.quiet_loadIndex

theorem quiet_updateIndex {f : SnapshotIndex → Act SnapshotError (α × SnapshotIndex)}
    (hf : ∀ i, (f i).Quiet) : (s.updateIndex f).Quiet := by
  refine s.locks.quiet_withLock _ (s.quiet_loadIndex.bind fun i => (hf i).bind fun x => ?_)
  exact (quiet_writeFile _ _).mapError.bind fun _ => quiet_pure _

theorem quiet_removeCopy (location : Path) : (removeCopy location).Quiet := by
  rw [removeCopy]
  refine (World.quiet_removeFile location).outcome.bind fun r => ?_
  split
  · exact quiet_pure _
  · exact quiet_pure _
  · exact quiet_throw _

theorem quiet_delete (id : Uid) : (s.delete id).Quiet := by
  rw [delete]
  refine (s.quiet_updateIndex fun index => ?_).bind fun t => quiet_removeCopy t.location
  split
  · exact quiet_pure _
  · exact quiet_throw _

theorem quiet_mismatch (path : Path) (expected actual : String) :
    (s.mismatch path expected actual).Quiet := by
  rw [mismatch]
  cases s.policy with
  | strict => exact quiet_throw _
  | advisory => exact quiet_pure _

theorem quiet_restore (t : Snapshot) : (s.restore t).Quiet := by
  have hchecked {p : Prop} [Decidable p] {path : Path} {expected actual : String}
      {rest : Act SnapshotError Unit} (hrest : rest.Quiet) :
      (if p then do s.mismatch path expected actual; rest else rest).Quiet := by
    split
    · exact (s.quiet_mismatch _ _ _).bind fun _ => hrest
    · exact hrest
  refine s.locks.quiet_withLock _ ((quiet_readBytes _).mapError.bind fun bytes => hchecked ?_)
  refine (quiet_writeFile _ _).mapError.bind fun _ => ?_
  refine (quiet_readBytes _).mapError.bind fun written => ?_
  dsimp only
  split
  · exact s.quiet_mismatch _ _ _
  · exact quiet_pure _

end SnapshotStore

end Amend
