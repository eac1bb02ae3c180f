import Amend.Proofs.Snapshot.Quiet

/-!
# Every lock is given back

An operation on files takes no time and does not change which locks the process holds.  A lock that
was taken is given back however the action under it ends.  So an operation of a store leaves the
process with the locks that it held before, whatever the store looks like and whatever the system
refuses.
-/

namespace Amend

/-! ## Operations on files -/

namespace World

/-- A world of the same moment: no time has passed, the process holds what it held, and the system
refuses nothing if it refused nothing before. -/
structure SameMoment (w w' : World) : Prop where
  now : w'.now = w.now
  held : w'.held = w.held
  quiet : w.trouble = [] → w'.trouble = []

variable {w w' w'' : World}

theorem SameMoment.refl (w : World) : SameMoment w w := ⟨rfl, rfl, id⟩

theorem SameMoment.trans (h : SameMoment w w') (h' : SameMoment w' w'') : SameMoment w w'' :=
  ⟨h'.now.trans h.now, h'.held.trans h.held, h'.quiet ∘ h.quiet⟩

end World

open World (SameMoment)

namespace Act

variable {ε ε' α β : Type}

/-- An action that takes no time and no locks, and brings no refusals about. -/
def Momentary (a : Act ε α) : Prop := ∀ start, a.Keeps (SameMoment start)

theorem Momentary.ends {a : Act ε α} (h : a.Momentary) (w : World) :
    a.Ends w fun _ w' => SameMoment w w' := h w w (.refl w)

theorem momentary_pure (x : α) : (pure x : Act ε α).Momentary := fun _ => keeps_pure x

theorem momentary_throw (e : ε) : (throw e : Act ε α).Momentary := fun _ => keeps_throw e

theorem momentary_look (f : World → α) : (look f : Act ε α).Momentary := fun _ => keeps_look f

theorem Momentary.bind {a : Act ε α} {f : α → Act ε β} (h : a.Momentary)
    (hf : ∀ x, (f x).Momentary) : (a >>= f).Momentary :=
  fun start => (h start).bind fun x => hf x start

theorem Momentary.mapError {a : Act ε α} {f : ε → ε'} (h : a.Momentary) :
    (a.mapError f).Momentary := fun start => (h start).mapError

theorem Momentary.outcome {a : Act ε α} (h : a.Momentary) :
    (a.outcome : Act ε' (Except ε α)).Momentary := fun start => (h start).outcome

/-- An action that leaves the process with the locks that it held before. -/
def Balanced (a : Act ε α) : Prop := ∀ held, a.Keeps fun w => w.held = held

theorem Balanced.ends {a : Act ε α} (h : a.Balanced) (w : World) :
    a.Ends w fun _ w' => w'.held = w.held := h w.held w rfl

theorem Momentary.balanced {a : Act ε α} (h : a.Momentary) : a.Balanced :=
  fun _ w hw => (h.ends w).mono fun _ _ hw' => hw'.held.trans hw

theorem Balanced.bind {a : Act ε α} {f : α → Act ε β} (h : a.Balanced)
    (hf : ∀ x, (f x).Balanced) : (a >>= f).Balanced :=
  fun held => (h held).bind fun x => hf x held

theorem Balanced.mapError {a : Act ε α} {f : ε → ε'} (h : a.Balanced) :
    (a.mapError f).Balanced := fun held => (h held).mapError

theorem Balanced.outcome {a : Act ε α} (h : a.Balanced) :
    (a.outcome : Act ε' (Except ε α)).Balanced := fun held => (h held).outcome

theorem balanced_pure (x : α) : (pure x : Act ε α).Balanced := (momentary_pure x).balanced

theorem balanced_throw (e : ε) : (throw e : Act ε α).Balanced := (momentary_throw e).balanced

theorem balanced_look (f : World → α) : (look f : Act ε α).Balanced := (momentary_look f).balanced

end Act

open Act (momentary_pure momentary_throw momentary_look balanced_pure balanced_throw balanced_look)

namespace World

variable {ε α : Type}

theorem momentary_operation {f : World → Except SystemError (α × World)}
    (hf : ∀ w x w', f w = .ok (x, w') → SameMoment w w') : (operation f).Momentary := by
  intro start w h
  rw [Act.ends_iff, operation, Act.apply, Act.ofFun]
  split
  case h_1 e rest heq =>
    refine h.trans ⟨rfl, rfl, fun hquiet => ?_⟩
    rw [heq] at hquiet
    cases hquiet
  case h_2 =>
    have hsaid : SameMoment w { w with trouble := w.trouble.tail } :=
      ⟨rfl, rfl, fun hquiet => by rw [hquiet]; rfl⟩
    dsimp only
    split
    case h_1 hdone => exact h.trans (hsaid.trans (hf _ _ _ hdone))
    case h_2 => exact h.trans hsaid

theorem momentary_diskOperation (f : World → Except SystemError Disk) :
    (diskOperation f).Momentary := by
  refine momentary_operation fun w x w' h => ?_
  cases hd : f w with
  | error e =>
    rw [hd] at h
    cases h
  | ok d =>
    rw [hd] at h
    cases h
    exact ⟨rfl, rfl, id⟩

theorem momentary_readBytes (p : Path) : (readBytes p).Momentary := by
  refine momentary_operation fun w x w' h => ?_
  cases hread : w.disk.read (w.absolute p) with
  | error e =>
    rw [hread] at h
    cases h
  | ok content =>
    rw [hread] at h
    cases h
    exact .refl w

theorem momentary_makeDirectories (p : Path) : (makeDirectories p).Momentary :=
  momentary_diskOperation _

theorem momentary_createNew (p : Path) (content : ByteArray) : (createNew p content).Momentary :=
  momentary_diskOperation _

theorem momentary_removeFile (p : Path) : (removeFile p).Momentary := momentary_diskOperation _

theorem momentary_readClock : (readClock : Act ε Timestamp).Momentary :=
  fun _ _ h => Act.ends_iff.mpr ⟨h.now, h.held, h.quiet⟩

theorem momentary_drawId : (drawId : Act ε Uid).Momentary :=
  fun _ _ h => Act.ends_iff.mpr ⟨h.now, h.held, h.quiet⟩

end World

open World (momentary_readBytes momentary_makeDirectories momentary_createNew momentary_removeFile)

theorem momentary_writeFile (target : Path) (content : ByteArray) :
    (writeFile target content).Momentary := by
  rw [writeFile]
  cases target.parent? with
  | none => exact momentary_throw _
  | some dir =>
    refine (momentary_makeDirectories _).mapError.bind fun _ => ?_
    refine (World.momentary_operation fun w x w' h => ?_).mapError.bind fun _ => ?_
    · cases h
      exact .refl w
    · exact (World.momentary_diskOperation _).mapError

/-! ## Locks -/

namespace FileLocks

variable (l : FileLocks) (key : Path)

theorem momentary_attempt (file : Path) : (l.attempt file).Momentary := by
  refine (momentary_createNew file _).outcome.bind fun r => ?_
  split
  · exact momentary_pure _
  · refine (momentary_look _).bind fun stale => ?_
    split
    · exact (momentary_removeFile file).outcome.bind fun _ => momentary_pure _
    · exact momentary_pure _
  · exact momentary_pure _

theorem balanced_takeFile (deadline fuel : Nat) : (l.takeFile key deadline fuel).Balanced := by
  induction fuel with
  | zero => exact balanced_throw _
  | succ fuel ih =>
    refine (l.momentary_attempt _).balanced.bind fun r => ?_
    cases r with
    | taken => exact balanced_pure _
    | broken => exact ih
    | busy =>
      refine (balanced_look _).bind fun late => ?_
      split
      · exact balanced_throw _
      · have hsleep : (World.sleep retryMs : Act SnapshotError Unit).Balanced :=
          fun _ => Act.keeps_change fun _ hw => hw
        exact hsleep.bind fun _ => ih
    | failed e => exact balanced_throw _

theorem balanced_acquireFile (deadline : Nat) : (l.acquireFile key deadline).Balanced :=
  (momentary_makeDirectories _).mapError.balanced.bind fun _ =>
    (balanced_look _).bind fun _ => l.balanced_takeFile key deadline _

variable {w w' : World} {key : Path}

/-- A process that forgets the key it took last holds what it held before. -/
theorem held_forget (hnew : holds w key = false) (hheld : w'.held = key :: w.held) :
    (forget w' key).held = w.held := by
  change w'.held.filter (fun k => !k.same key) = w.held
  rw [hheld, List.filter_cons_of_neg (by simp [Path.same]), List.filter_eq_self]
  intro k hk
  rw [holds, List.any_eq_false] at hnew
  rw [Bool.eq_false_iff.mpr (hnew k hk)]
  rfl

/-- A lock that is taken is one more that the process holds, and one that is not taken changes
nothing about that. -/
theorem held_acquire (w : World) (key : Path) : (l.acquire key).Ends w fun r w' =>
    match r with
    | .ok _ => holds w key = false ∧ w'.held = key :: w.held
    | .error _ => w'.held = w.held := by
  have hfile := Act.ends_iff.mp ((l.balanced_acquireFile key (w.now + l.waitMs)).ends
    { w with held := key :: w.held })
  rw [Act.ends_iff, acquire, Act.apply, Act.ofFun]
  cases hnew : holds w key with
  | true =>
    rw [if_pos rfl]
  | false =>
    rw [if_neg Bool.false_ne_true]
    rcases hrun : (l.acquireFile key (w.now + l.waitMs)).apply
      { w with held := key :: w.held } with ⟨_ | _, w'⟩
    all_goals rw [hrun] at hfile
    · exact held_forget hnew hfile
    · exact ⟨rfl, hfile⟩

theorem balanced_withLock {α : Type} (key : Path) {a : Act SnapshotError α} (ha : a.Balanced) :
    (l.withLock key a).Balanced := by
  rintro held w rfl
  have hacquired := Act.ends_iff.mp (l.held_acquire w key)
  rw [Act.ends_iff, withLock, Act.apply, Act.ofFun]
  split
  case h_1 heq =>
    rw [heq] at hacquired
    exact hacquired
  case h_2 w₁ heq =>
    rw [heq] at hacquired
    obtain ⟨hnew, hheld⟩ := hacquired
    have hrun := Act.ends_iff.mp (ha.ends w₁)
    have hremove := (momentary_removeFile (l.fileOf key)).ends (a.apply w₁).2
    exact held_forget hnew ((Act.ends_iff.mp hremove).held.trans (hrun.trans hheld))

end FileLocks

/-! ## The store -/

namespace SnapshotStore

variable {α : Type} (s : SnapshotStore)

theorem momentary_loadIndex : s.loadIndex.Momentary := by
  refine (momentary_look _).bind fun there => ?_
  split
  · refine (momentary_readBytes _).mapError.bind fun bytes => ?_
    split
    · exact momentary_pure _
    · exact momentary_throw _
  · exact momentary_pure _

theorem balanced_index : s.index.Balanced :=
  s.locks.balanced_withLock _ s.momentary_loadIndex.balanced

theorem balanced_updateIndex {f : SnapshotIndex → Act SnapshotError (α × SnapshotIndex)}
    (hf : ∀ i, (f i).Momentary) : (s.updateIndex f).Balanced := by
  refine s.locks.balanced_withLock _ (Act.Momentary.balanced ?_)
  refine s.momentary_loadIndex.bind fun i => (hf i).bind fun x => ?_
  exact (momentary_writeFile _ _).mapError.bind fun _ => momentary_pure _

theorem momentary_removeCopy (location : Path) : (removeCopy location).Momentary := by
  rw [removeCopy]
  refine (momentary_removeFile location).outcome.bind fun r => ?_
  split
  · exact momentary_pure _
  · exact momentary_pure _
  · exact momentary_throw _

theorem balanced_delete (id : Uid) : (s.delete id).Balanced := by
  refine (s.balanced_updateIndex fun index => ?_).bind fun t =>
    (momentary_removeCopy t.location).balanced
  split
  · exact momentary_pure _
  · exact momentary_throw _

theorem balanced_retain (file : Path) (keep : Nat) : (s.retain file keep).Balanced := by
  have hlist : (s.listFor file).Balanced :=
    (balanced_look _).bind fun _ => s.balanced_index.bind fun _ => balanced_pure _
  refine (balanced_look _).bind fun pinned => hlist.bind fun ts => Act.Balanced.bind ?_
    fun _ => balanced_pure _
  exact fun held => Act.Keeps.forM (fun id => s.balanced_delete id held) _

theorem balanced_record (source : Path) : (s.record source).Balanced := by
  refine s.locks.balanced_withLock _ ?_
  refine (momentary_readBytes _).mapError.balanced.bind fun bytes => ?_
  refine World.momentary_readClock.balanced.bind fun createdAt => ?_
  refine (balanced_look _).bind fun location => ?_
  refine (momentary_writeFile _ _).mapError.balanced.bind fun _ => ?_
  refine (s.balanced_updateIndex fun index => ?_).outcome.bind fun recorded => ?_
  · exact World.momentary_drawId.bind fun id => momentary_pure _
  · split
    · exact balanced_pure _
    · exact (momentary_removeCopy _).outcome.balanced.bind fun _ => balanced_throw _

theorem balanced_create (file : Path) : (s.create file).Balanced := by
  refine (balanced_look _).bind fun source => (balanced_look _).bind fun there => ?_
  split
  · exact (s.balanced_record _).bind fun t =>
      (s.balanced_retain _ _).bind fun _ => balanced_pure t
  · exact balanced_throw _

theorem momentary_mismatch (path : Path) (expected actual : String) :
    (s.mismatch path expected actual).Momentary := by
  rw [mismatch]
  cases s.policy with
  | strict => exact momentary_throw _
  | advisory => exact momentary_pure _

theorem balanced_restore (t : Snapshot) : (s.restore t).Balanced := by
  have hchecked {p : Prop} [Decidable p] {path : Path} {expected actual : String}
      {rest : Act SnapshotError Unit} (hrest : rest.Momentary) :
      (if p then do s.mismatch path expected actual; rest else rest).Momentary := by
    split
    · exact (s.momentary_mismatch _ _ _).bind fun _ => hrest
    · exact hrest
  refine s.locks.balanced_withLock _ (Act.Momentary.balanced ?_)
  refine (momentary_readBytes _).mapError.bind fun bytes => hchecked ?_
  refine (momentary_writeFile _ _).mapError.bind fun _ => ?_
  refine (momentary_readBytes _).mapError.bind fun written => ?_
  dsimp only
  split
  · exact s.momentary_mismatch _ _ _
  · exact momentary_pure _

theorem balanced_markRestored (id : Uid) : (s.markRestored id).Balanced := by
  refine s.balanced_updateIndex fun index => ?_
  split
  · exact World.momentary_readClock.bind fun t => momentary_pure _
  · exact momentary_throw _

end SnapshotStore

end Amend
