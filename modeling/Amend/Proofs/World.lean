import Amend.World
import Amend.Proofs.Disk.Frame

/-!
# How actions end

An action is described by what holds of its outcome and of the world that it leaves, whether it
succeeds or fails.  Descriptions are composed the way actions are, so that what a long action
does follows from what its steps do.
-/

namespace Amend

namespace Act

variable {ε ε' α β : Type} {w : World}

/-- An action that starts in `w` ends with an outcome and a world that satisfy `Q`. -/
@[irreducible] def Ends (a : Act ε α) (w : World) (Q : Except ε α → World → Prop) : Prop :=
  Q (a.apply w).1 (a.apply w).2

theorem ends_iff {a : Act ε α} {Q : Except ε α → World → Prop} :
    a.Ends w Q ↔ Q (a.apply w).1 (a.apply w).2 := by
  rw [Ends]

theorem Ends.of_apply {a : Act ε α} {Q : Except ε α → World → Prop} {r : Except ε α} {w' : World}
    (h : a.Ends w Q) (hrun : a.apply w = (r, w')) : Q r w' := by
  rw [ends_iff, hrun] at h
  exact h

theorem Ends.mono {a : Act ε α} {P Q : Except ε α → World → Prop} (h : a.Ends w P)
    (hPQ : ∀ r w', P r w' → Q r w') : a.Ends w Q :=
  ends_iff.mpr (hPQ _ _ (ends_iff.mp h))

theorem ends_trivial {a : Act ε α} : a.Ends w fun _ _ => True := ends_iff.mpr trivial

theorem Ends.and {a : Act ε α} {P Q : Except ε α → World → Prop} (h : a.Ends w P)
    (h' : a.Ends w Q) : a.Ends w fun r w' => P r w' ∧ Q r w' :=
  ends_iff.mpr ⟨ends_iff.mp h, ends_iff.mp h'⟩

/-- Where an action ends is where it leads. -/
theorem Ends.and_apply {a : Act ε α} {P : Except ε α → World → Prop} (h : a.Ends w P) :
    a.Ends w fun r w' => P r w' ∧ a.apply w = (r, w') := by
  rw [ends_iff] at h ⊢
  exact ⟨h, rfl⟩

theorem ends_apply (a : Act ε α) (w : World) : a.Ends w fun r w' => a.apply w = (r, w') :=
  ends_iff.mpr rfl

/-- What is promised under a condition may be shown under it. -/
theorem ends_imp {a : Act ε α} {p : Prop} {Q : Except ε α → World → Prop}
    (h : p → a.Ends w Q) : a.Ends w fun r w' => p → Q r w' :=
  ends_iff.mpr fun hp => ends_iff.mp (h hp)

theorem ends_pure {x : α} {Q : Except ε α → World → Prop} (h : Q (.ok x) w) :
    (pure x : Act ε α).Ends w Q := ends_iff.mpr h

theorem ends_throw {e : ε} {Q : Except ε α → World → Prop} (h : Q (.error e) w) :
    (throw e : Act ε α).Ends w Q := ends_iff.mpr h

theorem ends_change {f : World → World} {Q : Except ε Unit → World → Prop} (h : Q (.ok ()) (f w)) :
    (change f).Ends w Q := ends_iff.mpr h

theorem ends_ofExcept {r : Except ε α} {Q : Except ε α → World → Prop} (h : Q r w) :
    (ofExcept r).Ends w Q := ends_iff.mpr h

theorem ends_always {f : StateM World α} {Q : Except ε α → World → Prop}
    (h : Q (.ok (f w).1) (f w).2) : (always f : Act ε α).Ends w Q := ends_iff.mpr h

theorem apply_bind (a : Act ε α) (f : α → Act ε β) (w : World) :
    (a >>= f).apply w = match a.apply w with
      | (.ok x, w') => (f x).apply w'
      | (.error e, w') => (.error e, w') := by
  change ExceptT.bindCont f (a w).1 (a w).2 = _
  rw [apply]
  split <;> (rename_i heq; rw [heq]; rfl)

theorem apply_look_bind (g : World → α) (f : α → Act ε β) (w : World) :
    (look g >>= f).apply w = (f (g w)).apply w := rfl

theorem apply_outcome_bind {a : Act ε α} {f : Except ε α → Act ε' β} {r : Except ε α}
    {w' : World} (h : a.apply w = (r, w')) : (a.outcome >>= f).apply w = (f r).apply w' := by
  have houtcome : (a.outcome : Act ε' (Except ε α)).apply w = (.ok r, w') := by
    rw [outcome, apply, ofFun, h]
  rw [apply_bind, houtcome]

theorem Ends.bind {a : Act ε α} {f : α → Act ε β} {P : Except ε α → World → Prop}
    {Q : Except ε β → World → Prop} (h : a.Ends w P)
    (hok : ∀ x w', P (.ok x) w' → (f x).Ends w' Q)
    (herror : ∀ e w', P (.error e) w' → Q (.error e) w') :
    (a >>= f).Ends w Q := by
  rw [ends_iff] at h
  rw [ends_iff, apply_bind]
  split
  · rename_i heq
    rw [heq] at h
    exact ends_iff.mp (hok _ _ h)
  · rename_i heq
    rw [heq] at h
    exact herror _ _ h

/-- Looking at the world does not change it. -/
theorem ends_look_bind {g : World → α} {f : α → Act ε β} {Q : Except ε β → World → Prop}
    (h : (f (g w)).Ends w Q) : (look g >>= f).Ends w Q := by
  rw [ends_iff] at h ⊢
  exact h

theorem ends_change_bind {g : World → World} {f : Unit → Act ε β} {Q : Except ε β → World → Prop}
    (h : (f ()).Ends (g w) Q) : (change g >>= f).Ends w Q := by
  rw [ends_iff] at h ⊢
  exact h

theorem Ends.mapError {a : Act ε α} {f : ε → ε'} {P : Except ε α → World → Prop}
    (h : a.Ends w P) : (a.mapError f).Ends w fun r w' =>
      match r with
      | .ok x => P (.ok x) w'
      | .error e => ∃ cause, e = f cause ∧ P (.error cause) w' := by
  rcases hrun : a.apply w with ⟨r, w'⟩
  have hmapped : (a.mapError f).apply w = (r.mapError f, w') := by
    rw [Act.mapError, apply, ofFun, hrun]
    cases r <;> rfl
  rw [ends_iff, hrun] at h
  rw [ends_iff, hmapped]
  cases r with
  | ok x => exact h
  | error e => exact ⟨e, rfl, h⟩

theorem Ends.outcome {a : Act ε α} {P : Except ε α → World → Prop} (h : a.Ends w P) :
    (a.outcome : Act ε' (Except ε α)).Ends w fun r w' =>
      match r with
      | .ok r' => P r' w'
      | .error _ => False := by
  rw [ends_iff] at h ⊢
  exact h

/-! ## Success -/

/-- An action that starts in `w` succeeds with a value and a world that satisfy `P`. -/
def Yields (a : Act ε α) (w : World) (P : α → World → Prop) : Prop :=
  a.Ends w fun r w' => ∃ x, r = .ok x ∧ P x w'

theorem Yields.mono {a : Act ε α} {P Q : α → World → Prop} (h : a.Yields w P)
    (hPQ : ∀ x w', P x w' → Q x w') : a.Yields w Q :=
  Ends.mono h fun _ w' ⟨x, hr, hP⟩ => ⟨x, hr, hPQ x w' hP⟩

theorem yields_pure {x : α} {P : α → World → Prop} (h : P x w) : (pure x : Act ε α).Yields w P :=
  ends_pure ⟨x, rfl, h⟩

theorem Yields.bind_ends {a : Act ε α} {f : α → Act ε β} {P : α → World → Prop}
    {Q : Except ε β → World → Prop} (h : a.Yields w P)
    (hf : ∀ x w', P x w' → (f x).Ends w' Q) : (a >>= f).Ends w Q := by
  refine Ends.bind h ?_ ?_
  · rintro _ w' ⟨x, heq, hP⟩
    cases heq
    exact hf _ w' hP
  · rintro e w' ⟨x, heq, -⟩
    cases heq

theorem Yields.bind {a : Act ε α} {f : α → Act ε β} {P : α → World → Prop}
    {Q : β → World → Prop} (h : a.Yields w P) (hf : ∀ x w', P x w' → (f x).Yields w' Q) :
    (a >>= f).Yields w Q := h.bind_ends hf

theorem Yields.mapError {a : Act ε α} {f : ε → ε'} {P : α → World → Prop} (h : a.Yields w P) :
    (a.mapError f).Yields w P := by
  refine Ends.mono (Ends.mapError h) ?_
  rintro (e | x) w' hw'
  · obtain ⟨_, -, x, heq, -⟩ := hw'
    cases heq
  · obtain ⟨y, heq, hP⟩ := hw'
    cases heq
    exact ⟨_, rfl, hP⟩

theorem Yields.outcome {a : Act ε α} {P : α → World → Prop} (h : a.Yields w P) :
    (a.outcome : Act ε' (Except ε α)).Yields w fun r w' => ∃ x, r = .ok x ∧ P x w' := by
  refine Ends.mono (Ends.outcome h) ?_
  rintro (e | r) w' hw'
  · exact hw'.elim
  · exact ⟨r, rfl, hw'⟩

/-! ## What stays true -/

/-- An action behind which something holds of the world whenever it held before, whether the action
succeeds or not. -/
def Keeps (I : World → Prop) (a : Act ε α) : Prop := ∀ w, I w → a.Ends w fun _ w' => I w'

section Keeps

variable {I : World → Prop}

theorem keeps_pure (x : α) : (pure x : Act ε α).Keeps I := fun _ h => ends_pure h

theorem keeps_throw (e : ε) : (throw e : Act ε α).Keeps I := fun _ h => ends_throw h

theorem keeps_look (f : World → α) : (look f : Act ε α).Keeps I := fun _ h => ends_iff.mpr h

theorem keeps_change {f : World → World} (hf : ∀ w, I w → I (f w)) :
    (change f : Act ε Unit).Keeps I := fun w h => ends_change (hf w h)

theorem Keeps.bind {a : Act ε α} {f : α → Act ε β} (h : a.Keeps I) (hf : ∀ x, (f x).Keeps I) :
    (a >>= f).Keeps I := fun w hw =>
  (h w hw).bind (fun x w' hw' => hf x w' hw') fun _ _ hw' => hw'

theorem Keeps.mapError {a : Act ε α} {f : ε → ε'} (h : a.Keeps I) : (a.mapError f).Keeps I := by
  intro w hw
  refine (Ends.mapError (h w hw)).mono ?_
  rintro (e | x) w' hw'
  · obtain ⟨-, -, hw'⟩ := hw'
    exact hw'
  · exact hw'

theorem Keeps.outcome {a : Act ε α} (h : a.Keeps I) :
    (a.outcome : Act ε' (Except ε α)).Keeps I := by
  intro w hw
  refine (Ends.outcome (h w hw)).mono ?_
  rintro (e | r) w' hw'
  · exact hw'.elim
  · exact hw'

theorem Keeps.forM {f : α → Act ε Unit} (hf : ∀ x, (f x).Keeps I) (xs : List α) :
    (xs.forM f).Keeps I := by
  induction xs with
  | nil => exact keeps_pure ()
  | cons x xs ih => exact (hf x).bind fun _ => ih

theorem Keeps.and_const {a : Act ε α} (h : a.Keeps I) (p : Prop) : a.Keeps fun w => I w ∧ p :=
  fun w hw => (h w hw.1).mono fun _ _ hw' => ⟨hw', hw.2⟩

theorem Keeps.exists {ι : Type} {J : ι → World → Prop} {a : Act ε α} (h : ∀ x, a.Keeps (J x)) :
    a.Keeps fun w => ∃ x, J x w := by
  rintro w ⟨x, hx⟩
  exact (h x w hx).mono fun _ _ hw' => ⟨x, hw'⟩

end Keeps

/-! ## Steps that cannot fail -/

/-- A step that cannot fail and starts in `w` ends with a value and a world that satisfy `Q`. -/
@[irreducible] def Settles (f : StateM World α) (w : World) (Q : α → World → Prop) : Prop :=
  Q (f w).1 (f w).2

theorem settles_iff {f : StateM World α} {Q : α → World → Prop} :
    Settles f w Q ↔ Q (f w).1 (f w).2 := by
  rw [Settles]

theorem Settles.mono {f : StateM World α} {P Q : α → World → Prop} (h : Settles f w P)
    (hPQ : ∀ x w', P x w' → Q x w') : Settles f w Q :=
  settles_iff.mpr (hPQ _ _ (settles_iff.mp h))

theorem settles_pure {x : α} {Q : α → World → Prop} (h : Q x w) :
    Settles (pure x : StateM World α) w Q := settles_iff.mpr h

theorem Settles.bind {f : StateM World α} {g : α → StateM World β} {P : α → World → Prop}
    {Q : β → World → Prop} (h : Settles f w P) (hg : ∀ x w', P x w' → Settles (g x) w' Q) :
    Settles (f >>= g) w Q := by
  have hnext := hg _ _ (settles_iff.mp h)
  rw [settles_iff] at hnext ⊢
  exact hnext

/-- After a step comes what follows its value. -/
theorem Settles.of_value {f : StateM World α} {g : α → StateM World β} {Q : β → World → Prop}
    (h : Settles (g (f w).1) (f w).2 Q) : Settles (f >>= g) w Q := by
  rw [settles_iff] at h ⊢
  exact h

theorem settles_get_bind {g : World → StateM World β} {Q : β → World → Prop}
    (h : Settles (g w) w Q) : Settles (get >>= g) w Q := .of_value h

/-- An action settles as it ends. -/
theorem Ends.settle {a : Act ε α} {Q : Except ε α → World → Prop} (h : a.Ends w Q) :
    Settles a.settle w Q := settles_iff.mpr (ends_iff.mp h)

end Act

/-! ## Batches -/

/-- The outcome of a batch: all results in their order, or the first failure. -/
inductive Gathers {ε α : Type} : List (Except ε α) → Except ε (List α) → Prop
  | all (xs : List α) : Gathers (xs.map .ok) (.ok xs)
  | failed (xs : List α) (e : ε) (rest : List (Except ε α)) :
      Gathers (xs.map .ok ++ .error e :: rest) (.error e)

theorem Gathers.cons {ε α : Type} {rs : List (Except ε α)} {r : Except ε (List α)}
    (h : Gathers rs r) (x : α) : Gathers (.ok x :: rs) (r.map (x :: ·)) := by
  cases h with
  | all xs => exact .all (x :: xs)
  | failed xs e rest => exact .failed (x :: xs) e rest

theorem Gathers.eq_map {ε α : Type} {rs : List (Except ε α)} {xs : List α}
    (h : Gathers rs (.ok xs)) : rs = xs.map .ok := by
  cases h
  rfl

theorem Gathers.forall_ok {ε α : Type} {rs : List (Except ε α)} {xs : List α}
    (h : Gathers rs (.ok xs)) : ∀ r ∈ rs, ∃ x, r = .ok x := by
  rw [h.eq_map]
  intro r hr
  obtain ⟨x, -, rfl⟩ := List.mem_map.mp hr
  exact ⟨x, rfl⟩

theorem Gathers.eq_ok {ε α : Type} {xs : List α} {r : Except ε (List α)}
    (h : Gathers (xs.map .ok) r) : r = .ok xs := by
  generalize hrs : xs.map Except.ok = rs at h
  cases h with
  | all ys => rw [(List.map_inj_right fun _ _ => Except.ok.inj).mp hrs]
  | failed ys e rest =>
    have hmem : Except.error e ∈ xs.map Except.ok := hrs ▸ by simp
    obtain ⟨x, -, hx⟩ := List.mem_map.mp hmem
    cases hx

theorem ends_gather {ε α : Type} (rs : List (Except ε α)) (w : World) :
    (rs.mapM .ofExcept : Act ε (List α)).Ends w fun r w' => w' = w ∧ Gathers rs r := by
  induction rs with
  | nil => exact Act.ends_pure ⟨rfl, .all []⟩
  | cons first rs ih =>
    rw [List.mapM_cons]
    cases first with
    | error e =>
      refine (Act.ends_ofExcept (Q := fun r w' => r = .error e ∧ w' = w) ⟨rfl, rfl⟩).bind ?_ ?_
      · rintro _ _ ⟨⟨⟩, -⟩
      · rintro _ _ ⟨⟨⟩, rfl⟩
        exact ⟨rfl, .failed [] e rs⟩
    | ok x =>
      refine (Act.ends_ofExcept (Q := fun r w' => r = .ok x ∧ w' = w) ⟨rfl, rfl⟩).bind ?_ ?_
      · rintro _ _ ⟨⟨⟩, rfl⟩
        refine ih.bind ?_ ?_
        · rintro xs _ ⟨rfl, hxs⟩
          exact Act.ends_pure ⟨rfl, hxs.cons x⟩
        · rintro e _ ⟨rfl, he⟩
          exact ⟨rfl, he.cons x⟩
      · rintro _ _ ⟨⟨⟩, -⟩

namespace World

open Disk (Frame)

variable {touched more : Location → Prop} {w w' w'' : World}

/-- A world after actions that touch no more than the given locations.  The clock and the
identifiers to draw are what they were, and no pin has changed. -/
structure Within (touched : Location → Prop) (w w' : World) : Prop where
  frame : Frame touched w.disk w'.disk
  directory : w'.directory = w.directory
  clock : w'.clock = w.clock
  ids : w'.ids = w.ids
  drawn : w.drawn ≤ w'.drawn
  pinned : w'.pinned = w.pinned

namespace Within

theorem refl (w : World) : Within touched w w :=
  ⟨Frame.refl w.disk, rfl, rfl, rfl, Nat.le_refl _, rfl⟩

theorem trans (h : Within touched w w') (h' : Within touched w' w'') : Within touched w w'' where
  frame := h.frame.trans h'.frame
  directory := h'.directory.trans h.directory
  clock := h'.clock.trans h.clock
  ids := h'.ids.trans h.ids
  drawn := Nat.le_trans h.drawn h'.drawn
  pinned := h'.pinned.trans h.pinned

theorem mono (h : Within touched w w') (hsub : ∀ l, touched l → more l) : Within more w w' :=
  { h with frame := h.frame.mono hsub }

theorem absolute (h : Within touched w w') (p : Path) : w'.absolute p = w.absolute p := by
  rw [World.absolute, h.directory, World.absolute]

/-- A file that is not touched is read as before, if no link on the way is touched. -/
theorem read (h : Within touched w w') {p : Path} {content : ByteArray}
    (hread : w.disk.read (w.absolute p) = .ok content)
    (hfile : ∀ l, w.disk.locate (w.absolute p) = .ok l → ¬ touched l)
    (hlinks : ∀ m ∈ w.disk.linksTo (w.absolute p), ¬ touched m) :
    w'.disk.read (w'.absolute p) = .ok content := by
  obtain ⟨l, mode, modified, hl, hat⟩ := Disk.read_eq_ok_iff.mp hread
  obtain ⟨-, -, -, hkind⟩ := Disk.locate_eq_ok_iff.mp hl
  have hplain : Disk.meansDirectory (w.absolute p) = false :=
    Bool.eq_false_iff.mpr fun hmeans => hkind hmeans content mode modified hat
  rw [h.absolute]
  exact Disk.read_eq_ok_iff.mpr ⟨l, mode, modified,
    (h.frame.locate hl hlinks (Or.inl hplain)).1, h.frame.eq_of_some (hfile l hl) hat⟩

end Within

/-- What a path leads to gives its identity. -/
theorem identity_of_entry {p : Path} {l : Location} {e : Entry} (hp : p.text ≠ "")
    (hl : w.disk.locate (w.absolute p) = .ok l) (he : w.disk.at? l = some e) :
    w.identity p = l.path := by
  rw [identity, Disk.canonical_of_entry hl he]
  exact if_neg hp

/-! ## Single operations -/

section Operations

variable {p : Path}

/-- An operation is refused and changes nothing, or does what it is to do. -/
theorem ends_operation {α : Type} {f : World → Except SystemError (α × World)}
    {Q : Except SystemError α → World → Prop}
    (hrefused : ∀ e trouble, Q (.error e) { w with trouble })
    (hdone : ∀ trouble x w', f { w with trouble } = .ok (x, w') → Q (.ok x) w') :
    (operation f).Ends w Q := by
  rw [Act.ends_iff, operation, Act.apply, Act.ofFun]
  split
  · exact hrefused _ _
  · dsimp only
    split
    · rename_i hf
      exact hdone _ _ _ hf
    · exact hrefused _ _

theorem Within.ofTrouble (w : World) (trouble : List (Option SystemError)) :
    Within touched w { w with trouble } :=
  ⟨Frame.refl w.disk, rfl, rfl, rfl, Nat.le_refl _, rfl⟩

theorem ends_diskOperation {f : World → Except SystemError Disk}
    {Q : Except SystemError Unit → World → Prop}
    (hrefused : ∀ e trouble, Q (.error e) { w with trouble })
    (hdone : ∀ trouble disk, f { w with trouble } = .ok disk →
      Q (.ok ()) { w with trouble, disk }) : (diskOperation f).Ends w Q := by
  refine ends_operation hrefused fun trouble x w' hf => ?_
  cases hd : f { w with trouble } with
  | error e =>
    rw [hd] at hf
    cases hf
  | ok d =>
    rw [hd] at hf
    cases hf
    exact hdone trouble d hd

theorem Within.ofDisk {disk : Disk} (h : Frame touched w.disk disk)
    (trouble : List (Option SystemError)) : Within touched w { w with trouble, disk } :=
  ⟨h, rfl, rfl, rfl, Nat.le_refl _, rfl⟩

theorem ends_readBytes (touched : Location → Prop) : (readBytes p).Ends w fun r w' =>
    Within touched w w' ∧ w'.disk = w.disk ∧
      ∀ content, r = .ok content → w.disk.read (w.absolute p) = .ok content := by
  refine ends_operation (fun e trouble => ⟨.ofTrouble w trouble, rfl, nofun⟩) ?_
  intro trouble x w' hf
  change (w.disk.read (w.absolute p)).map (·, { w with trouble }) = _ at hf
  cases hread : w.disk.read (w.absolute p) with
  | error e =>
    rw [hread] at hf
    cases hf
  | ok content =>
    rw [hread] at hf
    cases hf
    refine ⟨.ofTrouble w trouble, rfl, fun c hc => ?_⟩
    cases hc
    rfl

/-- Reading a text changes nothing but what the system says to operations. -/
theorem ends_readText : (readText p).Ends w fun r w' => (∃ trouble, w' = { w with trouble }) ∧
    ∀ text, r = .ok text → w.disk.readText (w.absolute p) = .ok text := by
  refine ends_operation (fun e trouble => ⟨⟨trouble, rfl⟩, nofun⟩) ?_
  intro trouble x w' hf
  change (w.disk.readText (w.absolute p)).map (·, { w with trouble }) = _ at hf
  cases hread : w.disk.readText (w.absolute p) with
  | error e =>
    rw [hread] at hf
    cases hf
  | ok text =>
    rw [hread] at hf
    cases hf
    exact ⟨⟨trouble, rfl⟩, fun c hc => by rw [Except.ok.inj hc]⟩

theorem ends_makeDirectories (touched : Location → Prop) :
    (makeDirectories p).Ends w fun _ w' => Within touched w w' := by
  refine ends_diskOperation (fun e trouble => .ofTrouble w trouble) fun trouble d hd => ?_
  refine .ofDisk ?_ trouble
  dsimp only at hd
  split at hd
  · cases hd
    exact Frame.refl _
  · exact Disk.frame_makeDirectories hd

theorem ends_createNew {content : ByteArray}
    (h : ∀ l, w.disk.locate (w.absolute p) false = .ok l → touched l) :
    (createNew p content).Ends w fun _ w' => Within touched w w' := by
  refine ends_diskOperation (fun e trouble => .ofTrouble w trouble) fun trouble d hd => ?_
  obtain ⟨l, hl, hnone, rfl⟩ := Disk.create_eq_ok hd
  have hne : l ≠ [] := by
    rintro rfl
    cases hnone
  refine .ofDisk ((Frame.put_file hne ?_ content _ _).mono ?_) trouble
  · rw [hnone]
    exact nofun
  · rintro _ rfl
    exact h _ hl

theorem ends_removeFile (h : ∀ l, w.disk.locate (w.absolute p) false = .ok l → touched l) :
    (removeFile p).Ends w fun _ w' => Within touched w w' := by
  refine ends_diskOperation (fun e trouble => .ofTrouble w trouble) fun trouble d hd => ?_
  obtain ⟨l, e, hl, he, hdir, rfl⟩ := Disk.remove_eq_ok hd
  have hdir' : w.disk.at? l ≠ some .directory := by
    rw [he]
    exact fun heq => hdir (Option.some.inj heq)
  have hne : l ≠ [] := by
    rintro rfl
    exact hdir' rfl
  refine .ofDisk ((Frame.erase hne hdir').mono ?_) trouble
  rintro _ rfl
  exact h _ hl

end Operations

theorem ends_readClock_bind {ε β : Type} {f : Timestamp → Act ε β}
    {Q : Except ε β → World → Prop}
    (h : (f (w.clock w.readings)).Ends { w with readings := w.readings + 1 } Q) :
    (readClock >>= f).Ends w Q := by
  rw [Act.ends_iff] at h ⊢
  exact h

theorem ends_drawId_bind {ε β : Type} {f : Uid → Act ε β} {Q : Except ε β → World → Prop}
    (h : (f (w.ids w.drawn)).Ends { w with drawn := w.drawn + 1 } Q) :
    (drawId >>= f).Ends w Q := by
  rw [Act.ends_iff] at h ⊢
  exact h

theorem ends_sleep (touched : Location → Prop) {ε : Type} {ms : Nat} :
    (sleep ms : Act ε Unit).Ends w fun _ w' => Within touched w w' :=
  Act.ends_iff.mpr ⟨Frame.refl w.disk, rfl, rfl, rfl, Nat.le_refl _, rfl⟩

/-! ## Writing in one step -/

section Write

variable {target : Path} {content : ByteArray}

/-- What a path leads to once directories have been created. -/
def MayLead (w : World) (target : Path) (l : Location) : Prop :=
  ∃ d, Frame (fun _ => False) w.disk d ∧ d.locate (w.absolute target) false = .ok l

/-- A world in which a file was written where its path leads. -/
def Written (w : World) (target : Path) (content : ByteArray) (w' : World) : Prop :=
  ∃ l mode modified, w.MayLead target l ∧ Within (· = l) w w' ∧
    w'.disk.at? l = some (.file content mode modified)

/-- Where nothing is touched, a path that leads to a file still does. -/
theorem Within.stat_file (h : Within (fun _ => False) w w') {p : Path} {mode modified : Nat}
    (hstat : w.stat p = .ok (.file content mode modified)) :
    w'.stat p = .ok (.file content mode modified) := by
  obtain ⟨l, hl, hat⟩ := Disk.stat_eq_ok_iff.mp hstat
  obtain ⟨-, -, -, hkind⟩ := Disk.locate_eq_ok_iff.mp hl
  have hplain : Disk.meansDirectory (w.absolute p) = false :=
    Bool.eq_false_iff.mpr fun hmeans => hkind hmeans content mode modified hat
  rw [World.stat, h.absolute]
  exact Disk.stat_eq_ok_iff.mpr
    ⟨l, (h.frame.locate hl (fun _ _ => id) (Or.inl hplain)).1, h.frame.eq_of_some id hat⟩

/-- A file is put where its path leads once the directories above it are there, or nothing is
written.  Its permission bits stay. -/
theorem ends_writeFile_puts : (writeFile target content).Ends w fun r w' =>
    match r with
    | .ok _ => ∃ v l mode modified, Within (fun _ => False) w v ∧
        v.disk.locate (v.absolute target) false = .ok l ∧ v.disk.at? l ≠ some .directory ∧
        w' = { v with disk := v.disk.put l (.file content mode modified) } ∧
        ∀ old oldMode time, w.stat target = .ok (.file old oldMode time) → mode = oldMode
    | .error _ => Within (fun _ => False) w w' := by
  rw [writeFile]
  cases hparent : target.parent? with
  | none => exact Act.ends_throw (.refl w)
  | some dir =>
    dsimp only
    generalize (if dir.text = "" then Path.mk "." else dir) = dir
    refine (ends_makeDirectories fun _ => False).mapError.bind (fun _ w₁ h₁ => ?_) ?_
    · have hrefused : (operation fun w => .ok ((), w)).Ends w₁ fun _ w' =>
          Within (fun _ => False) w w' := by
        refine ends_operation (fun e trouble => h₁.trans (.ofTrouble w₁ trouble)) ?_
        rintro trouble x w' hw'
        cases hw'
        exact h₁.trans (.ofTrouble w₁ trouble)
      refine hrefused.mapError.bind (fun _ w₂ h₂ => ?_) ?_
      · have hreplaced : (diskOperation fun w => w.disk.replace (w.absolute target) content
            (w.keptMode target) w.now).Ends w₂ fun r w' =>
              match r with
              | .ok _ => ∃ v l mode modified, Within (fun _ => False) w v ∧
                  v.disk.locate (v.absolute target) false = .ok l ∧
                  v.disk.at? l ≠ some .directory ∧
                  w' = { v with disk := v.disk.put l (.file content mode modified) } ∧
                  ∀ old oldMode time, w.stat target = .ok (.file old oldMode time) →
                    mode = oldMode
              | .error _ => Within (fun _ => False) w w' := by
          refine ends_diskOperation (fun e trouble => h₂.trans (.ofTrouble w₂ trouble)) ?_
          intro trouble d hd
          obtain ⟨l, hl, hdir, rfl⟩ := Disk.replace_eq_ok hd
          have hthere := h₂.trans (.ofTrouble w₂ trouble)
          refine ⟨{ w₂ with trouble }, l, _, _, hthere, hl, hdir, rfl, ?_⟩
          intro old oldMode time hstat
          rw [keptMode, hthere.stat_file hstat]
        refine hreplaced.mapError.mono fun r w' h => ?_
        cases r with
        | ok x => exact h
        | error e =>
          obtain ⟨_, _, hnothing⟩ := h
          exact hnothing
      · rintro e w' ⟨-, -, h⟩
        exact h
    · rintro e w' ⟨-, -, h⟩
      exact h

/-- A file is written where its path leads or not at all. Its permission bits stay. -/
theorem ends_writeFile_keepsMode : (writeFile target content).Ends w fun r w' =>
    match r with
    | .ok _ => ∃ l mode modified, w.MayLead target l ∧ Within (· = l) w w' ∧
        w'.disk.at? l = some (.file content mode modified) ∧
        ∀ old oldMode time, w.stat target = .ok (.file old oldMode time) → mode = oldMode
    | .error _ => Within (fun _ => False) w w' := by
  refine ends_writeFile_puts.mono ?_
  rintro (e | _) w' hw'
  · exact hw'
  · obtain ⟨v, l, mode, modified, hv, hl, hdir, rfl, hmode⟩ := hw'
    have hne : l ≠ [] := by
      rintro rfl
      exact hdir rfl
    have hput := Frame.put_file hne hdir content mode modified
    refine ⟨l, mode, modified, ⟨v.disk, hv.frame, ?_⟩, ?_, Disk.at?_put_self _ _ _ hne, hmode⟩
    · rw [← hv.absolute]
      exact hl
    · exact (hv.mono fun _ => False.elim).trans (Within.ofDisk hput v.trouble)

theorem ends_writeFile : (writeFile target content).Ends w fun r w' =>
    match r with
    | .ok _ => w.Written target content w'
    | .error _ => Within (fun _ => False) w w' := by
  refine ends_writeFile_keepsMode.mono ?_
  rintro (e | _) w' hw'
  · exact hw'
  · obtain ⟨l, mode, modified, hlead, hwithin, hat, -⟩ := hw'
    exact ⟨l, mode, modified, hlead, hwithin, hat⟩

end Write

/-! ## Where the system refuses nothing -/

theorem yields_operation {α : Type} {f : World → Except SystemError (α × World)}
    {P : α → World → Prop} (h : w.trouble = []) {x : α} {w' : World} (hf : f w = .ok (x, w'))
    (hP : P x w') : (operation f).Yields w P := by
  have hw : { w with trouble := [] } = w := by
    rw [← h]
  rw [Act.Yields, Act.ends_iff, operation, Act.apply, Act.ofFun, h]
  dsimp only [List.tail_nil]
  rw [hw, hf]
  exact ⟨x, rfl, hP⟩

/-- What cannot be done is not done, and nothing changes. -/
theorem ends_operation_of_error {α : Type} {f : World → Except SystemError (α × World)}
    {Q : Except SystemError α → World → Prop} (h : w.trouble = []) {e : SystemError}
    (hf : f w = .error e) (hQ : Q (.error e) w) : (operation f).Ends w Q := by
  have hw : { w with trouble := [] } = w := by
    rw [← h]
  rw [Act.ends_iff, operation, Act.apply, Act.ofFun, h]
  dsimp only [List.tail_nil]
  rw [hw, hf]
  exact hQ

theorem yields_diskOperation {f : World → Except SystemError Disk} {P : Unit → World → Prop}
    (h : w.trouble = []) {d : Disk} (hf : f w = .ok d) (hP : P () { w with disk := d }) :
    (diskOperation f).Yields w P := by
  refine yields_operation h ?_ hP
  rw [hf]
  rfl

/-- A change of the disk is made if it can be. -/
theorem ends_diskOperation_of_quiet {f : World → Except SystemError Disk}
    {Q : Except SystemError Unit → World → Prop} (h : w.trouble = [])
    (hdone : ∀ d, f w = .ok d → Q (.ok ()) { w with disk := d })
    (hrefused : ∀ e, f w = .error e → Q (.error e) w) : (diskOperation f).Ends w Q := by
  cases hf : f w with
  | ok d =>
    have hyields : (diskOperation f).Yields w fun x w' => Q (.ok x) w' :=
      yields_diskOperation h hf (hdone d hf)
    refine Act.Ends.mono hyields ?_
    rintro _ w' ⟨_, rfl, hQ⟩
    exact hQ
  | error e =>
    refine ends_operation_of_error h ?_ (hrefused e hf)
    rw [hf]
    rfl

theorem yields_readBytes {p : Path} {content : ByteArray} (h : w.trouble = [])
    (hread : w.disk.read (w.absolute p) = .ok content) :
    (readBytes p).Yields w fun bytes w' => bytes = content ∧ w' = w := by
  refine yields_operation h ?_ ⟨rfl, rfl⟩
  rw [hread]
  rfl

/-- What is read is what is there. -/
theorem ends_readBytes_of_quiet {p : Path} (h : w.trouble = []) : (readBytes p).Ends w fun r w' =>
    r = w.disk.read (w.absolute p) ∧ w' = w := by
  cases hread : w.disk.read (w.absolute p) with
  | ok content =>
    refine Act.Ends.mono (yields_readBytes h hread) ?_
    rintro _ w' ⟨_, rfl, rfl, hw'⟩
    exact ⟨rfl, hw'⟩
  | error e =>
    refine ends_operation_of_error h ?_ ⟨rfl, rfl⟩
    rw [hread]
    rfl

theorem yields_readText {p : Path} {text : String} (h : w.trouble = [])
    (hread : w.disk.readText (w.absolute p) = .ok text) :
    (readText p).Yields w fun t w' => t = text ∧ w' = w := by
  refine yields_operation h ?_ ⟨rfl, rfl⟩
  rw [hread]
  rfl

/-- Directories that are there need not be created. -/
theorem yields_makeDirectories {p : Path} {l : Location} (h : w.trouble = [])
    (hentry : w.disk.locate (w.absolute p) false = .ok l)
    (hl : w.disk.locate (w.absolute p) = .ok l) (hdirectory : w.disk.at? l = some .directory) :
    (makeDirectories p).Yields w fun _ w' => w' = w := by
  refine yields_diskOperation h ?_ rfl
  split
  · rfl
  · exact Disk.makeDirectories_of_directory hentry hl hdirectory

end World

end Amend
