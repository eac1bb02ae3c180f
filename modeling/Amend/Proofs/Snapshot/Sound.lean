import Amend.Proofs.Snapshot.Protection
import Amend.Proofs.Snapshot.Quiet

/-!
# The index and the copies agree

Each operation of a store changes the index and the copies one after the other.  In between there
may be a copy that no snapshot of the index has, never the other way round; and as long as the
system itself refuses nothing, such a copy is gone when the operation ends, whether it succeeds or
not.
-/

namespace Amend

open Disk (Frame)
open Path (IsName)
open World (Within)
open FileLocks (Region Under)

namespace SnapshotIndex

variable {i : SnapshotIndex} {t : Snapshot} {id : Uid}

/-- The numbers of the snapshots go up along the index, below the next one. -/
structure IsNumbered (i : SnapshotIndex) : Prop where
  ascending : i.snapshots.Pairwise fun a b => a.sequence < b.sequence
  below : ∀ t ∈ i.snapshots, t.sequence < i.nextSequence

/-- Only snapshots of the index count as put back. -/
def MarksOwn (i : SnapshotIndex) : Prop := ∀ m ∈ i.restored, ∃ t ∈ i.snapshots, t.id = m.1

theorem isNumbered_empty : empty.IsNumbered := ⟨.nil, nofun⟩

theorem marksOwn_empty : empty.MarksOwn := nofun

/-- Numbers do not start again from 0 before all words have been used up. -/
theorem nextSequence_add (h : i.nextSequence + 1 < MachineWord.card) (t : Snapshot) :
    (i.add t).nextSequence = i.nextSequence + 1 := Nat.mod_eq_of_lt h

theorem IsNumbered.add (h : i.IsNumbered) (ht : t.sequence = i.nextSequence)
    (hroom : i.nextSequence + 1 < MachineWord.card) : (i.add t).IsNumbered where
  ascending := by
    refine List.pairwise_append.mpr ⟨h.ascending, List.pairwise_singleton _ t, fun u hu v hv => ?_⟩
    rw [List.mem_singleton.mp hv, ht]
    exact h.below u hu
  below := by
    intro u hu
    rw [nextSequence_add hroom]
    rcases List.mem_append.mp hu with hu | hu
    · exact Nat.lt_succ_of_lt (h.below u hu)
    · rw [List.mem_singleton.mp hu, ht]
      exact Nat.lt_succ_self _

theorem IsNumbered.drop (h : i.IsNumbered) (id : Uid) : (i.drop id).IsNumbered where
  ascending := h.ascending.sublist List.eraseP_sublist
  below := fun t ht => h.below t (List.mem_of_mem_eraseP ht)

theorem MarksOwn.add (h : i.MarksOwn) (t : Snapshot) : (i.add t).MarksOwn := by
  intro m hm
  obtain ⟨u, hu, hid⟩ := h m hm
  exact ⟨u, List.mem_append_left _ hu, hid⟩

theorem MarksOwn.drop (h : i.MarksOwn) (id : Uid) : (i.drop id).MarksOwn := by
  intro m hm
  obtain ⟨hm, hne⟩ := List.mem_filter.mp hm
  obtain ⟨t, ht, hid⟩ := h m hm
  refine ⟨t, (List.mem_eraseP_of_neg ?_).mpr ht, hid⟩
  rw [hid]
  simpa using hne

theorem MarksOwn.mark (h : i.MarksOwn) (ht : t ∈ i.snapshots) (at_ : Timestamp) :
    (i.mark t.id at_).MarksOwn := by
  intro m hm
  rcases mem_insertMark hm with rfl | hm
  · exact ⟨t, ht, rfl⟩
  · exact h m hm

end SnapshotIndex

namespace SnapshotStore

/-! ## What holds between two operations -/

/-- A store whose snapshots have copies with the checksum and the size that they tell of. -/
def measuredCustody (s : SnapshotStore) (base : Location) : Custody :=
  { s.custody base with
    fact := fun t content => Digest.blake3 content = t.checksum ∧
      t.size = MachineWord.wrap content.size }

/-- A name in the directory that is that of the copy of a snapshot. -/
def Names (s : SnapshotStore) (i : SnapshotIndex) (name : String) : Prop :=
  IsCopyName name ∧ ∃ t ∈ i.snapshots, t.location = s.dir ++ name

/-- A store in which the index and the copies agree, but for files of some names that are in the
directory without a snapshot.  The system refuses nothing. -/
structure Sound (s : SnapshotStore) (base : Location) (spare : List String) (w : World)
    (i : SnapshotIndex) : Prop where
  kept : (s.measuredCustody base).Kept w i
  trouble : w.trouble = []
  numbered : w.drawn < MachineWord.card → i.nextSequence ≤ w.drawn ∧ i.IsNumbered
  marks : i.MarksOwn
  owned : ∀ name content mode modified,
    w.disk.at? (base ++ [name]) = some (.file content mode modified) →
      name = "index.json" ∨ name ∈ spare ∨ s.Names i name

variable {s : SnapshotStore} {base : Location} {spare more : List String} {w w' v : World}
  {i j : SnapshotIndex} {t : Snapshot} {name : String}

theorem Sound.under (h : s.Sound base spare w i) : s.locks.Under s.dir base w := h.kept.under

/-- What is written or removed must be spare if it is right in the directory. -/
theorem Sound.within (h : s.Sound base spare w i) {touched : Location → Prop}
    (hw : Within touched w w') (hkept : (s.measuredCustody base).Kept w' i)
    (htrouble : w'.trouble = [])
    (hmore : ∀ name, touched (base ++ [name]) ∨ name ∈ spare → name ∈ more) :
    s.Sound base more w' i where
  kept := hkept
  trouble := htrouble
  numbered := by
    intro hdrawn
    obtain ⟨hnext, hnumbered⟩ := h.numbered (Nat.lt_of_le_of_lt hw.drawn hdrawn)
    exact ⟨Nat.le_trans hnext hw.drawn, hnumbered⟩
  marks := h.marks
  owned := by
    intro name content mode modified hat
    by_cases htouched : touched (base ++ [name])
    · exact Or.inr (Or.inl (hmore name (Or.inl htouched)))
    · have hat₀ := hw.frame.file_of_file htouched hat
      rcases h.owned name content mode modified hat₀ with hname | hname
      · exact Or.inl hname
      · exact Or.inr (hname.imp_left fun hspare => hmore name (Or.inr hspare))

theorem not_region_concat (base : Location) (name : String) : ¬ Region base (base ++ [name]) :=
  fun h => ne_concat_of_region h name rfl

theorem Sound.region (h : s.Sound base spare w i) (hw : Within (Region base) w w')
    (htrouble : w'.trouble = []) : s.Sound base spare w' i := by
  refine h.within hw (h.kept.within_region hw) htrouble fun name hname => ?_
  exact hname.resolve_left (not_region_concat base name)

theorem not_region_or_index (hname : name ≠ "index.json") :
    ¬ (Region base (base ++ [name]) ∨ base ++ [name] = indexLocation base) := by
  rintro (hregion | heq)
  · exact not_region_concat base name hregion
  · have hnames : [name] = ["index.json"] := List.append_cancel_left heq
    exact hname (List.cons.inj hnames).1

/-- Another index may be written if it accounts for all the copies. -/
theorem Sound.reindexed (h : s.Sound base spare w i) (hv : Within (Region base) w v)
    (hw : Custody.Reindexed base v j w') (hkept : (s.measuredCustody base).Kept w' j)
    (htrouble : w'.trouble = [])
    (hnumbered : w'.drawn < MachineWord.card → j.nextSequence ≤ w'.drawn ∧ j.IsNumbered)
    (hmarks : j.MarksOwn)
    (howned : ∀ name, name ∈ spare ∨ s.Names i name → name ∈ more ∨ s.Names j name) :
    s.Sound base more w' j where
  kept := hkept
  trouble := htrouble
  numbered := hnumbered
  marks := hmarks
  owned := by
    intro name content mode modified hat
    by_cases hindex : name = "index.json"
    · exact Or.inl hindex
    · have hold := h.owned name content mode modified (hv.frame.file_of_file
        (not_region_concat base name)
        (hw.within.frame.file_of_file (not_region_or_index hindex) hat))
      exact Or.inr (howned name (hold.resolve_left hindex))

/-! ## Single steps -/

/-- A change of the index succeeds and is written, or the store is as it was. -/
theorem Sound.updateIndex {α : Type} {f : SnapshotIndex → Act SnapshotError (α × SnapshotIndex)}
    {P : α → SnapshotIndex → World → Prop} {Q : Except SnapshotError α → World → Prop}
    (h : s.Sound base spare w i) (hquiet : ∀ i, (f i).Quiet)
    (hf : ∀ w₁, Within (Region base) w w₁ → (f i).Ends w₁ fun r w₂ =>
      Within (Region base) w w₂ ∧ ∀ a j, r = .ok (a, j) → P a j w₂)
    (hdone : ∀ a j v w', P a j v → Within (Region base) w v → Custody.Reindexed base v j w' →
      w'.trouble = [] → Q (.ok a) w')
    (hrefused : ∀ e w', s.Sound base spare w' i → Within (Region base) w w' → Q (.error e) w') :
    (s.updateIndex f).Ends w Q := by
  refine ((h.kept.updateIndex hf).and (s.quiet_updateIndex hquiet w h.trouble)).mono ?_
  rintro (e | a) w' ⟨hw', htrouble⟩
  · exact hrefused e w' (h.region hw' htrouble) hw'
  · obtain ⟨j, w₂, hP, h₂, hreindexed⟩ := hw'
    exact hdone a j w₂ w' hP h₂ hreindexed htrouble

/-- A copy without a snapshot is removed for certain. -/
theorem Sound.removeCopy (h : s.Sound base [name] w i) (hname : IsCopyName name) (hfits : Fits name)
    (hspare : IsSpare s.dir base i.snapshots (base ++ [name])) {content : ByteArray}
    {mode modified : Nat}
    (hat : w.disk.at? (base ++ [name]) = some (.file content mode modified)) :
    (SnapshotStore.removeCopy (s.dir ++ name)).Ends w fun _ w' => s.Sound base [] w' i := by
  have hlocate : w.disk.locate (w.absolute (s.dir ++ name)) false = .ok (base ++ [name]) :=
    (h.kept.under.locate_name hname.isName).mpr ⟨rfl, hfits⟩
  have hne : base ++ [name] ≠ [] := by simp
  have hnotdir : w.disk.at? (base ++ [name]) ≠ some .directory := by
    rw [hat]
    exact nofun
  have herased : Within (· = base ++ [name]) w
      { w with disk := w.disk.erase (base ++ [name]) } :=
    ⟨Frame.erase hne hnotdir, rfl, rfl, rfl, Nat.le_refl _, rfl⟩
  have hkept := h.kept.within herased (by rintro _ rfl; exact List.prefix_append base [name])
    (by rintro _ rfl; exact hspare)
  have hremove : (World.removeFile (s.dir ++ name)).Yields w fun _ w' =>
      w' = { w with disk := w.disk.erase (base ++ [name]) } :=
    World.yields_diskOperation h.trouble (Disk.remove_of_file hlocate hat) rfl
  rw [SnapshotStore.removeCopy]
  refine hremove.outcome.bind_ends ?_
  rintro _ w' ⟨_, rfl, rfl⟩
  refine Act.ends_pure ⟨hkept, h.trouble, h.numbered, h.marks, fun other bytes m time hother => ?_⟩
  have hsame : other ≠ name := by
    rintro rfl
    rw [Disk.at?_erase_self _ _ hne] at hother
    cases hother
  have hat' := herased.frame.file_of_file
    (fun heq => hsame (List.cons.inj (List.append_cancel_left heq)).1) hother
  rcases h.owned other bytes m time hat' with hindex | hspare | hcopy
  · exact Or.inl hindex
  · exact absurd (List.mem_singleton.mp hspare) hsame
  · exact Or.inr (Or.inr hcopy)

/-- A copy gets its snapshot, or stays spare. -/
theorem Sound.enter (h : s.Sound base [name] w i) (hname : IsCopyName name) (hfits : Fits name)
    (hspare : IsSpare s.dir base i.snapshots (base ++ [name])) {source : Path}
    {content : ByteArray} {mode modified : Nat} {createdAt : Timestamp}
    (hcreated : createdAt.IsReading)
    (hat : w.disk.at? (base ++ [name]) = some (.file content mode modified)) :
    (s.updateIndex fun index => do
      let snapshot : Snapshot :=
        { id := ← World.drawId, source, location := s.dir ++ name
          checksum := Digest.blake3 content, createdAt
          size := MachineWord.wrap content.size, sequence := index.nextSequence }
      return (snapshot, index.add snapshot)).Ends w fun r w' =>
        match r with
        | .ok _ => ∃ j, s.Sound base [] w' j
        | .error _ => s.Sound base [name] w' i ∧ Within (Region base) w w' := by
  have hquiet (index : SnapshotIndex) : (do
      let snapshot : Snapshot :=
        { id := ← World.drawId, source, location := s.dir ++ name
          checksum := Digest.blake3 content, createdAt
          size := MachineWord.wrap content.size, sequence := index.nextSequence }
      return (snapshot, index.add snapshot) : Act SnapshotError _).Quiet :=
    World.quiet_drawId.bind fun _ => Act.quiet_pure _
  refine ((h.kept.addEntry hcreated).and (s.quiet_updateIndex hquiet w h.trouble)).mono ?_
  rintro (e | t) w' ⟨hw', htrouble⟩
  · exact ⟨h.region hw' htrouble, hw'⟩
  · obtain ⟨w₂, hentry, h₂, hreindexed⟩ := hw'
    have hcopy : t.HasCopy s.dir base content w₂.disk :=
      ⟨name, mode, modified, hname, hfits, hentry.location,
        h₂.frame.eq_of_some (not_region_concat base name) hat⟩
    have hkept := (h.kept.within_region h₂).add hreindexed hentry.valid
      ⟨content, hcopy, hentry.checksum.symm, hentry.size⟩ fun u hu heq => by
        rw [hentry.location] at heq
        exact hspare.ne_copy u hu name hname.isName heq rfl
    have hdrawn : w.drawn < w'.drawn := by
      obtain ⟨n, hn, hn', -⟩ := hentry.drawn
      exact Nat.lt_of_le_of_lt hn (Nat.lt_of_lt_of_le hn' hreindexed.within.drawn)
    refine ⟨_, h.reindexed h₂ hreindexed hkept htrouble (fun hroom => ?_) (h.marks.add t)
      fun other hother => Or.inr ?_⟩
    · obtain ⟨hnext, hnumbered⟩ := h.numbered (Nat.lt_trans hdrawn hroom)
      have hroom' : i.nextSequence + 1 < MachineWord.card :=
        Nat.lt_of_le_of_lt (Nat.succ_le_of_lt (Nat.lt_of_le_of_lt hnext hdrawn)) hroom
      refine ⟨?_, hnumbered.add hentry.sequence hroom'⟩
      rw [SnapshotIndex.nextSequence_add hroom']
      exact Nat.succ_le_of_lt (Nat.lt_of_le_of_lt hnext hdrawn)
    · rcases hother with hother | ⟨hcopy, u, hu, hlocation⟩
      · rw [List.mem_singleton.mp hother]
        exact ⟨hname, t, List.mem_append_right _ (List.mem_singleton_self t), hentry.location⟩
      · exact ⟨hcopy, u, List.mem_append_left _ hu, hlocation⟩

/-! ## Whole operations -/

/-- An action that leaves the index and the copies in agreement. -/
def Stays {ε α : Type} (s : SnapshotStore) (base : Location) (a : Act ε α) : Prop :=
  ∀ w i, s.Sound base [] w i → a.Ends w fun _ w' => ∃ j, s.Sound base [] w' j

section Stays

variable {ε ε' α β : Type}

theorem stays_iff {a : Act ε α} :
    s.Stays base a ↔ a.Keeps fun w => ∃ i, s.Sound base [] w i :=
  ⟨fun h w ⟨i, hi⟩ => h w i hi, fun h w i hi => h w ⟨i, hi⟩⟩

theorem stays_pure (x : α) : s.Stays base (pure x : Act ε α) := stays_iff.mpr (Act.keeps_pure x)

theorem stays_throw (e : ε) : s.Stays base (throw e : Act ε α) := stays_iff.mpr (Act.keeps_throw e)

theorem stays_look (f : World → α) : s.Stays base (Act.look f : Act ε α) :=
  stays_iff.mpr (Act.keeps_look f)

theorem Stays.bind {a : Act ε α} {f : α → Act ε β} (h : s.Stays base a)
    (hf : ∀ x, s.Stays base (f x)) : s.Stays base (a >>= f) :=
  stays_iff.mpr ((stays_iff.mp h).bind fun x => stays_iff.mp (hf x))

theorem Stays.mapError {a : Act ε α} {f : ε → ε'} (h : s.Stays base a) :
    s.Stays base (a.mapError f) := stays_iff.mpr (stays_iff.mp h).mapError

theorem Stays.outcome {a : Act ε α} (h : s.Stays base a) :
    s.Stays base (a.outcome : Act ε' (Except ε α)) := stays_iff.mpr (stays_iff.mp h).outcome

theorem Stays.forM {f : α → Act ε Unit} (hf : ∀ x, s.Stays base (f x)) (xs : List α) :
    s.Stays base (xs.forM f) :=
  stays_iff.mpr (Act.Keeps.forM (fun x => stays_iff.mp (hf x)) xs)

/-- What touches no more than lock files and brings no trouble up changes nothing here. -/
theorem stays_of_region {a : Act ε α} (hquiet : a.Quiet)
    (ha : ∀ w i, s.Sound base [] w i → a.Ends w fun _ w' => Within (Region base) w w') :
    s.Stays base a := by
  intro w i h
  refine ((ha w i h).and (hquiet w h.trouble)).mono ?_
  rintro r w' ⟨hw', htrouble⟩
  exact ⟨i, h.region hw' htrouble⟩

theorem stays_readBytes (p : Path) : s.Stays base (World.readBytes p) :=
  stays_of_region (World.quiet_readBytes p) fun _ _ _ =>
    (World.ends_readBytes (Region base)).mono fun _ _ h => h.1

/-- Under a lock too, for lock files are nothing of the store. -/
theorem Stays.withLock {key : Path} {a : Act SnapshotError α} (ha : s.Stays base a) :
    s.Stays base (s.locks.withLock key a) := by
  intro w i h
  have hacquired : Within (Region base) w ((s.locks.acquire key).apply w).2 :=
    Act.ends_iff.mp h.kept.under.acquire
  have htrouble := Act.ends_iff.mp (FileLocks.stable_quiet.acquire s.locks key w h.trouble)
  rw [Act.ends_iff, FileLocks.withLock, Act.apply, Act.ofFun]
  split
  all_goals
    rename_i heq
    rw [heq] at hacquired htrouble
    have hsound := h.region hacquired htrouble
  · exact ⟨i, hsound⟩
  · obtain ⟨j, hdone⟩ := Act.ends_iff.mp (ha _ i hsound)
    exact ⟨j, hdone.region hdone.kept.under.release
      (FileLocks.stable_quiet.release s.locks key hdone.trouble)⟩

end Stays

/-! ### Dropping -/

theorem stays_index : s.Stays base s.index :=
  stays_of_region s.quiet_index fun _ _ h => h.kept.index.mono fun _ _ h => h.1

theorem stays_listFor (file : Path) : s.Stays base (s.listFor file) :=
  (stays_look _).bind fun _ => stays_index.bind fun _ => stays_pure _

theorem eq_or_mem_eraseP {α : Type} {p : α → Bool} {l : List α} {a b : α} (ha : l.find? p = some a)
    (hb : b ∈ l) : b = a ∨ b ∈ l.eraseP p := by
  induction l with
  | nil => cases hb
  | cons x l ih =>
    cases hp : p x with
    | true =>
      rw [List.find?_cons_of_pos hp] at ha
      cases ha
      rw [List.eraseP_cons_of_pos hp]
      exact List.mem_cons.mp hb
    | false =>
      have hp' : ¬ p x = true := by
        rw [hp]
        exact Bool.false_ne_true
      rw [List.find?_cons_of_neg hp'] at ha
      rw [List.eraseP_cons_of_neg hp']
      rcases List.mem_cons.mp hb with rfl | hb
      · exact Or.inr List.mem_cons_self
      · exact (ih ha hb).imp_right (List.mem_cons_of_mem x)

/-- The index is written first, then the copy that has become spare is removed. -/
theorem stays_delete (id : Uid) : s.Stays base (s.delete id) := by
  intro w i h
  refine (h.updateIndex (P := fun t j _ => i.find? id = some t ∧ j = i.drop id)
    (Q := fun r w' =>
      match r with
      | .ok t => ∃ name content mode modified, t.location = s.dir ++ name ∧ IsCopyName name ∧
          Fits name ∧ IsSpare s.dir base (i.drop id).snapshots (base ++ [name]) ∧
          w'.disk.at? (base ++ [name]) = some (.file content mode modified) ∧
          s.Sound base [name] w' (i.drop id)
      | .error _ => s.Sound base [] w' i) (fun i => ?_) (fun w₁ h₁ => ?_) ?_ ?_).bind ?_ ?_
  · split
    · exact Act.quiet_pure _
    · exact Act.quiet_throw _
  · cases ht : i.find? id with
    | none => exact Act.ends_throw ⟨h₁, nofun⟩
    | some t =>
      refine Act.ends_pure ⟨h₁, fun a j heq => ?_⟩
      cases heq
      exact ⟨rfl, rfl⟩
  · rintro t _ v w' ⟨ht, rfl⟩ hv hreindexed htrouble
    obtain ⟨content, hcopy, -⟩ := h.kept.copies t (SnapshotIndex.mem_of_find? ht).1
    obtain ⟨name, mode, modified, hname, hfits, hlocation, hat⟩ := hcopy
    have hkept := (h.kept.within_region hv).drop hreindexed fun _ _ hg => hg.elim
    refine ⟨name, content, mode, modified, hlocation, hname, hfits,
      h.kept.isSpare_of_drop ht hname hlocation,
      hreindexed.within.frame.eq_of_some (not_region_or_index hname.ne_index)
        (hv.frame.eq_of_some (not_region_concat base name) hat),
      h.reindexed hv hreindexed hkept htrouble (fun hroom => ?_) (h.marks.drop id)
        fun other hother => ?_⟩
    · have hdrawn := Nat.le_trans hv.drawn hreindexed.within.drawn
      obtain ⟨hnext, hnumbered⟩ := h.numbered (Nat.lt_of_le_of_lt hdrawn hroom)
      exact ⟨Nat.le_trans hnext hdrawn, hnumbered.drop id⟩
    · obtain ⟨hcopy, u, hu, hother⟩ := hother.resolve_left List.not_mem_nil
      rcases eq_or_mem_eraseP ht hu with rfl | hu
      · exact Or.inl (List.mem_singleton.mpr
          (Path.join_injective hcopy.isName s.dir hname.isName (hother.symm.trans hlocation)))
      · exact Or.inr ⟨hcopy, u, hu, hother⟩
  · intro e w' h' _
    exact h'
  · rintro t w' ⟨name, content, mode, modified, hlocation, hname, hfits, hspare, hat, h'⟩
    rw [hlocation]
    exact (h'.removeCopy hname hfits hspare hat).mono fun _ _ hdone => ⟨_, hdone⟩
  · intro e w' h'
    exact ⟨i, h'⟩

theorem stays_retain (file : Path) (keep : Nat) : s.Stays base (s.retain file keep) :=
  (stays_look _).bind fun _ => (stays_listFor file).bind fun _ =>
    (Stays.forM stays_delete _).bind fun _ => stays_pure _

/-! ### Taking snapshots -/

/-- The copy is made first, then the index is written; if it cannot be, the copy is removed. -/
theorem stays_record (source : Path) : s.Stays base (s.record source) := by
  refine Stays.withLock ((stays_readBytes source).mapError.bind fun content => ?_)
  intro w i h
  refine World.ends_readClock_bind (Act.ends_look_bind ?_)
  have h₁ : s.Sound base [] { w with readings := w.readings + 1 } i :=
    h.region ⟨Frame.refl _, rfl, rfl, rfl, Nat.le_refl _, rfl⟩ h.trouble
  obtain ⟨name, hname, heq, hfree⟩ := locationFor_eq h₁.under source (w.clock w.readings)
  rw [heq]
  refine (World.ends_writeFile.and (quiet_writeFile _ _ _ h₁.trouble)).mapError.bind ?_ ?_
  · rintro _ w₂ ⟨⟨l, mode, modified, hlead, hw, hat⟩, htrouble⟩
    obtain ⟨rfl, hfits, hspare⟩ := h₁.kept.isSpare_of_free hname hfree hlead
    have hkept := h₁.kept.within hw (by rintro _ rfl; exact List.prefix_append base [name])
      (by rintro _ rfl; exact hspare)
    have h₂ : s.Sound base [name] w₂ i := by
      refine h₁.within hw hkept htrouble ?_
      rintro other (heq | hother)
      · have hnames : [other] = [name] := List.append_cancel_left heq
        exact List.mem_singleton.mpr (List.cons.inj hnames).1
      · exact absurd hother List.not_mem_nil
    refine (h₂.enter hname hfits hspare (h.kept.clock _) hat).outcome.bind (fun r w₃ h₃ => ?_)
      fun e w₃ h₃ => h₃.elim
    cases r with
    | ok t => exact Act.ends_pure h₃
    | error e =>
      obtain ⟨h₃, hw₃⟩ := h₃
      have hat₃ := hw₃.frame.eq_of_some (not_region_concat base name) hat
      exact (h₃.removeCopy hname hfits hspare hat₃).outcome.bind
        (fun _ w₄ h₄ => Act.ends_throw ⟨i, h₄⟩) fun e w₄ h₄ => h₄.elim
  · rintro e w₂ ⟨_, -, h₂, htrouble⟩
    exact ⟨i, h₁.region (h₂.mono fun _ => False.elim) htrouble⟩

theorem stays_create (file : Path) : s.Stays base (s.create file) := by
  refine (stays_look _).bind fun source => (stays_look _).bind fun there => ?_
  split
  · exact (stays_record source).bind fun t => (stays_retain source s.kept).bind fun _ =>
      stays_pure t
  · exact stays_throw _

theorem stays_createMembers {seen : List Path} {taken : List Snapshot} (files : List Path) :
    s.Stays base (s.createMembers seen taken files) := by
  induction files generalizing seen taken with
  | nil => exact stays_pure taken
  | cons file files ih =>
    refine (stays_look _).bind fun key => ?_
    split
    · exact ih
    · refine (stays_create file).outcome.bind fun r => ?_
      cases r with
      | ok t => exact ih
      | error e =>
        have hgiveUp (t : Snapshot) : s.Stays base (do
            let _ ← (s.delete t.id).outcome : Act SnapshotError Unit) := by
          have hdelete : s.Stays base ((s.delete t.id).outcome : Act SnapshotError _) :=
            (stays_delete t.id).outcome
          exact hdelete.bind fun _ => stays_pure ()
        exact (Stays.forM hgiveUp taken).bind fun _ => stays_throw e

/-! ### Sets and marks -/

/-- A change of the index that leaves the snapshots as they are. -/
theorem Sound.remark (h : s.Sound base [] w i) {v : World} (hv : Within (Region base) w v)
    (hw : Custody.Reindexed base v j w') (hkept : (s.measuredCustody base).Kept w' j)
    (htrouble : w'.trouble = []) (hsnapshots : j.snapshots = i.snapshots)
    (hnext : j.nextSequence = i.nextSequence) (hmarks : j.MarksOwn) : s.Sound base [] w' j := by
  refine h.reindexed hv hw hkept htrouble (fun hroom => ?_) hmarks fun name hname => ?_
  · have hdrawn := Nat.le_trans hv.drawn hw.within.drawn
    obtain ⟨hle, hnumbered⟩ := h.numbered (Nat.lt_of_le_of_lt hdrawn hroom)
    rw [hnext]
    refine ⟨Nat.le_trans hle hdrawn, ⟨?_, ?_⟩⟩
    · rw [hsnapshots]
      exact hnumbered.ascending
    · rw [hsnapshots, hnext]
      exact hnumbered.below
  · rwa [Names, hsnapshots]

theorem stays_addSet {set : SnapshotSet} (hset : set.createdAt.IsReading) :
    s.Stays base (s.updateIndex fun index => return ((), index.addSet set)) := by
  intro w i h
  refine h.updateIndex (P := fun _ j _ => j = i.addSet set) (fun _ => Act.quiet_pure _)
    (fun w₁ h₁ => Act.ends_pure ⟨h₁, fun _ j heq => ?_⟩) ?_ fun e w' h' _ => ⟨i, h'⟩
  · cases heq
    rfl
  · rintro _ _ v w' rfl hv hreindexed htrouble
    have hkept := (h.kept.within_region hv).addSet hreindexed hset trivial
    exact ⟨_, h.remark hv hreindexed hkept htrouble rfl rfl h.marks⟩

theorem stays_markRestored (id : Uid) : s.Stays base (s.markRestored id) := by
  intro w i h
  refine h.updateIndex (P := fun _ j _ => ∃ t ∈ i.snapshots, ∃ at_ : Timestamp, at_.IsReading ∧
    j = i.mark t.id at_) (fun i => ?_) (fun w₁ h₁ => ?_) ?_ fun e w' h' _ => ⟨i, h'⟩
  · split
    · exact World.quiet_readClock.bind fun _ => Act.quiet_pure _
    · exact Act.quiet_throw _
  · cases ht : i.find? id with
    | none => exact Act.ends_throw ⟨h₁, nofun⟩
    | some t =>
      obtain ⟨hmem, rfl⟩ := SnapshotIndex.mem_of_find? ht
      refine World.ends_readClock_bind (Act.ends_pure ⟨?_, fun _ j heq => ?_⟩)
      · exact h₁.trans ⟨Frame.refl _, rfl, rfl, rfl, Nat.le_refl _, rfl⟩
      · cases heq
        refine ⟨t, hmem, _, ?_, rfl⟩
        rw [h₁.clock]
        exact h.kept.clock _
  · rintro _ _ v w' ⟨t, ht, at_, hat, rfl⟩ hv hreindexed htrouble
    have hkept := (h.kept.within_region hv).mark hreindexed hat
    exact ⟨_, h.remark hv hreindexed hkept htrouble rfl rfl (h.marks.mark ht at_)⟩

/-- Pins are in the memory of the process only. -/
theorem stays_repin {ε : Type} (f : World → List Uid) :
    s.Stays base (Act.change fun w => { w with pinned := f w } : Act ε Unit) :=
  fun _ i h => Act.ends_change ⟨i, { h with kept := h.kept.repin fun _ _ hg => hg.elim }⟩

theorem stays_createSet (files : List Path) : s.Stays base (s.createSet files) := by
  refine (stays_createMembers files).bind fun members => ?_
  intro w i h
  refine World.ends_drawId_bind (World.ends_readClock_bind ?_)
  have h₁ : s.Sound base [] { w with drawn := w.drawn + 1, readings := w.readings + 1 } i :=
    h.region ⟨Frame.refl _, rfl, rfl, rfl, Nat.le_succ _, rfl⟩ h.trouble
  have hset := h.kept.clock w.readings
  exact ((stays_addSet hset).bind fun _ => (stays_repin _).bind fun _ => stays_pure _) _ i h₁

theorem stays_releaseSet {ε : Type} (id : Uid) : s.Stays base (s.releaseSet id : Act ε Unit) := by
  have hget : s.Stays base (s.getSet id) := by
    refine stays_index.bind fun index => ?_
    split
    · exact stays_pure _
    · exact stays_throw _
  refine hget.outcome.bind fun r => ?_
  cases r with
  | ok set => exact stays_repin _
  | error e => exact stays_pure ()

/-! ### Putting back -/

theorem Sound.restore (h : s.Sound base [] w i) (hclear : (s.custody base).Clear w t.source) :
    (s.restore t).Ends w fun _ w' => s.Sound base [] w' i := by
  refine ((h.kept.restore (t := t) hclear).and (s.quiet_restore t w h.trouble)).mono ?_
  rintro r w' ⟨hback, htrouble⟩
  refine h.within hback.within hback.kept htrouble ?_
  rintro name ((hregion | htarget) | hname)
  · exact absurd hregion (not_region_concat base name)
  · exact absurd (List.prefix_append base [name]) (hclear _ htarget).1
  · exact hname

end SnapshotStore

end Amend
