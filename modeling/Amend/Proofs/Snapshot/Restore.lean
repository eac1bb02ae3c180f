import Amend.Proofs.Snapshot.Store

/-!
# Putting back and releasing

A snapshot that is put back changes one file.  As long as that file is neither in the directory of
the store nor a link on the way there, the store is found where it was and has what it had.
-/

namespace Amend

open Disk (Frame Plain)
open World (Within)
open FileLocks (Under Region)

namespace Custody

variable {c : Custody} {w w' : World} {i j : SnapshotIndex}

/-- Noting that a snapshot was put back. -/
theorem Kept.markRestored (h : c.Kept w i) (id : Uid) :
    (c.store.markRestored id).Ends w fun _ w' => c.Leads [] w i w' := by
  rw [SnapshotStore.markRestored]
  refine (h.updateIndex (P := fun _ j _ => ∃ t : Timestamp, t.IsReading ∧ j = i.mark id t)
    fun w₁ h₁ => ?_).mono ?_
  · cases i.find? id with
    | none => exact Act.ends_throw ⟨h₁, nofun⟩
    | some u =>
      refine World.ends_readClock_bind (Act.ends_pure ⟨?_, fun _ j heq => ?_⟩)
      · exact h₁.trans ⟨Frame.refl _, rfl, rfl, rfl, Nat.le_refl _, rfl⟩
      · cases heq
        refine ⟨_, ?_, rfl⟩
        rw [h₁.clock]
        exact h.clock _
  · rintro (e | _) w' hw'
    · exact h.leads_region hw'
    · obtain ⟨_, w₂, ⟨t, ht, rfl⟩, h₂, hreindexed⟩ := hw'
      have hkept := (h.within_region h₂).mark hreindexed ht
      exact ⟨(h₂.mono fun _ hl => hl.below).trans hreindexed.below, _, hkept, fun u hu => Or.inl hu⟩

theorem Kept.getSet (h : c.Kept w i) (id : Uid) : (c.store.getSet id).Ends w fun r w' =>
    Within (Region c.base) w w' ∧ ∀ u, r = .ok u → i.findSet? id = some u := by
  rw [SnapshotStore.getSet]
  refine h.ask (fun w₁ h₁ => ?_) fun e w₁ h₁ => ⟨h₁, nofun⟩
  cases hu : i.findSet? id with
  | none => exact Act.ends_throw ⟨h₁, nofun⟩
  | some u => exact Act.ends_pure ⟨h₁, fun v hv => congrArg some (Except.ok.inj hv)⟩

/-- Releasing a set that no guarded snapshot belongs to. -/
theorem Kept.releaseSet {ε : Type} (h : c.Kept w i) (id : Uid)
    (hset : ∀ u ∈ i.sets, u.id = id → ∀ t content, c.guarded t content → t.id ∉ u.members) :
    (c.store.releaseSet id : Act ε Unit).Ends w fun _ w' =>
      Within c.Below w { w' with pinned := w.pinned } ∧ c.Kept w' i := by
  rw [SnapshotStore.releaseSet]
  refine (h.getSet id).outcome.bind (fun r w₁ h₁ => ?_) fun e w₁ h₁ => h₁.elim
  obtain ⟨hw, hfound⟩ := h₁
  have hkept := h.within_region hw
  have hbelow : Within c.Below w { w₁ with pinned := w.pinned } :=
    { hw.mono fun _ hl => hl.below with pinned := rfl }
  cases r with
  | error e =>
    exact Act.ends_pure ⟨hbelow, hkept⟩
  | ok u =>
    have hu := hfound u rfl
    have hmem : u ∈ i.sets := List.mem_of_find?_eq_some hu
    have hid : u.id = id := by simpa using List.find?_some hu
    refine Act.ends_change ⟨hbelow, hkept.repin fun t content ht => ?_⟩
    refine List.mem_filter.mpr ⟨hkept.pinned t content ht, ?_⟩
    have hnot := hset u hmem hid t content ht
    simpa using hnot

/-! ## Putting back -/

/-- Where a path may lead when no more than the directory of the store has changed. -/
def Target (c : Custody) (w : World) (p : Path) (l : Location) : Prop :=
  ∃ d, Frame c.Below w.disk d ∧ d.locate (w.absolute p) false = .ok l

/-- A path that leads neither into the directory of the store nor to a link on the way there. -/
def Clear (c : Custody) (w : World) (p : Path) : Prop :=
  ∀ l, c.Target w p l → ¬ c.Below l ∧ l ∉ w.disk.linksTo (w.absolute c.store.dir)

/-- A path without links leads to one place. -/
theorem Target.eq_of_plain {p : Path} {l m : Location} (h : c.Target w p m)
    (hplain : Plain w.disk (w.absolute p) l) : m = l := by
  obtain ⟨d, hframe, hlocate⟩ := h
  exact (hplain.frame hframe).eq_of_locate hlocate

/-- A file outside the directory of the store that is reached without links is out of its way. -/
theorem clear_of_plain {p : Path} {l : Location} (hplain : Plain w.disk (w.absolute p) l)
    (hout : ¬ c.Below l) : c.Clear w p := by
  intro m hm
  obtain rfl := hm.eq_of_plain hplain
  refine ⟨hout, fun hlinks => ?_⟩
  obtain ⟨target, hlink⟩ := Disk.mem_linksTo hlinks
  exact hplain.linkFree m List.nil_prefix (List.prefix_refl _) target hlink

/-- What is neither in the directory of the store nor a link on the way there may change. -/
theorem Kept.within_clear (h : c.Kept w i) {l : Location} (hout : ¬ c.Below l)
    (hlink : l ∉ w.disk.linksTo (w.absolute c.store.dir)) (hw : Within (· = l) w w') :
    c.Kept w' i := by
  refine h.within_of_under hw ⟨?_, h.under.dir_eq⟩ ?_
  · rw [hw.absolute]
    refine h.under.tree.frame hw.frame ?_
    rintro m hm rfl
    exact hlink hm
  · rintro m rfl
    exact isSpare_of_not_below hout

/-- A wrong checksum ends the operation or counts for nothing. -/
theorem ends_mismatch {s : SnapshotStore} {path : Path} {expected actual : String}
    {Q : Except SnapshotError Unit → World → Prop} (hok : Q (.ok ()) w)
    (herror : Q (.error (.checksumMismatch path expected actual)) w) :
    (s.mismatch path expected actual).Ends w Q := by
  rw [SnapshotStore.mismatch]
  cases s.policy with
  | strict => exact Act.ends_throw herror
  | advisory => exact Act.ends_pure hok

theorem ends_checked {s : SnapshotStore} {path : Path} {expected actual : String}
    {rest : Act SnapshotError Unit} {Q : Except SnapshotError Unit → World → Prop} {p : Prop}
    [Decidable p] (hrest : rest.Ends w Q)
    (herror : Q (.error (.checksumMismatch path expected actual)) w) :
    (if p then do s.mismatch path expected actual; rest else rest).Ends w Q := by
  split
  · refine (ends_mismatch (Q := fun r w' => w' = w ∧
      ∀ e, r = .error e → e = .checksumMismatch path expected actual) ⟨rfl, nofun⟩ ?_).bind ?_ ?_
    · exact ⟨rfl, fun e he => (Except.error.inj he).symm⟩
    · rintro _ w' ⟨rfl, -⟩
      exact hrest
    · rintro e w' ⟨rfl, he⟩
      rw [he e rfl]
      exact herror
  · exact hrest

/-- What putting a snapshot back leads to: its file may be written, and nothing else but lock files.
When it succeeds, the file has the content of the copy. -/
structure PutBack (c : Custody) (w : World) (i : SnapshotIndex) (t : Snapshot)
    (r : Except SnapshotError Unit) (w' : World) : Prop where
  within : Within (fun m => Region c.base m ∨ c.Target w t.source m) w w'
  kept : c.Kept w' i
  content : ∀ content, r = .ok () → t.HasCopy c.store.dir c.base content w.disk →
    ∃ l mode modified, c.Target w t.source l ∧
      w'.disk.at? l = some (.file content mode modified)
  read : ∀ l, Plain w.disk (w.absolute t.source) l → ¬ c.Below l → r = .ok () →
    ∃ content, w'.disk.read (w'.absolute t.source) = .ok content

theorem within_target {t : Snapshot} {w₁ w₂ : World} (hw : Within (Region c.base) w₁ w₂) :
    Within (fun m => Region c.base m ∨ c.Target w t.source m) w₁ w₂ :=
  hw.mono fun _ => Or.inl

theorem Kept.putBack_refused (h : c.Kept w i) {t : Snapshot} (hw : Within (Region c.base) w w')
    (e : SnapshotError) : c.PutBack w i t (.error e) w' :=
  ⟨within_target hw, h.within_region hw, nofun, nofun⟩

/-- Lock files do not matter to a file that was put back. -/
theorem PutBack.region {t : Snapshot} {r : Except SnapshotError Unit} {w₁ w₂ : World}
    (h : c.PutBack w i t r w₁) (hclear : c.Clear w t.source)
    (hw : Within (Region c.base) w₁ w₂) : c.PutBack w i t r w₂ where
  within := h.within.trans (within_target hw)
  kept := h.kept.within_region hw
  content := by
    intro content hr hcopy
    obtain ⟨l, mode, modified, htarget, hat⟩ := h.content content hr hcopy
    refine ⟨l, mode, modified, htarget, hw.frame.eq_of_some (fun hl => ?_) hat⟩
    exact (hclear l htarget).1 hl.below
  read := by
    intro l hplain hout hr
    obtain ⟨content, hread⟩ := h.read l hplain hout hr
    refine ⟨content, hw.read hread (fun m hm hregion => ?_) fun m hm hregion => ?_⟩
    · have hplain₁ := hplain.frame h.within.frame
      rw [← h.within.absolute] at hplain₁
      obtain rfl := hplain₁.eq_of_locate hm
      exact hout hregion.below
    · obtain ⟨target, hlink⟩ := Disk.mem_linksTo hm
      exact h.kept.under.tree.noLinks m hregion.below target hlink

/-- Putting back a snapshot writes its file and nothing else but lock files. -/
theorem Kept.restore (h : c.Kept w i) {t : Snapshot} (hclear : c.Clear w t.source) :
    (c.store.restore t).Ends w fun r w' => c.PutBack w i t r w' := by
  rw [SnapshotStore.restore]
  refine h.under.withLock (P := fun r w' => c.PutBack w i t r w') (fun w₁ h₁ => ?_)
    (fun e w₁ h₁ => h.putBack_refused h₁ e)
    fun r w₂ h₂ => ⟨h₂.kept.under, fun w₃ h₃ => h₂.region hclear h₃⟩
  refine (World.ends_readBytes (Region c.base)).mapError.bind ?_ ?_
  · rintro bytes w₂ ⟨h₂, -, hread⟩
    have hbytes := hread bytes rfl
    have hw₂ := h₁.trans h₂
    have hkept := h.within_region hw₂
    refine ends_checked ?_ (h.putBack_refused hw₂ _)
    refine World.ends_writeFile.mapError.bind ?_ ?_
    · rintro _ w₃ ⟨m, mode, modified, ⟨d, hframe, hlocate⟩, h₃, hat⟩
      have htarget : c.Target w t.source m := by
        have hbelow := hw₂.frame.mono fun _ hl => hl.below
        refine ⟨d, hbelow.trans (hframe.mono fun _ => False.elim), ?_⟩
        rw [← hw₂.absolute]
        exact hlocate
      obtain ⟨hout, hlink⟩ := hclear m htarget
      have hlinks := h.under.linksTo_eq hw₂ fun _ hl => hl.below
      have hw₃ : Within (fun m => Region c.base m ∨ c.Target w t.source m) w w₃ :=
        (within_target hw₂).trans (h₃.mono fun _ hl => hl ▸ Or.inr htarget)
      have hwritten := hkept.within_clear hout (hlinks ▸ hlink) h₃
      have hcontent : ∀ content, t.HasCopy c.store.dir c.base content w.disk → content = bytes := by
        intro content hcopy
        have hcopy₁ := hcopy.frame h₁.frame (List.mem_singleton_self t) fun _ => isSpare_of_region
        have hread₁ := hcopy₁.read (h.within_region h₁).under
        rw [hbytes] at hread₁
        exact (Except.ok.inj hread₁).symm
      have hfailed {w₄ : World} (h₄ : Within (Region c.base) w₃ w₄) (e : SnapshotError) :
          c.PutBack w i t (.error e) w₄ :=
        ⟨hw₃.trans (within_target h₄), hwritten.within_region h₄, nofun, nofun⟩
      refine (World.ends_readBytes (Region c.base)).mapError.bind ?_ ?_
      · rintro written w₄ ⟨h₄, hdisk, hread⟩
        have hdone : c.PutBack w i t (.ok ()) w₄ := by
          refine ⟨hw₃.trans (within_target h₄), hwritten.within_region h₄, ?_, ?_⟩
          · intro content _ hcopy
            rw [hcontent content hcopy, hdisk]
            exact ⟨m, mode, modified, htarget, hat⟩
          · intro l _ _ _
            rw [hdisk, h₄.absolute]
            exact ⟨written, hread written rfl⟩
        dsimp only
        split
        · exact ends_mismatch hdone (hfailed h₄ _)
        · exact Act.ends_pure hdone
      · rintro e w₄ ⟨_, -, h₄, -⟩
        exact hfailed h₄ _
    · rintro e w₃ ⟨_, -, h₃⟩
      exact h.putBack_refused (hw₂.trans (h₃.mono fun _ => False.elim)) _
  · rintro e w₂ ⟨_, -, h₂, -⟩
    exact h.putBack_refused (h₁.trans h₂) _

end Custody

end Amend
