import Amend.Proofs.Snapshot.RoundTrip

/-!
# What a new snapshot has captured

Retention may drop a snapshot as soon as it is taken, where the clock goes back or no snapshot is
kept.  Even then no other bytes than those of the file are ever found where its copy was made:
dropping removes files, and writes none but the index.
-/

namespace Amend

open Disk (Plain)
open World (Within)
open FileLocks (Region)

namespace Custody

variable {c : Custody} {w w' w'' : World} {i j : SnapshotIndex}

/-! ## Dropping writes no copy -/

/-- No file has come right into the directory of the store, nor changed there, but the index. -/
def Sheds (c : Custody) (w w' : World) : Prop :=
  ∀ name content mode modified, name ≠ "index.json" →
    w'.disk.at? (c.base ++ [name]) = some (.file content mode modified) →
    w.disk.at? (c.base ++ [name]) = some (.file content mode modified)

theorem Sheds.trans (h : c.Sheds w w') (h' : c.Sheds w' w'') : c.Sheds w w'' :=
  fun name content mode modified hname hat =>
    h name content mode modified hname (h' name content mode modified hname hat)

theorem sheds_region (hw : Within (Region c.base) w w') : c.Sheds w w' :=
  fun name _ _ _ _ hat =>
    hw.frame.file_of_file (SnapshotStore.not_region_concat c.base name) hat

theorem Reindexed.sheds (h : Reindexed c.base w j w') : c.Sheds w w' :=
  fun _ _ _ _ hname hat =>
    h.within.frame.file_of_file (SnapshotStore.not_region_or_index hname) hat

theorem removeCopy_sheds (location : Path) :
    (SnapshotStore.removeCopy location).Ends w fun _ w' => c.Sheds w w' := by
  have hremove : (World.removeFile location).Ends w fun _ w' => c.Sheds w w' := by
    refine World.ends_diskOperation (fun _ _ _ _ _ _ _ hat => hat) fun trouble d hd => ?_
    obtain ⟨l, e, -, he, hdir, rfl⟩ := Disk.remove_eq_ok hd
    intro name content mode modified _ hat
    have hne : c.base ++ [name] ≠ l := by
      rintro rfl
      rw [Disk.at?_erase_self _ _ (List.concat_ne_nil _ _)] at hat
      cases hat
    rwa [Disk.at?_erase_of_ne _ hne] at hat
  rw [SnapshotStore.removeCopy]
  refine hremove.outcome.bind (fun r w₁ h₁ => ?_) fun e w₁ he => he.elim
  split
  · exact Act.ends_pure h₁
  · exact Act.ends_pure h₁
  · exact Act.ends_throw h₁

theorem Kept.delete_sheds (h : c.Kept w i) (id : Uid) :
    (c.store.delete id).Ends w fun _ w' => c.Sheds w w' := by
  rw [SnapshotStore.delete]
  refine (h.updateIndex (P := fun _ _ _ => True) fun w₁ h₁ => ?_).bind ?_
    fun _ _ h₁ => sheds_region h₁
  · cases i.find? id with
    | none => exact Act.ends_throw ⟨h₁, fun _ _ _ => trivial⟩
    | some t => exact Act.ends_pure ⟨h₁, fun _ _ _ => trivial⟩
  · rintro t w₁ ⟨_, w₂, -, h₂, hreindexed⟩
    have hearlier : c.Sheds w w₁ := (sheds_region h₂).trans hreindexed.sheds
    exact (removeCopy_sheds t.location).mono fun _ _ h₃ => hearlier.trans h₃

theorem Kept.deleteAll_sheds (h : c.Kept w i) (hfree : ∀ t content, ¬ c.guarded t content)
    (ids : List Uid) : (ids.forM c.store.delete).Ends w fun _ w' => c.Sheds w w' := by
  induction ids generalizing w i with
  | nil => exact Act.ends_pure fun _ _ _ _ _ hat => hat
  | cons id ids ih =>
    have hunguarded : ∀ t content, c.guarded t content → t.id ≠ id :=
      fun t content ht => absurd ht (hfree t content)
    refine ((h.delete hunguarded).and (h.delete_sheds id)).bind ?_ fun _ _ h₁ => h₁.2
    rintro _ w₁ ⟨⟨-, gone, _, -, hkept, -⟩, h₁⟩
    exact (ih hkept).mono fun _ _ h₂ => h₁.trans h₂

theorem Kept.retain_sheds (h : c.Kept w i) (hfree : ∀ t content, ¬ c.guarded t content)
    (file : Path) (keep : Nat) : (c.store.retain file keep).Ends w fun _ w' => c.Sheds w w' := by
  rw [SnapshotStore.retain]
  refine Act.ends_look_bind ((h.listFor file).bind ?_ fun _ _ h₁ => sheds_region h₁.1)
  rintro newest w₁ ⟨h₁, -⟩
  refine ((h.within_region h₁).deleteAll_sheds hfree _).bind ?_
    fun _ _ h₂ => (sheds_region h₁).trans h₂
  exact fun _ _ h₂ => Act.ends_pure ((sheds_region h₁).trans h₂)

end Custody

namespace SnapshotStore

variable {s : SnapshotStore} {base : Location} {w w' : World} {i : SnapshotIndex} {f : Path}
  {l : Location} {content : ByteArray} {mode modified : Nat} {t : Snapshot}

/-! ## Taking a snapshot -/

/-- The custody while a snapshot of a file is taken: a snapshot of it that was not in the index has
its bytes. -/
def capturingCustody (s : SnapshotStore) (base : Location) (i : SnapshotIndex) (source : Path)
    (content : ByteArray) : Custody :=
  { s.custody base with
    fact := fun u bytes => Digest.blake3 bytes = u.checksum ∧
      (u ∈ i.snapshots ∨ (u.source = source → bytes = content)) }

theorem kept_capturing (h : s.InOrder base w i) (source : Path) (content : ByteArray) :
    (s.capturingCustody base i source content).Kept w i :=
  Custody.Kept.demand h (fun _ hu _ hfact => ⟨hfact, Or.inl hu⟩) (fun _ _ => trivial) nofun nofun
    nofun nofun

theorem truthful_capturing {source : Path} (hplain : Plain w.disk (w.absolute source) l)
    (hout : ¬ base <+: l) (hat : w.disk.at? l = some (.file content mode modified)) :
    (s.capturingCustody base i source content).Truthful w := by
  intro u bytes d hchecksum hrecorded hread
  refine ⟨hchecksum.symm, Or.inr ?_⟩
  rintro rfl
  obtain ⟨m, mode', modified', hm, hat'⟩ := Disk.read_eq_ok_iff.mp hread
  obtain rfl := (hplain.frame hrecorded.frame).eq_of_locate hm
  have hthere := hrecorded.frame.file_of_file hout hat'
  rw [hat] at hthere
  cases hthere
  rfl

/-- A new snapshot of a file: what is read where its copy was made are the bytes of the file. -/
structure Captured (s : SnapshotStore) (base : Location) (source : Path) (content : ByteArray)
    (t : Snapshot) (w' : World) : Prop where
  source : t.source = source
  named : ∃ name, IsCopyName name ∧ t.location = s.dir ++ name
  bytes : ∀ bytes, w'.disk.read (w'.absolute t.location) = .ok bytes → bytes = content

/-- A snapshot that was entered has its copy, which is the only file that is ever found there as
long as no copy is written. -/
theorem captured_of_entered {w₁ : World} (source : Path)
    (h : (s.capturingCustody base i source content).Entered w i source t w₁)
    (hw : (s.capturingCustody base i source content).Sheds w₁ w')
    (hunder : s.locks.Under s.dir base w') : s.Captured base source content t w' := by
  obtain ⟨bytes, ⟨name, mode, modified, hname, hfits, hlocation, hat⟩, -, hfact⟩ :=
    h.kept.copies t (List.mem_append_right _ (List.mem_singleton_self t))
  have hnew : t ∉ i.snapshots := by
    intro ht
    obtain ⟨-, -, hapart⟩ := List.pairwise_append.mp h.kept.apart
    exact hapart t ht t (List.mem_singleton_self t) rfl
  obtain rfl : bytes = content := hfact.resolve_left hnew h.source
  refine ⟨h.source, ⟨name, hname, hlocation⟩, fun other hread => ?_⟩
  rw [hlocation] at hread
  obtain ⟨l, mode', modified', hl, hat'⟩ := Disk.read_eq_ok_iff.mp hread
  obtain ⟨rfl, -⟩ := (hunder.locate_name hname.isName).mp hl
  have hthere := hw name other mode' modified' hname.ne_index hat'
  rw [hat] at hthere
  cases hthere
  rfl

/-- Taking a snapshot of a file touches nothing outside the directory of the store and captures the
bytes of the file, whether retention keeps the snapshot or not. -/
theorem create_captures (h : s.InOrder base w i)
    (hplain : Plain w.disk (w.absolute (w.identity f)) l) (hout : ¬ base <+: l)
    (hat : w.disk.at? l = some (.file content mode modified)) :
    (s.create f).Ends w fun r w' => Within (base <+: ·) w w' ∧ s.locks.Under s.dir base w' ∧
      ∀ t, r = .ok t → s.Captured base (w.identity f) content t w' := by
  have hkept := kept_capturing h (w.identity f) content
  have htrue : (s.capturingCustody base i (w.identity f) content).Truthful w :=
    truthful_capturing hplain hout hat
  rw [create]
  refine Act.ends_look_bind (Act.ends_look_bind ?_)
  split
  · refine (hkept.record htrue).bind ?_ ?_
    · intro t w₁ h₁
      have hretain := (h₁.kept.retain (w.identity f) s.kept).and
        (h₁.kept.retain_sheds (fun _ _ => id) (w.identity f) s.kept)
      refine hretain.bind ?_ ?_
      · rintro _ w₂ ⟨hdropped, hsheds⟩
        obtain ⟨hw₂, _, hkept₂, -⟩ := hdropped.leads
        refine Act.ends_pure ⟨h₁.within.trans hw₂, hkept₂.under, fun u hu => ?_⟩
        cases hu
        exact captured_of_entered _ h₁ hsheds hkept₂.under
      · rintro e w₂ ⟨hdropped, -⟩
        obtain ⟨hw₂, _, hkept₂, -⟩ := hdropped.leads
        exact ⟨h₁.within.trans hw₂, hkept₂.under, by rintro _ ⟨⟩⟩
    · rintro e w₁ ⟨hw₁, hkept₁⟩
      exact ⟨hw₁, hkept₁.under, by rintro _ ⟨⟩⟩
  · exact Act.ends_throw ⟨.refl w, h.under, by rintro _ ⟨⟩⟩

end SnapshotStore

end Amend
