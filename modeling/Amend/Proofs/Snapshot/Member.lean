import Amend.Snapshot.Rollback
import Amend.Proofs.Disk.Place
import Amend.Proofs.Snapshot.Quiet
import Amend.Proofs.Snapshot.RoundTrip

/-!
# Putting back one snapshot of a set

Putting back one snapshot touches the index, lock files and the file of the snapshot, and nothing
else, whatever goes wrong.  Where no lock is held and the system refuses nothing, it fails only
for a reason that lies in the snapshot itself: it is not in the index, its copy cannot be read or
was tampered with, or its file cannot be written.
-/

namespace Amend

open Disk (ChangedAt Frame LinkFree Plain Writable)
open Path (IsName)
open World (Within)
open FileLocks (Region)

/-- The place of the file that a snapshot in the index was taken of. -/
def SnapshotIndex.Original (i : SnapshotIndex) (id : Uid) (l : Location) : Prop :=
  ∃ t, i.find? id = some t ∧ t.source = l.path ∧ ∀ name ∈ l, IsName name

/-- A snapshot that is not left alone: it was not put back before, or it is forced. -/
def SnapshotIndex.IsDue (i : SnapshotIndex) (force : Bool) (id : Uid) : Prop :=
  i.restoredAt? id = none ∨ force = true

theorem SnapshotIndex.not_isDue_iff {i : SnapshotIndex} {force : Bool} {id : Uid} :
    ¬ i.IsDue force id ↔ ((i.restoredAt? id).isSome && !force) = true := by
  rw [IsDue, not_or, Bool.and_eq_true, Bool.not_eq_true', Bool.not_eq_true,
    Option.isSome_iff_ne_none]

theorem SnapshotIndex.isSome_of_not_isDue {i : SnapshotIndex} {force : Bool} {id : Uid}
    (h : ¬ i.IsDue force id) : (i.restoredAt? id).isSome = true :=
  (Bool.and_eq_true_iff.mp (not_isDue_iff.mp h)).1

namespace SnapshotStore

variable {s : SnapshotStore} {base l : Location} {start w w' v v' : World} {i j : SnapshotIndex}
  {t : Snapshot} {id : Uid} {force : Bool} {keys : List Path} {n : Nat}
  {touched : Location → Prop}

/-- A snapshot whose copy is right in the directory of the store, and whose file is named by its
place outside of it, with no link on the way. -/
structure Placed (s : SnapshotStore) (base : Location) (w : World) (t : Snapshot) (l : Location) :
    Prop where
  copy : ∃ name, IsCopyName name ∧ t.location = s.dir ++ name
  source : t.source = l.path
  plain : Plain w.disk l.path l
  outside : ¬ base <+: l

theorem Placed.within (h : s.Placed base w t l) (hw : Within touched w w') :
    s.Placed base w' t l :=
  ⟨h.copy, h.source, h.plain.frame hw.frame, h.outside⟩

theorem Placed.plain_source (h : s.Placed base w t l) :
    Plain w.disk (w.absolute t.source) l := by
  rw [h.source, World.absolute_path]
  exact h.plain

theorem Placed.original (h : s.Placed base w t l) (hfound : i.find? id = some t) :
    i.Original id l := ⟨t, hfound, h.source, h.plain.isName⟩

/-- A snapshot has one place. -/
theorem Placed.eq_of_original (h : s.Placed base w t l) (hfound : i.find? id = some t)
    {m : Location} (hm : i.Original id m) : m = l := by
  obtain ⟨u, hu, hsource, hnames⟩ := hm
  rw [hfound] at hu
  cases hu
  have hcomponents := Path.components_ofNames hnames
  rw [← Location.path, ← hsource, h.source, h.plain.components] at hcomponents
  exact ((List.map_inj_right fun _ _ heq => Path.Component.normal.inj heq).mp
    (List.cons.inj hcomponents).2).symm

theorem Placed.clear (h : s.Placed base w t l) : (s.custody base).Clear w t.source :=
  Custody.clear_of_plain h.plain_source h.outside

/-! ## Where nothing stands in the way -/

/-- A calm store stays calm when something changes at a place outside of it. -/
theorem Calm.changedAt {disk : Disk} (h : s.Calm base start keys n i w)
    (hdisk : ChangedAt l w.disk disk) (hfree : LinkFree w.disk [] l) (hout : ¬ base <+: l) :
    s.Calm base { w with disk } keys n i { w with disk } := by
  have hlinks : ∀ m ∈ w.disk.linksTo (w.absolute s.dir), ¬ m = l := by
    rintro m hm rfl
    obtain ⟨target, hlink⟩ := Disk.mem_linksTo hm
    exact hfree m List.nil_prefix (List.prefix_refl m) target hlink
  have helsewhere : s.Elsewhere base w { w with disk } :=
    ⟨rfl, rfl, rfl, Nat.le_refl _, rfl, (h.under.tree.frame hdisk.frame hlinks).located,
      fun m hm => hdisk.beside m fun hml => hout (hm.trans hml)⟩
  exact h.elsewhere helsewhere (h.plain.frame hdisk.frame) rfl rfl rfl

/-- Where only lock files have come and gone, a file outside can be written as before. -/
theorem OnlyLocks.writable_iff (h : OnlyLocks base w w') (hout : ¬ base <+: l) :
    Writable w'.disk l ↔ Writable w.disk l := by
  have hsame (k : Location) (hk : k <+: l) : w'.disk.at? k = w.disk.at? k :=
    h.outside k fun hbase => hout (hbase.trans hk)
  exact ⟨fun hl => hl.congr fun k hk => (hsame k hk).symm, fun hl => hl.congr hsame⟩

theorem Calm.get (h : s.Calm base start [] n i w) (id : Uid) : (s.get id).Ends w fun r w' =>
    s.Calm base start [] n i w' ∧ OnlyLocks base w w' ∧
      (∀ t, r = .ok t → i.find? id = some t) ∧ ∀ e, r = .error e → i.find? id = none := by
  rw [SnapshotStore.get]
  refine Act.Yields.bind_ends (h.askIndex (isNewKey_nil _)) ?_
  rintro j w₁ ⟨hj, hcalm, hlocks⟩
  rw [hj]
  cases hfind : i.find? id with
  | none => exact Act.ends_throw ⟨hcalm, hlocks, nofun, fun _ _ => rfl⟩
  | some t =>
    refine Act.ends_pure ⟨hcalm, hlocks, ?_, nofun⟩
    rintro _ ⟨⟩
    rfl

theorem Calm.restoredAt (h : s.Calm base start [] n i w) (id : Uid) :
    (s.restoredAt id).Yields w fun x w' => x = i.restoredAt? id ∧ s.Calm base start [] n i w' ∧
      OnlyLocks base w w' := by
  rw [SnapshotStore.restoredAt]
  refine (h.askIndex (isNewKey_nil _)).bind ?_
  rintro _ w₁ ⟨rfl, hw₁⟩
  exact Act.yields_pure ⟨rfl, hw₁⟩

theorem Calm.markRestored (h : s.Calm base start [] n i w) (hfound : i.find? id = some t) :
    (s.markRestored id).Yields w fun _ w' => ∃ j, s.Calm base start [] n j w' := by
  rw [SnapshotStore.markRestored]
  refine (h.updateIndex (P := fun _ m _ => m = n) (isNewKey_nil _) ?_).mono ?_
  · simp only [hfound]
    have hlocked := h.locked (isNewKey_nil s.indexFile)
    exact World.ends_readClock_bind (Act.yields_pure
      ⟨h.valid.mark id (hlocked.clock _), n, rfl, hlocked.readClock⟩)
  · rintro _ w' ⟨_, j, rfl, hcalm⟩
    exact ⟨j, hcalm⟩

/-- A file is written and read again, unless it cannot be written. -/
theorem Calm.overwrite (h : s.Calm base start keys n i w) (hplain : Plain w.disk l.path l)
    (hout : ¬ base <+: l) (bytes : ByteArray) :
    (do
      (Amend.writeFile l.path bytes).mapError .write
      let written ← (World.readBytes l.path).mapError (.io l.path)
      let actual := Digest.blake3 written
      if actual ≠ Digest.blake3 bytes then
        s.mismatch l.path (Digest.blake3 bytes) actual : Act SnapshotError Unit).Ends w fun r w' =>
      (∃ first, s.Calm base first keys n i w') ∧ (r = .ok () ∨ ¬ Writable w.disk l) := by
  refine (World.ends_writeFile_at h.trouble hplain.isName hplain.linkFree).mapError.bind ?_ ?_
  · rintro _ _ ⟨d, rfl, hd, -, hread⟩
    have hcalm := h.changedAt hd hplain.linkFree hout
    rw [← World.absolute_path (w := { w with disk := d })] at hread
    refine Act.Yields.bind_ends (World.yields_readBytes hcalm.trouble hread).mapError ?_
    rintro _ _ ⟨rfl, rfl⟩
    rw [if_neg (not_not.mpr rfl)]
    exact Act.ends_pure ⟨⟨_, hcalm⟩, Or.inl rfl⟩
  · rintro _ _ ⟨_, -, d, rfl, hd, hnot⟩
    exact ⟨⟨_, h.changedAt hd hplain.linkFree hout⟩, Or.inr hnot⟩

/-- What stands in the way of a snapshot: it is not in the index, or it is not left alone and its
copy cannot be read or has another checksum than the strict policy demands, or its file cannot be
written.  The copy is looked at in one world, and the file is to be written in another. -/
inductive Obstacle (s : SnapshotStore) (force : Bool) (i : SnapshotIndex) (id : Uid)
    (w v : World) : Prop
  | unknown (hnone : i.find? id = none)
  | unreadable {t : Snapshot} (hfound : i.find? id = some t) (hdue : i.IsDue force id)
      (hcopy : ∀ bytes, w.disk.read (w.absolute t.location) ≠ .ok bytes)
  | tampered {t : Snapshot} {bytes : ByteArray} (hfound : i.find? id = some t)
      (hdue : i.IsDue force id) (hstrict : s.policy = .strict)
      (hcopy : w.disk.read (w.absolute t.location) = .ok bytes)
      (hother : Digest.blake3 bytes ≠ t.checksum)
  | unwritable {t : Snapshot} (hfound : i.find? id = some t) (hdue : i.IsDue force id)
      (hfile : ∀ bytes, (writeFile t.source bytes).freely v ≠ .ok ())

/-- The obstacles of a snapshot depend on no more than its entries, its copy and its file. -/
theorem Obstacle.congr (h : s.Obstacle force i id w v) (hfind : j.find? id = i.find? id)
    (hdue : ∀ t, i.find? id = some t → i.IsDue force id → j.IsDue force id)
    (hcopy : ∀ t bytes, i.find? id = some t → (w'.disk.read (w'.absolute t.location) = .ok bytes ↔
      w.disk.read (w.absolute t.location) = .ok bytes))
    (hfile : ∀ t bytes, i.find? id = some t → (writeFile t.source bytes).freely v' = .ok () →
      (writeFile t.source bytes).freely v = .ok ()) : s.Obstacle force j id w' v' := by
  cases h with
  | unknown hnone => exact .unknown (hfind.trans hnone)
  | unreadable hfound hthen hunread =>
    exact .unreadable (hfind.trans hfound) (hdue _ hfound hthen) fun bytes hbytes =>
      hunread bytes ((hcopy _ bytes hfound).mp hbytes)
  | tampered hfound hthen hstrict hread hother =>
    exact .tampered (hfind.trans hfound) (hdue _ hfound hthen) hstrict
      ((hcopy _ _ hfound).mpr hread) hother
  | unwritable hfound hthen hunwritten =>
    exact .unwritable (hfind.trans hfound) (hdue _ hfound hthen) fun bytes hok =>
      hunwritten bytes (hfile _ bytes hfound hok)

/-- A file can be written where the system refuses nothing as the disk has it. -/
theorem Placed.freely_writeFile (h : s.Placed base w t l) (bytes : ByteArray) :
    (writeFile t.source bytes).freely w = .ok () ↔ Writable w.disk l := by
  have hfree : LinkFree { w with trouble := [] }.disk [] l := h.plain.linkFree
  have hwrite : (writeFile l.path bytes).Ends { w with trouble := [] } fun r _ =>
      r = .ok () ↔ Writable w.disk l := by
    refine (World.ends_writeFile_at rfl h.plain.isName hfree).mono ?_
    rintro (e | _) _ ⟨d, -, -, hd⟩
    · exact ⟨nofun, fun hl => absurd hl hd⟩
    · exact ⟨fun _ => hd.1, fun _ => rfl⟩
  rw [h.source]
  exact Act.ends_iff.mp hwrite

/-- What changes no copy leaves what is read of one. -/
theorem Placed.read_copy (h : s.Placed base w t l) (hw : s.locks.Under s.dir base w)
    (hv : s.locks.Under s.dir base v) (hwithin : Within touched w v)
    (hcopies : ∀ name, IsCopyName name → ¬ touched (base ++ [name])) {bytes : ByteArray} :
    v.disk.read (v.absolute t.location) = .ok bytes ↔
      w.disk.read (w.absolute t.location) = .ok bytes := by
  obtain ⟨name, hname, hlocation⟩ := h.copy
  exact read_copy_iff hw hv hname.isName hlocation hwithin (hcopies name hname)

/-- The obstacles are the same where only lock files have come and gone. -/
theorem Obstacle.of_onlyLocks (h : s.Obstacle force i id v v) (hlocks : OnlyLocks base w v)
    (hw : s.locks.Under s.dir base w)
    (hplaced : ∀ t, i.find? id = some t → ∃ l, s.Placed base w t l) : s.Obstacle force i id w w := by
  have hv := hw.within hlocks.within fun _ hl => hl.below
  refine h.congr rfl (fun _ _ hdue => hdue) (fun t bytes hfound => ?_) fun t bytes hfound => ?_
  · obtain ⟨l, hl⟩ := hplaced t hfound
    exact (hl.read_copy hw hv hlocks.within fun name _ => not_region_concat base name).symm
  · obtain ⟨l, hl⟩ := hplaced t hfound
    rw [hl.freely_writeFile, (hl.within hlocks.within).freely_writeFile,
      hlocks.writable_iff hl.outside]
    exact fun hwritable => hwritable

/-- A snapshot is put back unless something stands in its way. -/
theorem Calm.restore_or_obstacle (h : s.Calm base start [] n i w) (hplaced : s.Placed base w t l)
    (hfound : i.find? id = some t) (hdue : i.IsDue force id) : (s.restore t).Ends w fun r w' =>
      (∃ first, s.Calm base first [] n i w') ∧ (r = .ok () ∨ s.Obstacle force i id w w) := by
  have hkey : IsNewKey [] t.source := isNewKey_nil t.source
  obtain ⟨v, hv⟩ : ∃ v, v = SnapshotStore.locked base t.source w := ⟨_, rfl⟩
  have hlocked : s.Calm base start [t.source] n i v := hv ▸ h.locked hkey
  have hlocks : OnlyLocks base w v := hv ▸ h.onlyLocks_locked hkey
  have hcopy {bytes : ByteArray} : v.disk.read (v.absolute t.location) = .ok bytes ↔
      w.disk.read (w.absolute t.location) = .ok bytes :=
    hplaced.read_copy h.under hlocked.under hlocks.within fun name _ => not_region_concat base name
  refine (h.ends_withLock (P := fun r w' => (∃ first, s.Calm base first [t.source] n i w') ∧
    (r = .ok () ∨ s.Obstacle force i id w w)) hkey ?_).mono ?_
  · rw [← hv]
    refine (World.ends_readBytes_of_quiet hlocked.trouble).mapError.bind ?_ ?_
    · rintro bytes w₁ ⟨hread, hw₁⟩
      rw [hw₁]
      have hwritten := (hlocked.overwrite (hplaced.plain.frame hlocks.within.frame)
        hplaced.outside bytes).mono (Q := fun r w' => (∃ first, s.Calm base first [t.source] n i w') ∧
          (r = .ok () ∨ s.Obstacle force i id w w)) fun r w' hw' => ⟨hw'.1, hw'.2.imp_right fun hnot =>
            .unwritable hfound hdue fun bytes hok => hnot ((hlocks.writable_iff hplaced.outside).mpr
              ((hplaced.freely_writeFile bytes).mp hok))⟩
      rw [← hplaced.source] at hwritten
      dsimp only
      split
      case isFalse => exact hwritten
      case isTrue hother =>
        refine (ends_mismatch_of_policy (Q := fun r w' => w' = v ∧ (r = .ok () ∨
          s.policy = .strict)) (fun _ => ⟨rfl, Or.inl rfl⟩) fun hpolicy =>
            ⟨rfl, Or.inr hpolicy⟩).bind ?_ ?_
        · rintro _ _ ⟨rfl, -⟩
          exact hwritten
        · rintro e _ ⟨rfl, hstrict⟩
          exact ⟨⟨_, hlocked⟩, Or.inr (.tampered hfound hdue (hstrict.resolve_left nofun)
            (hcopy.mp hread.symm) hother)⟩
    · rintro _ _ ⟨e, -, hread, rfl⟩
      refine ⟨⟨_, hlocked⟩, Or.inr (.unreadable hfound hdue fun bytes hbytes => ?_)⟩
      rw [hcopy.mpr hbytes] at hread
      cases hread
  · rintro r w' ⟨w₁, ⟨⟨first, hcalm⟩, hw₁⟩, rfl⟩
    exact ⟨⟨first, hcalm.release hkey⟩, hw₁⟩

/-- A member of a set is put back or left alone, unless something stands in its way. -/
theorem Calm.rollbackId_or_obstacle (h : s.Calm base start [] n i w)
    (hplaced : ∀ t, i.find? id = some t → ∃ l, s.Placed base w t l) :
    (s.rollbackId id force).Ends w fun r w' => (∃ first j, s.Calm base first [] n j w') ∧
      ((∃ report, r = .ok report) ∨ s.Obstacle force i id w w) := by
  rw [SnapshotStore.rollbackId]
  refine (h.get id).outcome.bind (fun found w₁ hget => ?_) fun e _ he => he.elim
  obtain ⟨hcalm₁, hlocks₁, hfound, hmissing⟩ := hget
  cases found with
  | error e =>
    have hunknown : s.Obstacle force i id w w := .unknown (hmissing e rfl)
    cases e <;> exact Act.ends_throw ⟨⟨_, _, hcalm₁⟩, Or.inr hunknown⟩
  | ok t =>
    have ht := hfound t rfl
    obtain ⟨l, hl⟩ := hplaced t ht
    obtain ⟨-, rfl⟩ := SnapshotIndex.mem_of_find? ht
    dsimp only
    rw [SnapshotStore.rollbackSnapshot]
    refine (hcalm₁.restoredAt t.id).mapError.bind_ends ?_
    rintro before w₂ ⟨rfl, hcalm₂, hlocks₂⟩
    have hlocks := hlocks₁.trans hlocks₂
    split
    case isTrue => exact Act.ends_pure ⟨⟨_, _, hcalm₂⟩, Or.inl ⟨_, rfl⟩⟩
    case isFalse hdue =>
      rw [← SnapshotIndex.not_isDue_iff, not_not] at hdue
      refine (hcalm₂.restore_or_obstacle (hl.within hlocks.within) ht hdue).mapError.bind ?_ ?_
      · rintro _ w₃ ⟨⟨first, hcalm₃⟩, -⟩
        refine (hcalm₃.markRestored ht).mapError.bind_ends ?_
        rintro _ w₄ ⟨j, hcalm₄⟩
        exact Act.ends_pure ⟨⟨_, _, hcalm₄⟩, Or.inl ⟨_, rfl⟩⟩
      · rintro _ w₃ ⟨e, -, ⟨first, hcalm₃⟩, hwhy⟩
        refine ⟨⟨_, _, hcalm₃⟩, Or.inr ?_⟩
        exact (hwhy.resolve_left nofun).of_onlyLocks hlocks h.under hplaced

/-! ## Whatever the system refuses -/

theorem Indexed.get (h : s.Indexed base w i) (id : Uid) : (s.get id).Ends w fun r w' =>
    Within (Region base) w w' ∧ ∀ t, r = .ok t → i.find? id = some t := by
  rw [SnapshotStore.get]
  refine h.ask (fun w₁ h₁ => ?_) fun e w₁ h₁ => ⟨h₁, nofun⟩
  cases hfind : i.find? id with
  | none => exact Act.ends_throw ⟨h₁, nofun⟩
  | some t =>
    refine Act.ends_pure ⟨h₁, ?_⟩
    rintro _ ⟨⟩
    rfl

theorem Indexed.restoredAt (h : s.Indexed base w i) (id : Uid) :
    (s.restoredAt id).Ends w fun r w' =>
      Within (Region base) w w' ∧ ∀ x, r = .ok x → x = i.restoredAt? id := by
  rw [SnapshotStore.restoredAt]
  refine h.ask (fun w₁ h₁ => Act.ends_pure ⟨h₁, ?_⟩) fun e w₁ h₁ => ⟨h₁, nofun⟩
  rintro _ ⟨⟩
  rfl

/-- A snapshot in the index is marked there, or the index stays. -/
theorem Indexed.markRestored (h : s.Indexed base w i) (hfound : i.find? id = some t) :
    (s.markRestored id).Ends w fun r w' =>
      match r with
      | .ok _ => ∃ time, s.Indexed base w' (i.mark id time) ∧
          Within (fun m => Region base m ∨ m = indexLocation base) w w'
      | .error _ => Within (Region base) w w' := by
  rw [SnapshotStore.markRestored]
  refine (h.updateIndex (P := fun _ j _ => ∃ time : Timestamp, time.IsReading ∧ j = i.mark id time)
    fun w₁ h₁ => ?_).mono ?_
  · simp only [hfound]
    refine World.ends_readClock_bind (Act.ends_pure ⟨?_, ?_⟩)
    · exact h₁.trans ⟨Frame.refl _, rfl, rfl, rfl, Nat.le_refl _, rfl⟩
    · rintro _ _ ⟨⟩
      refine ⟨_, ?_, rfl⟩
      rw [h₁.clock]
      exact h.clock _
  · rintro (e | _) w' hw'
    · exact hw'
    · obtain ⟨_, w₂, ⟨time, htime, rfl⟩, h₂, hreindexed⟩ := hw'
      exact ⟨time, (h.region h₂).reindexed hreindexed (h.valid.mark id htime),
        (h₂.mono fun _ => Or.inl).trans hreindexed.within⟩

/-- What putting a snapshot back may touch. -/
def Concerns (base : Location) (i : SnapshotIndex) (id : Uid) (m : Location) : Prop :=
  Region base m ∨ m = indexLocation base ∨ i.Original id m

theorem within_concerns (hw : Within (Region base) v v') : Within (Concerns base i id) v v' :=
  hw.mono fun _ => Or.inl

/-- What becomes of a member in its turn, with the index before and behind it. -/
inductive Turn (s : SnapshotStore) (base : Location) (force : Bool) (id : Uid) (v : World)
    (i : SnapshotIndex) : Except RollbackError RestoreReport → World → SnapshotIndex → Prop
  /-- It was put back before, and is left alone. -/
  | left {t : Snapshot} {v' : World} (hfound : i.find? id = some t)
      (hleft : ¬ i.IsDue force id) (hw : Within (Region base) v v') : Turn s base force id v i
        (.ok ⟨id, t.source, .alreadyRestored⟩) v' i
  /-- Its file has the bytes of its copy, and this is noted. -/
  | restored {t : Snapshot} {bytes : ByteArray} {time : Timestamp} {v' : World}
      (hfound : i.find? id = some t) (hdue : i.IsDue force id)
      (hcopy : v.disk.read (v.absolute t.location) = .ok bytes)
      (hchecksum : s.policy = .strict → Digest.blake3 bytes = t.checksum)
      (hread : v'.disk.read (v'.absolute t.source) = .ok bytes)
      (hw : Within (Concerns base i id) v v') : Turn s base force id v i
        (.ok ⟨id, t.source, .restored⟩) v' (i.mark id time)
  /-- A step has failed.  If the member was to be left alone, its file is as it was. -/
  | failed {e : RollbackError} {v' : World} (hw : Within (Concerns base i id) v v')
      (huntouched : ¬ i.IsDue force id → Within (Region base) v v') :
      Turn s base force id v i (.error e) v' i

section PutsBack

variable {r : Except SnapshotError Unit}

theorem PutsBack.indexed (hback : s.PutsBack base t w r w') (h : s.Indexed base w i)
    (hplaced : s.Placed base w t l) : s.Indexed base w' i := by
  refine h.within hback.within hback.under ?_
  rintro (hm | hm)
  · exact ne_concat_of_region hm _ rfl
  · exact (hplaced.clear _ hm).1 (List.prefix_append base _)

theorem PutsBack.concerns (hback : s.PutsBack base t w r w') (hplaced : s.Placed base w t l)
    (hfound : i.find? t.id = some t) : Within (Concerns base i t.id) w w' := by
  refine hback.within.mono ?_
  rintro m (hm | hm)
  · exact Or.inl hm
  · obtain rfl := hm.eq_of_plain hplaced.plain_source
    exact Or.inr (Or.inr (hplaced.original hfound))

end PutsBack

/-- A snapshot that is to be put back is, and this is noted, or a step fails. -/
theorem Indexed.restore_and_mark (h : s.Indexed base v i) (hw : Within (Region base) v w)
    (hfound : i.find? t.id = some t) (hplaced : s.Placed base v t l)
    (hdue : i.IsDue force t.id) :
    (do
      (s.restore t).mapError (.restore t.source.text)
      (s.markRestored t.id).mapError (.restore t.source.text)
      return ⟨t.id, t.source, .restored⟩ : Act RollbackError RestoreReport).Ends w fun r v' =>
        ∃ j, s.Indexed base v' j ∧ s.Turn base force t.id v i r v' j := by
  have hindexed := h.region hw
  have hthere := hplaced.within hw
  obtain ⟨name, hname, hlocation⟩ := hplaced.copy
  have huntouched {v' : World} (hleft : ¬ i.IsDue force t.id) : Within (Region base) v v' :=
    absurd hdue hleft
  refine (restore_puts_back hindexed.under hthere.clear hname.isName hlocation).mapError.bind ?_ ?_
  · intro _ w₁ hback
    obtain ⟨bytes, hcopy, hchecksum, hout⟩ := hback.content rfl
    have hindexed₁ := hback.indexed hindexed hthere
    have hw₁ := (within_concerns hw).trans (hback.concerns hthere hfound)
    refine (hindexed₁.markRestored hfound).mapError.bind ?_ ?_
    · rintro _ w₂ ⟨time, hindexed₂, hw₂⟩
      refine Act.ends_pure ⟨_, hindexed₂, .restored hfound hdue
        (read_location h.under hname.isName hlocation hw hcopy) hchecksum ?_ ?_⟩
      · have hbelow : Within (base <+: ·) w₁ w₂ := by
          refine hw₂.mono ?_
          rintro m (hm | rfl)
          · exact hm.below
          · exact List.prefix_append base _
        exact (hout.within hback.under hbelow).read hindexed₂.under (.refl _)
      · exact hw₁.trans (hw₂.mono fun m hm => hm.imp_right Or.inl)
    · rintro e w₂ ⟨_, -, hw₂⟩
      exact ⟨i, hindexed₁.region hw₂, .failed (hw₁.trans (within_concerns hw₂)) huntouched⟩
  · rintro e w₁ ⟨cause, -, hback⟩
    exact ⟨i, hback.indexed hindexed hthere,
      .failed ((within_concerns hw).trans (hback.concerns hthere hfound)) huntouched⟩

/-- A member is left alone or put back, or a step fails. -/
theorem Indexed.rollbackId (h : s.Indexed base v i)
    (hplaced : ∀ t, i.find? id = some t → ∃ l, s.Placed base v t l) :
    (s.rollbackId id force).Ends v fun r v' =>
      ∃ j, s.Indexed base v' j ∧ s.Turn base force id v i r v' j := by
  have hfailed {v' : World} (hw : Within (Region base) v v') (e : RollbackError) :
      ∃ j, s.Indexed base v' j ∧ s.Turn base force id v i (.error e) v' j :=
    ⟨i, h.region hw, .failed (within_concerns hw) fun _ => hw⟩
  rw [SnapshotStore.rollbackId]
  refine (h.get id).outcome.bind (fun found v₁ hget => ?_) fun e _ he => he.elim
  obtain ⟨hv₁, hfound⟩ := hget
  cases found with
  | error e => cases e <;> exact Act.ends_throw (hfailed hv₁ _)
  | ok t =>
    have ht := hfound t rfl
    obtain ⟨l, hl⟩ := hplaced t ht
    obtain ⟨-, rfl⟩ := SnapshotIndex.mem_of_find? ht
    dsimp only
    rw [SnapshotStore.rollbackSnapshot]
    refine ((h.region hv₁).restoredAt t.id).mapError.bind ?_ ?_
    · rintro before v₂ ⟨hv₂, hbefore⟩
      rw [hbefore before rfl]
      split
      case isTrue hleft =>
        exact Act.ends_pure ⟨i, h.region (hv₁.trans hv₂),
          .left ht (SnapshotIndex.not_isDue_iff.mpr hleft) (hv₁.trans hv₂)⟩
      case isFalse hdue =>
        rw [← SnapshotIndex.not_isDue_iff, not_not] at hdue
        exact h.restore_and_mark (hv₁.trans hv₂) ht hl hdue
    · rintro e v₂ ⟨cause, -, hv₂, -⟩
      exact hfailed (hv₁.trans hv₂) _

/-! ## Why a turn fails -/

/-- A store that is set up: its directory is written without links and has room for lock files, and
it has an index. -/
structure Established (s : SnapshotStore) (base : Location) (w : World) (i : SnapshotIndex) : Prop
    extends s.Indexed base w i where
  tidy : s.dir.IsTidy
  plain : Plain w.disk (w.absolute s.dir) base
  locksDir : w.disk.at? (base ++ ["locks"]) = some .directory
  nonempty : i ≠ .empty

theorem Established.indexed (h : s.Established base v i) (hw : Within touched v v')
    (hj : s.Indexed base v' j) (hne : j ≠ .empty) : s.Established base v' j where
  toIndexed := hj
  tidy := h.tidy
  plain := by
    rw [hw.absolute]
    exact h.plain.frame hw.frame
  locksDir := hw.frame.directory _ h.locksDir
  nonempty := hne

/-- A world in which no lock of a store is held, by this process or by others. -/
structure LocksFree (base : Location) (w : World) : Prop where
  held : w.held = []
  noFile : ∀ file, w.disk.at? (base ++ ["locks"] ++ [file]) = none

/-- A store that is set up and whose locks are free is calm where the system refuses nothing. -/
theorem Established.calm (h : s.Established base w i) (hfree : LocksFree base w) :
    s.Calm base { w with trouble := [] } [] w.drawn i { w with trouble := [] } where
  since := .refl _
  flat := fun _ => id
  under := ⟨h.under.tree, h.under.dir_eq⟩
  tidy := h.tidy
  plain := h.plain
  trouble := rfl
  held := hfree.held
  drawn := rfl
  clock := h.clock
  locksDir := h.locksDir
  taken := fun _ hkey => absurd hkey List.not_mem_nil
  free := fun file => Or.inl (hfree.noFile file)
  index := by
    rcases h.isAt with ⟨content, mode, modified, hat, -⟩ | ⟨-, hempty⟩
    · intro hdirectory
      rw [hat] at hdirectory
      cases hdirectory
    · exact absurd hempty h.nonempty
  isAt := h.isAt
  valid := h.valid

/-- A world in which the locks of a store are free and the system refuses nothing. -/
structure Peaceful (base : Location) (w : World) : Prop where
  locks : LocksFree base w
  trouble : w.trouble = []

theorem Calm.peaceful (h : s.Calm base start [] n i w) : Peaceful base w where
  locks := ⟨h.held, fun file => (h.free file).resolve_right fun ⟨_, hkey, _⟩ =>
    List.not_mem_nil hkey⟩
  trouble := h.trouble

theorem Established.calm_of_peaceful (h : s.Established base w i) (hw : Peaceful base w) :
    s.Calm base w [] w.drawn i w := by
  have hcalm := h.calm hw.locks
  rwa [← hw.trouble] at hcalm

/-- A lock is not free or the system refuses something, and that is all that makes an action
fail. -/
structure Disturbed {α : Type} (base : Location) (a : Act RollbackError α) (w : World) : Prop where
  unrest : ¬ Peaceful base w
  otherwise : LocksFree base w → ∃ x, a.freely w = .ok x

/-- An action that would succeed if nothing were in its way fails only when it is disturbed. -/
theorem disturbed_of_error {α : Type} {a : Act RollbackError α} {e : RollbackError}
    (hrun : a.apply w = (.error e, w')) (h : LocksFree base w → ∃ x, a.freely w = .ok x) :
    Disturbed base a w where
  unrest := by
    intro hw
    obtain ⟨x, hx⟩ := h hw.locks
    rw [Act.freely_of_quiet a hw.trouble, hrun] at hx
    cases hx
  otherwise := h

section Turn

variable (h : s.Established base v i)
  (hplaced : ∀ t, i.find? id = some t → ∃ l, s.Placed base v t l)

include h hplaced

/-- A turn that fails has met an obstacle or was disturbed. -/
theorem Established.obstacle_or_disturbed {e : RollbackError}
    (hrun : (s.rollbackId id force).apply v = (.error e, v')) :
    s.Obstacle force i id v v ∨ Disturbed base (s.rollbackId id force) v := by
  refine or_iff_not_imp_left.mpr fun hno => disturbed_of_error hrun fun hfree => ?_
  have hplaced' : ∀ t, i.find? id = some t → ∃ l, s.Placed base { v with trouble := [] } t l := by
    intro t ht
    obtain ⟨l, hl⟩ := hplaced t ht
    exact ⟨l, hl.copy, hl.source, hl.plain, hl.outside⟩
  obtain ⟨-, hdone⟩ := Act.ends_iff.mp ((h.calm hfree).rollbackId_or_obstacle hplaced')
  refine hdone.resolve_right fun hobstacle => hno ?_
  exact hobstacle.congr rfl (fun _ _ hdue => hdue) (fun _ _ _ => Iff.rfl) fun _ _ _ hok => hok

/-- After a turn the world is as peaceful as before. -/
theorem Established.peaceful_after (hv : Peaceful base v) :
    (s.rollbackId id force).Ends v fun _ v' => Peaceful base v' := by
  refine ((h.calm_of_peaceful hv).rollbackId_or_obstacle hplaced).mono ?_
  rintro _ v' ⟨⟨first, j, hcalm⟩, -⟩
  exact hcalm.peaceful

/-- A member is left alone or put back, or a step fails, and the store stays set up. -/
theorem Established.rollbackId : (s.rollbackId id force).Ends v fun r v' =>
    ∃ j, s.Established base v' j ∧ s.Turn base force id v i r v' j := by
  refine (h.toIndexed.rollbackId hplaced).mono ?_
  rintro r v' ⟨j, hj, hturn⟩
  refine ⟨j, ?_, hturn⟩
  cases hturn with
  | left _ _ hw => exact h.indexed hw hj h.nonempty
  | restored _ _ _ _ _ hw => exact h.indexed hw hj (i.mark_ne_empty id _)
  | failed hw _ => exact h.indexed hw hj h.nonempty

end Turn

end SnapshotStore

end Amend
