import Amend.Proofs.Snapshot.Agreement

/-!
# What was recorded is put back

A snapshot that is in the index still has the copy that was made when it was taken, whatever the
store has done since and whatever has become of the file, because no copy is written over another
one and each is named by an identifier that is drawn once.  Putting it back therefore gives the
file the bytes it had then.  Until the file itself is written, a failure changes nothing but lock
files, and under the strict policy a copy with another checksum is never put back.
-/

namespace Amend

open Disk (Frame Plain)
open Path (IsName)
open World (Within)
open FileLocks (Region Under)

namespace SnapshotStore

variable {s : SnapshotStore} {base : Location} {t : Snapshot} {w w' v v' : World}

/-! ## Putting back one snapshot -/

/-- The failures that come up after a file was written: it cannot be read again, or reads
differently. -/
inductive IsLate (t : Snapshot) : SnapshotError → Prop
  | unread (cause : SystemError) : IsLate t (.io t.source cause)
  | differs (expected actual : String) : IsLate t (.checksumMismatch t.source expected actual)

/-- What putting a snapshot back comes to. -/
structure PutsBack (s : SnapshotStore) (base : Location) (t : Snapshot) (w : World)
    (r : Except SnapshotError Unit) (w' : World) : Prop where
  under : s.locks.Under s.dir base w'
  within : Within (fun l => Region base l ∨ (s.custody base).Target w t.source l) w w'
  content : r = .ok () → ∃ bytes, w.disk.read (w.absolute t.location) = .ok bytes ∧
    (s.policy = .strict → Digest.blake3 bytes = t.checksum) ∧ Outside base w' t.source bytes
  early : ∀ e, r = .error e → ¬ IsLate t e → Within (Region base) w w'
  checked : s.policy = .strict → (∀ bytes, w.disk.read (w.absolute t.location) = .ok bytes →
    Digest.blake3 bytes ≠ t.checksum) → Within (Region base) w w'

theorem putsBack_early (h : s.locks.Under s.dir base w') (hw : Within (Region base) w w')
    (e : SnapshotError) : s.PutsBack base t w (.error e) w' where
  under := h
  within := hw.mono fun _ => Or.inl
  content := by
    rintro ⟨⟩
  early := fun _ _ _ => hw
  checked := fun _ _ => hw

/-- Lock files do not matter to what was put back. -/
theorem PutsBack.region {r : Except SnapshotError Unit} (h : s.PutsBack base t w r v)
    (hv : Within (Region base) v v') : s.PutsBack base t w r v' where
  under := h.under.within hv fun _ hl => hl.below
  within := h.within.trans (hv.mono fun _ => Or.inl)
  content := by
    intro hr
    obtain ⟨bytes, hread, hchecksum, hout⟩ := h.content hr
    exact ⟨bytes, hread, hchecksum, hout.within h.under (hv.mono fun _ hl => hl.below)⟩
  early := fun e hr he => (h.early e hr he).trans hv
  checked := fun hstrict hother => (h.checked hstrict hother).trans hv

/-- A location without links below it is left where it is by what is put outside of it. -/
theorem under_put (h : s.locks.Under s.dir base w) {l : Location} (hne : l ≠ [])
    (hdir : w.disk.at? l ≠ some .directory) (hlink : l ∉ w.disk.linksTo (w.absolute s.dir))
    (content : ByteArray) (mode modified : Nat) :
    s.locks.Under s.dir base { w with disk := w.disk.put l (.file content mode modified) } where
  tree := by
    refine h.tree.frame (Frame.put_file hne hdir content mode modified) ?_
    rintro m hm rfl
    exact hlink hm
  dir_eq := h.dir_eq

/-- The links on the way to the store are the same after changes in its directory. -/
theorem linksTo_dir (h : s.locks.Under s.dir base w) (hw : Within (base <+: ·) w v) :
    v.disk.linksTo (v.absolute s.dir) = w.disk.linksTo (w.absolute s.dir) := by
  rw [hw.absolute]
  refine (hw.frame.locate h.tree.located (fun l hl htouched => ?_)
    (Or.inr h.tree.isDirectory)).2
  obtain ⟨target, hat⟩ := Disk.mem_linksTo hl
  exact h.tree.noLinks l htouched target hat

/-- A copy that is not touched is read as before, being a file right in the directory of the
store. -/
theorem read_copy_iff {touched : Location → Prop} (h : s.locks.Under s.dir base w)
    (h' : s.locks.Under s.dir base v) {name : String} (hname : IsName name)
    (hlocation : t.location = s.dir ++ name) (hw : Within touched w v)
    (hcopy : ¬ touched (base ++ [name])) {bytes : ByteArray} :
    v.disk.read (v.absolute t.location) = .ok bytes ↔
      w.disk.read (w.absolute t.location) = .ok bytes := by
  rw [hlocation]
  constructor
  · intro hread
    obtain ⟨l, mode, modified, hl, hat⟩ := Disk.read_eq_ok_iff.mp hread
    obtain ⟨rfl, hfits⟩ := (h'.locate_name hname).mp hl
    exact Disk.read_eq_ok_iff.mpr ⟨_, mode, modified, (h.locate_name hname).mpr ⟨rfl, hfits⟩,
      hw.frame.file_of_file hcopy hat⟩
  · intro hread
    obtain ⟨l, mode, modified, hl, hat⟩ := Disk.read_eq_ok_iff.mp hread
    obtain ⟨rfl, hfits⟩ := (h.locate_name hname).mp hl
    exact Disk.read_eq_ok_iff.mpr ⟨_, mode, modified, (h'.locate_name hname).mpr ⟨rfl, hfits⟩,
      hw.frame.eq_of_some hcopy hat⟩

theorem read_location (h : s.locks.Under s.dir base w) {name : String} (hname : IsName name)
    (hlocation : t.location = s.dir ++ name) (hw : Within (Region base) w v) {bytes : ByteArray}
    (hread : v.disk.read (v.absolute t.location) = .ok bytes) :
    w.disk.read (w.absolute t.location) = .ok bytes :=
  (read_copy_iff h (h.within hw fun _ hl => hl.below) hname hlocation hw
    fun hl => ne_concat_of_region hl name rfl).mp hread

/-- A check that ends the operation or, under the advisory policy, counts for nothing. -/
theorem ends_mismatch_of_policy {path : Path} {expected actual : String}
    {Q : Except SnapshotError Unit → World → Prop} (hok : s.policy ≠ .strict → Q (.ok ()) w)
    (herror : s.policy = .strict → Q (.error (.checksumMismatch path expected actual)) w) :
    (s.mismatch path expected actual).Ends w Q := by
  rw [mismatch]
  cases hpolicy : s.policy with
  | strict => exact Act.ends_throw (herror hpolicy)
  | advisory =>
    refine Act.ends_pure (hok ?_)
    rw [hpolicy]
    rintro ⟨⟩

/-- Once the copy has been read and its checksum is right or does not matter, the file is written
and read again. -/
theorem overwrite_puts_back (h : s.locks.Under s.dir base w)
    (hclear : (s.custody base).Clear w t.source) (hw : Within (Region base) w v)
    {bytes : ByteArray} (hcopy : w.disk.read (w.absolute t.location) = .ok bytes)
    (hchecksum : s.policy = .strict → Digest.blake3 bytes = t.checksum) :
    (do
      (writeFile t.source bytes).mapError .write
      let written ← (World.readBytes t.source).mapError (.io t.source)
      let actual := Digest.blake3 written
      if actual ≠ Digest.blake3 bytes then
        s.mismatch t.source (Digest.blake3 bytes) actual : Act SnapshotError Unit).Ends v
      (s.PutsBack base t w) := by
  refine World.ends_writeFile_puts.mapError.bind ?_ ?_
  · rintro _ _ ⟨u, m, mode, modified, hu, hm, hdir, rfl, -⟩
    have hwu : Within (Region base) w u := hw.trans (hu.mono fun _ => False.elim)
    have hbelow : Within (base <+: ·) w u := hwu.mono fun _ hl => hl.below
    have htarget : (s.custody base).Target w t.source m := by
      refine ⟨u.disk, hbelow.frame, ?_⟩
      rw [← hwu.absolute]
      exact hm
    obtain ⟨hout, hlink⟩ := hclear m htarget
    have hne : m ≠ [] := by
      rintro rfl
      exact hdir rfl
    have hunder := under_put (h.within hwu fun _ hl => hl.below) hne hdir
      (linksTo_dir h hbelow ▸ hlink) bytes mode modified
    have hput : Within (· = m) u { u with disk := u.disk.put m (.file bytes mode modified) } :=
      .ofDisk (Frame.put_file hne hdir bytes mode modified) u.trouble
    have hwritten : Within (fun l => Region base l ∨ (s.custody base).Target w t.source l) w
        { u with disk := u.disk.put m (.file bytes mode modified) } :=
      (hwu.mono fun _ => Or.inl).trans (hput.mono fun _ hl => hl ▸ Or.inr htarget)
    refine (World.ends_readBytes (Region base)).mapError.bind ?_ ?_
    · rintro written w₁ ⟨h₁, hdisk, hread⟩
      obtain ⟨l, mode', modified', hl, hat⟩ := Disk.read_eq_ok_iff.mp (hread written rfl)
      -- the file is found where it was put, so it is what was written
      obtain rfl := Disk.locate_put hm hne hl
      have hat₁ := hat
      rw [Disk.at?_put_self _ _ _ hne] at hat
      cases hat
      rw [← hdisk] at hl hat₁
      rw [← h₁.absolute] at hl
      dsimp only
      rw [if_neg (not_not.mpr rfl)]
      refine Act.ends_pure ⟨hunder.within h₁ fun _ hl => hl.below,
        hwritten.trans (h₁.mono fun _ => Or.inl), fun _ => ?_, ?_, fun hstrict hother => ?_⟩
      · exact ⟨bytes, hcopy, hchecksum, ⟨l, mode, modified, hl, hout, hat₁⟩⟩
      · rintro _ ⟨⟩
      · exact absurd (hchecksum hstrict) (hother bytes hcopy)
    · rintro _ w₁ ⟨cause, rfl, h₁, -⟩
      refine ⟨hunder.within h₁ fun _ hl => hl.below, hwritten.trans (h₁.mono fun _ => Or.inl),
        ?_, ?_, fun hstrict hother => ?_⟩
      · rintro ⟨⟩
      · rintro _ ⟨⟩ hearly
        exact absurd (.unread cause) hearly
      · exact absurd (hchecksum hstrict) (hother bytes hcopy)
  · rintro e w₁ ⟨_, -, h₁⟩
    have hw₁ := hw.trans (h₁.mono fun _ => False.elim)
    exact putsBack_early (h.within hw₁ fun _ hl => hl.below) hw₁ _

/-- Putting a snapshot back whose copy is in the directory of the store. -/
theorem restore_puts_back (h : s.locks.Under s.dir base w)
    (hclear : (s.custody base).Clear w t.source) {name : String} (hname : IsName name)
    (hlocation : t.location = s.dir ++ name) : (s.restore t).Ends w (s.PutsBack base t w) := by
  have hearly {v : World} (hv : Within (Region base) w v) (e : SnapshotError) :
      s.PutsBack base t w (.error e) v :=
    putsBack_early (h.within hv fun _ hl => hl.below) hv e
  rw [restore]
  refine h.withLock (P := s.PutsBack base t w) (fun w₁ h₁ => ?_) (fun e w₁ h₁ => hearly h₁ e)
    fun r w₂ h₂ => ⟨h₂.under, fun _ => h₂.region⟩
  refine (World.ends_readBytes (Region base)).mapError.bind ?_ ?_
  · rintro bytes w₂ ⟨h₂, -, hread⟩
    have hcopy : w.disk.read (w.absolute t.location) = .ok bytes :=
      read_location h hname hlocation h₁ (hread bytes rfl)
    dsimp only
    split
    · refine (ends_mismatch_of_policy (Q := fun r w' => w' = w₂ ∧ (r = .ok () →
        s.policy ≠ .strict)) (fun hpolicy => ⟨rfl, fun _ => hpolicy⟩) fun _ => ⟨rfl, ?_⟩).bind ?_ ?_
      · rintro ⟨⟩
      · rintro _ _ ⟨rfl, hpolicy⟩
        exact overwrite_puts_back h hclear (h₁.trans h₂) hcopy
          fun hstrict => absurd hstrict (hpolicy rfl)
      · rintro e _ ⟨rfl, -⟩
        exact hearly (h₁.trans h₂) e
    · rename_i hchecksum
      exact overwrite_puts_back h hclear (h₁.trans h₂) hcopy fun _ => not_not.mp hchecksum
  · rintro e w₂ ⟨_, -, h₂, -⟩
    exact hearly (h₁.trans h₂) _

/-! ## Where nothing stands in the way -/

/-- A path without links that a file can be written to, in a directory that is there. -/
structure IsPlace (w : World) (p : Path) (l : Location) : Prop where
  plain : Plain w.disk (w.absolute p) l
  located : w.disk.locate (w.absolute p) = .ok l
  noPoints : Disk.endsInPoints (w.absolute p) = false
  kind : Disk.meansDirectory (w.absolute p) = false
  notDirectory : w.disk.at? l ≠ some .directory
  parent : ∃ dir m, p.parent? = some dir ∧ dir.text ≠ "" ∧ Plain w.disk (w.absolute dir) m ∧
    w.disk.locate (w.absolute dir) = .ok m ∧ w.disk.at? m = some .directory

section Place

variable {p : Path} {l : Location} {content : ByteArray} {mode modified : Nat}

theorem IsPlace.frame (h : IsPlace w p l) (hunder : s.locks.Under s.dir base w)
    (hw : Within (base <+: ·) w v) (hsame : v.disk.at? l = w.disk.at? l) :
    IsPlace v p l := by
  have hlinks (q : Path) : ∀ m ∈ w.disk.linksTo q, ¬ base <+: m := by
    intro m hm hbelow
    obtain ⟨target, hlink⟩ := Disk.mem_linksTo hm
    exact hunder.tree.noLinks m hbelow target hlink
  obtain ⟨dir, m, hparent, hnonempty, hplain, hl, hat⟩ := h.parent
  refine ⟨?_, ?_, ?_, ?_, ?_, dir, m, hparent, hnonempty, ?_, ?_, ?_⟩
  · rw [hw.absolute]
    exact h.plain.frame hw.frame
  · rw [hw.absolute]
    exact (hw.frame.locate h.located (hlinks _) (Or.inl h.kind)).1
  · rw [hw.absolute]
    exact h.noPoints
  · rw [hw.absolute]
    exact h.kind
  · rw [hsame]
    exact h.notDirectory
  · rw [hw.absolute]
    exact hplain.frame hw.frame
  · rw [hw.absolute]
    exact (hw.frame.locate hl (hlinks _) (Or.inr hat)).1
  · exact hw.frame.directory m hat

/-- A file is written at its place for certain, and is found there. -/
theorem IsPlace.writeFile (h : IsPlace w p l) (htrouble : w.trouble = []) :
    (writeFile p content).Yields w fun _ w' => w'.trouble = [] ∧
      w'.disk.read (w'.absolute p) = .ok content := by
  obtain ⟨dir, m, hparent, hnonempty, hplain, hl, hat⟩ := h.parent
  have hne : l ≠ [] := by
    rintro rfl
    exact h.notDirectory rfl
  have hlinks : ∀ m ∈ w.disk.linksTo (w.absolute p), ¬ m = l := by
    rintro m hm rfl
    obtain ⟨target, hlink⟩ := Disk.mem_linksTo hm
    exact h.plain.linkFree m List.nil_prefix (List.prefix_refl m) target hlink
  have hmoved : (World.diskOperation fun w =>
      w.disk.replace (w.absolute p) content (w.keptMode p) w.now).Yields w fun _ w' =>
        w'.trouble = [] ∧ w'.disk.read (w'.absolute p) = .ok content := by
    refine World.yields_diskOperation htrouble (Disk.replace_of_kind h.noPoints h.kind
      (h.plain.locate_congr h.located) h.notDirectory) ⟨htrouble, ?_⟩
    have hput := Frame.put_file hne h.notDirectory content (w.keptMode p) w.now
    exact Disk.read_eq_ok_iff.mpr ⟨l, _, _,
      (hput.locate h.located hlinks (Or.inl h.kind)).1, Disk.at?_put_self _ _ _ hne⟩
  rw [Amend.writeFile, hparent]
  dsimp only
  rw [if_neg hnonempty]
  refine (World.yields_makeDirectories htrouble (hplain.locate_congr hl) hl hat).mapError.bind ?_
  intro _ w₁ hw₁
  rw [hw₁]
  have hnothing : (World.operation fun w => .ok ((), w)).Yields w fun _ w' => w' = w :=
    World.yields_operation htrouble rfl rfl
  refine hnothing.mapError.bind ?_
  intro _ w₂ hw₂
  rw [hw₂]
  exact hmoved.mapError

end Place

/-- A store stays calm whatever happens elsewhere, if its path stays without links. -/
theorem Calm.elsewhere {start : World} {keys : List Path} {n : Nat} {i : SnapshotIndex}
    (h : s.Calm base start keys n i w) (hw : s.Elsewhere base w w')
    (hplain : Plain w'.disk (w'.absolute s.dir) base) (htrouble : w'.trouble = w.trouble)
    (hheld : w'.held = w.held) (hdrawn : w'.drawn = w.drawn) : s.Calm base w' keys n i w' where
  since := .refl w'
  flat := fun _ => id
  under := hw.under h.under
  tidy := h.tidy
  plain := hplain
  trouble := htrouble.trans h.trouble
  held := hheld.trans h.held
  drawn := hdrawn.trans h.drawn
  clock := by
    rw [hw.clock]
    exact h.clock
  locksDir := (hw.below _ (List.prefix_append base _)).trans h.locksDir
  taken := by
    intro key hkey
    rw [hw.below _ (below_lockLocation key)]
    exact h.taken key hkey
  free := by
    intro file
    rw [hw.below _ (List.append_assoc base _ _ ▸ List.prefix_append base _)]
    exact h.free file
  index := by
    rw [hw.below (indexLocation base) (List.prefix_append base _)]
    exact h.index
  isAt := by
    rw [SnapshotIndex.IsAt, hw.below (indexLocation base) (List.prefix_append base _)]
    exact h.isAt
  valid := h.valid

/-- Where nothing stands in the way, a snapshot is put back for certain. -/
theorem Calm.restore {start : World} {n : Nat} {i : SnapshotIndex} {l : Location}
    {content : ByteArray} (h : s.Calm base start [] n i w)
    (hcopy : t.HasCopy s.dir base content w.disk) (hchecksum : Digest.blake3 content = t.checksum)
    (hplace : IsPlace w t.source l) (hout : ¬ base <+: l) :
    (s.restore t).Yields w fun _ _ => True := by
  have hlocked : s.Calm base start [t.source] n i (SnapshotStore.locked base t.source w) :=
    h.locked (isNewKey_nil _)
  have hput := h.within_locked (isNewKey_nil t.source)
  have hread : (SnapshotStore.locked base t.source w).disk.read
      ((SnapshotStore.locked base t.source w).absolute t.location) = .ok content :=
    (hcopy.frame hput.frame (List.mem_singleton_self t) fun _ => isSpare_of_region).read
      hlocked.under
  have hthere : IsPlace (SnapshotStore.locked base t.source w) t.source l := by
    refine hplace.frame h.under (hput.mono fun _ hl => hl.below) ?_
    refine Disk.at?_put_of_ne w.disk _ ?_
    rintro rfl
    exact hout (below_lockLocation t.source)
  refine (h.runs (P := fun _ _ => True) (isNewKey_nil _) ?_).mono fun _ _ _ => trivial
  refine (World.yields_readBytes hlocked.trouble hread).mapError.bind ?_
  rintro _ _ ⟨rfl, rfl⟩
  dsimp only
  rw [if_neg (not_not.mpr hchecksum)]
  refine (hthere.writeFile hlocked.trouble).mapError.bind ?_
  rintro _ w₁ ⟨htrouble, hwritten⟩
  refine (World.yields_readBytes htrouble hwritten).mapError.bind ?_
  rintro _ _ ⟨rfl, rfl⟩
  rw [if_neg (not_not.mpr rfl)]
  exact Act.yields_pure trivial

/-! ## Where a copy is -/

/-- What holds of all that an action returns holds of it under a lock too. -/
theorem withLock_returns {α : Type} {locks : FileLocks} {key : Path} {a : Act SnapshotError α}
    {P : α → Prop} (ha : ∀ w, a.Ends w fun r _ => ∀ x, r = .ok x → P x) :
    (locks.withLock key a).Ends w fun r _ => ∀ x, r = .ok x → P x := by
  rw [Act.ends_iff, FileLocks.withLock, Act.apply, Act.ofFun]
  split
  · rintro _ ⟨⟩
  · exact Act.ends_iff.mp (ha _)

theorem updateIndex_returns {α : Type} {P : α → Prop}
    {f : SnapshotIndex → Act SnapshotError (α × SnapshotIndex)}
    (hf : ∀ i w, (f i).Ends w fun r _ => ∀ x, r = .ok x → P x.1) :
    (s.updateIndex f).Ends w fun r _ => ∀ x, r = .ok x → P x := by
  refine withLock_returns fun w₁ => Act.ends_trivial.bind (fun i w₂ _ => ?_) ?_
  · refine (hf i w₂).bind (fun x w₃ hx => ?_) ?_
    · obtain ⟨a, j⟩ := x
      refine Act.ends_trivial.bind (fun _ w₄ _ => Act.ends_pure ?_) ?_
      · rintro _ ⟨⟩
        exact hx _ rfl
      · rintro _ _ _ _ ⟨⟩
    · rintro _ _ _ _ ⟨⟩
  · rintro _ _ _ _ ⟨⟩

/-- A copy is always made right in the directory of the store. -/
theorem create_returns_location (file : Path) : (s.create file).Ends w fun r _ =>
    ∀ t, r = .ok t → ∃ name, IsCopyName name ∧ t.location = s.dir ++ name := by
  have hrecord (source : Path) (w : World) : (s.record source).Ends w fun r _ =>
      ∀ t, r = .ok t → ∃ name, IsCopyName name ∧ t.location = s.dir ++ name := by
    refine withLock_returns fun w₁ => Act.ends_trivial.bind (fun bytes w₂ _ => ?_) ?_
    · refine World.ends_readClock_bind (Act.ends_look_bind ?_)
      obtain ⟨n, hn⟩ := locationFor_candidate s source (w₂.clock w₂.readings)
        { w₂ with readings := w₂.readings + 1 }
      rw [hn]
      refine Act.ends_trivial.bind (fun _ w₃ _ => ?_) ?_
      · refine (updateIndex_returns (P := fun t : Snapshot =>
          t.location = s.dir ++ candidate (copyName source (w₂.clock w₂.readings)) n)
          fun i w₄ => ?_).outcome.bind (fun r w₄ hr => ?_) fun e w₄ he => he.elim
        · refine World.ends_drawId_bind (Act.ends_pure ?_)
          rintro _ ⟨⟩
          rfl
        · cases r with
          | ok t =>
            refine Act.ends_pure ?_
            rintro _ ⟨⟩
            exact ⟨_, isCopyName_candidate _ _ n, hr t rfl⟩
          | error e =>
            refine Act.ends_trivial.bind (fun _ w₅ _ => Act.ends_throw ?_) ?_
            · rintro _ ⟨⟩
            · rintro _ _ _ _ ⟨⟩
      · rintro _ _ _ _ ⟨⟩
    · rintro _ _ _ _ ⟨⟩
  rw [create]
  refine Act.ends_look_bind (Act.ends_look_bind ?_)
  split
  · refine (hrecord _ w).bind (fun t w₁ ht => ?_) ?_
    · refine Act.ends_trivial.bind (fun _ w₂ _ => Act.ends_pure ?_) ?_
      · rintro _ ⟨⟩
        exact ht t rfl
      · rintro _ _ _ _ ⟨⟩
    · rintro _ _ _ _ ⟨⟩
  · refine Act.ends_throw ?_
    rintro _ ⟨⟩

end SnapshotStore

/-- The identifiers to draw are the same, and none has been put back. -/
structure World.DrawsOn (w w' : World) : Prop where
  ids : w'.ids = w.ids
  drawn : w.drawn ≤ w'.drawn

theorem World.Within.drawsOn {touched : Location → Prop} {w w' : World} {pinned : List Uid}
    (h : Within touched w { w' with pinned }) : w.DrawsOn w' :=
  ⟨h.ids, h.drawn⟩

namespace Custody

variable {c : Custody} {w w' : World} {i : SnapshotIndex}

/-- What is kept without a guard stays kept, whatever operation is asked for. -/
theorem Kept.run (h : c.Kept w i) (htrue : c.Truthful w) (hsets : ∀ u, c.setFact u)
    (hfree : ∀ t content, ¬ c.guarded t content) {op : SnapshotStore.Op}
    (hop : op.Clears c.store c.base w) :
    (∃ j, c.Kept (op.run c.store w) j) ∧ w.DrawsOn (op.run c.store w) := by
  have hleads {new : List Snapshot} {w' : World} (h : c.Leads new w i w') :
      (∃ j, c.Kept w' j) ∧ w.DrawsOn w' := by
    obtain ⟨hw, j, hkept, -⟩ := h
    exact ⟨⟨j, hkept⟩, hw.ids, hw.drawn⟩
  cases op with
  | create file =>
    have hcreate := (h.create htrue file).mono
      (Q := fun _ w' => (∃ j, c.Kept w' j) ∧ w.DrawsOn w') ?_
    · exact Act.ends_iff.mp hcreate
    · rintro (e | t) w' hw'
      · obtain ⟨new, hw'⟩ := hw'
        exact hleads hw'
      · exact hleads hw'.leads
  | createSet files =>
    have hcreate := (h.createSet htrue files).mono
      (Q := fun _ w' => (∃ j, c.Kept w' j) ∧ w.DrawsOn w') ?_
    · exact Act.ends_iff.mp hcreate
    · rintro (e | set) w' hw'
      · obtain ⟨new, hw'⟩ := hw'
        exact hleads hw'
      · obtain ⟨new, j, htaken⟩ := hw'
        exact ⟨⟨j, htaken.kept.withSets fun u _ => hsets u⟩, htaken.pinned.within.drawsOn⟩
  | retain file keep => exact hleads (Act.ends_iff.mp (h.retain file keep)).leads
  | restore t =>
    have hback := Act.ends_iff.mp (h.restore hop)
    exact ⟨⟨i, hback.kept⟩, hback.within.ids, hback.within.drawn⟩
  | markRestored id => exact hleads (Act.ends_iff.mp (h.markRestored id))
  | releaseSet id =>
    have hrelease : (c.store.releaseSet id : Act SnapshotError Unit).Ends w fun _ w' =>
        Within c.Below w { w' with pinned := w.pinned } ∧ c.Kept w' i :=
      h.releaseSet id fun _ _ _ t content ht => absurd ht (hfree t content)
    obtain ⟨hw, hkept⟩ := Act.ends_iff.mp hrelease
    exact ⟨⟨i, hkept⟩, hw.drawsOn⟩
  | delete id =>
    exact hleads (Act.ends_iff.mp (h.delete fun t content ht => absurd ht (hfree t content))).leads

theorem Kept.move (h : c.Kept w i) (htrue : c.Truthful w) (hsets : ∀ u, c.setFact u)
    (hfree : ∀ t content, ¬ c.guarded t content) (hmove : c.store.Moves c.base w w') :
    (∃ j, c.Kept w' j) ∧ w.DrawsOn w' := by
  cases hmove with
  | op op hop => exact h.run htrue hsets hfree hop
  | locks hw => exact ⟨⟨i, h.within_region hw⟩, hw.ids, hw.drawn⟩
  | elsewhere hw => exact ⟨⟨i, h.elsewhere hw⟩, hw.ids, hw.drawn⟩

end Custody

namespace SnapshotStore

variable {s : SnapshotStore} {base : Location} {t : Snapshot} {w w' v v' : World}
  {i : SnapshotIndex} {f : Path} {content : ByteArray}

/-- The custody of a store in which a certain snapshot, where it is there, has a copy of certain
bytes. -/
def recordedCustody (s : SnapshotStore) (base : Location) (t : Snapshot) (content : ByteArray) :
    Custody :=
  { s.custody base with
    fact := fun u bytes => Digest.blake3 bytes = u.checksum ∧ (u = t → bytes = content) }

/-- A snapshot that was just taken has the bytes of its file. -/
theorem kept_of_create (h : s.InOrder base w i)
    (hold : ∀ u ∈ i.snapshots, ∀ n, w.drawn ≤ n → u.id ≠ w.ids n)
    (hfile : Outside base w (w.identity f) content) (hrun : (s.create f).apply w = (.ok t, w')) :
    t.source = w.identity f ∧ ∃ j, (s.recordedCustody base t content).Kept w' j := by
  have hcreated := (Custody.Kept.create h (truthful_custody s base w) f).of_apply hrun
  have hsource := hcreated.source
  obtain ⟨n, hn, -, hid⟩ := hcreated.drawn
  have hkept : (s.recordedCustody base t content).Kept w i := by
    refine Custody.Kept.demand h (fun u hu bytes hfact => ⟨hfact, ?_⟩) (fun _ _ => trivial)
      (fun _ _ hg => hg.elim) (fun _ _ hg => hg.elim) (fun _ _ hg => hg.elim)
      fun _ _ hg => hg.elim
    rintro rfl
    exact absurd hid (hold u hu n hn)
  have htrue : (s.recordedCustody base t content).Truthful w := by
    intro u bytes d hchecksum hrecorded hread
    refine ⟨hchecksum.symm, ?_⟩
    rintro rfl
    rw [hsource, hfile.read h.under hrecorded.frame] at hread
    exact (Except.ok.inj hread).symm
  obtain ⟨-, j, hkept', -⟩ := ((hkept.create htrue f).of_apply hrun).leads
  exact ⟨hsource, j, hkept'⟩

/-- Its copy keeps these bytes, as long as its identifier is not drawn again. -/
theorem kept_of_moves {j : SnapshotIndex} (h : (s.recordedCustody base t content).Kept w j)
    (hnew : ∀ n, w.drawn ≤ n → w.ids n ≠ t.id)
    (hmoves : Relation.ReflTransGen (s.Moves base) w v) :
    (∃ k, (s.recordedCustody base t content).Kept v k) ∧ w.DrawsOn v := by
  induction hmoves with
  | refl => exact ⟨⟨j, h⟩, rfl, Nat.le_refl _⟩
  | @tail u v _ hmove ih =>
    obtain ⟨⟨k, hk⟩, hids, hdrawn⟩ := ih
    have htrue : (s.recordedCustody base t content).Truthful u := by
      intro x bytes d hchecksum hrecorded hread
      refine ⟨hchecksum.symm, ?_⟩
      rintro rfl
      obtain ⟨n, hn, hid⟩ := hrecorded.drawn
      rw [hids] at hid
      exact absurd hid.symm (hnew n (Nat.le_trans hdrawn hn))
    obtain ⟨hkept, hids', hdrawn'⟩ := hk.move htrue (fun _ => trivial) (fun _ _ hg => hg) hmove
    exact ⟨hkept, hids'.trans hids, Nat.le_trans hdrawn hdrawn'⟩

/-- The failures that come up before a file is written: its lock cannot be had, or its copy cannot
be read or has another checksum. -/
inductive IsEarly (s : SnapshotStore) (t : Snapshot) : SnapshotError → Prop
  | locked (key : Path) : IsEarly s t (.locked key)
  | noLocks (cause : SystemError) : IsEarly s t (.io s.locks.dir cause)
  | noLock (cause : SystemError) : IsEarly s t (.io (s.locks.fileOf t.source) cause)
  | unread (cause : SystemError) : IsEarly s t (.io t.location cause)
  | differs (expected actual : String) : IsEarly s t (.checksumMismatch t.location expected actual)

theorem not_isLate_io {path : Path} (hne : path ≠ t.source) (cause : SystemError) :
    ¬ IsLate t (.io path cause) := by
  generalize he : SnapshotError.io path cause = e
  rintro (_ | _)
  · exact hne (SnapshotError.io.inj he).1
  · cases he

theorem not_isLate_mismatch {path : Path} (hne : path ≠ t.source) (expected actual : String) :
    ¬ IsLate t (.checksumMismatch path expected actual) := by
  generalize he : SnapshotError.checksumMismatch path expected actual = e
  rintro (_ | _)
  · cases he
  · exact hne (SnapshotError.checksumMismatch.inj he).1

theorem IsEarly.not_isLate {e : SnapshotError} (he : IsEarly s t e)
    (h : s.locks.Under s.dir base w) (hfile : Outside base w t.source content) {name : String}
    (hname : IsName name) (hlocation : t.location = s.dir ++ name) : ¬ IsLate t e := by
  obtain ⟨l, mode, modified, hl, hout, -⟩ := hfile.found
  -- the file is none of the store's own
  have hinside {other : String} (hother : IsName other) : s.dir ++ other ≠ t.source := by
    intro heq
    rw [← heq] at hl
    obtain ⟨rfl, -⟩ := (h.locate_name hother).mp hl
    exact hout (List.prefix_append base _)
  have hcopy : t.location ≠ t.source := hlocation ▸ hinside hname
  cases he with
  | locked key => rintro ⟨⟩
  | noLocks cause => exact not_isLate_io (h.dir_eq ▸ hinside FileLocks.isName_locks) cause
  | noLock cause =>
    refine not_isLate_io (fun heq => ?_) cause
    rw [← heq] at hl
    exact hout (h.region hl).below
  | unread cause => exact not_isLate_io hcopy cause
  | differs expected actual => exact not_isLate_mismatch hcopy expected actual

/-- A snapshot of a file is put back as it was taken.  While it is in the index, whatever the store
has done since and whatever has become of the file, putting it back gives the file the bytes it
had, and succeeds where nothing stands in the way.  Whatever has become of the store, its copy is
not put back under the strict policy unless it has the recorded checksum, and a failure before the
file is written leaves the file as it is. -/
theorem recorded_bytes_are_put_back (h : s.InOrder base w i)
    (hold : ∀ u ∈ i.snapshots, ∀ n, w.drawn ≤ n → u.id ≠ w.ids n)
    (hfile : Outside base w (w.identity f) content) (hrun : (s.create f).apply w = (.ok t, w'))
    (hnew : ∀ n, w'.drawn ≤ n → w'.ids n ≠ t.id) (hunder : s.locks.Under s.dir base v)
    (hclear : (s.custody base).Clear v t.source) :
    t.source = w.identity f ∧ (s.restore t).Ends v fun r v' =>
      (∀ k : SnapshotIndex, Relation.ReflTransGen (s.Moves base) w' v → k.IsAt base v.disk →
        t ∈ k.snapshots → (r = .ok () → v'.disk.read (v'.absolute t.source) = .ok content) ∧
          ∀ n l, s.Calm base v [] n k v → IsPlace v t.source l → r = .ok ()) ∧
      (s.policy = .strict → r = .ok () → ∃ bytes,
        v.disk.read (v.absolute t.location) = .ok bytes ∧ Digest.blake3 bytes = t.checksum) ∧
      ∀ e bytes, r = .error e → IsEarly s t e → Outside base v t.source bytes →
        v'.disk.read (v'.absolute t.source) = .ok bytes := by
  obtain ⟨hsource, j, hkept⟩ := kept_of_create h hold hfile hrun
  obtain ⟨name, hname, hlocation⟩ := (create_returns_location f).of_apply hrun t rfl
  refine ⟨hsource, ?_⟩
  refine (restore_puts_back hunder hclear hname.isName hlocation).and_apply.mono ?_
  rintro r v' ⟨hback, hrestore⟩
  refine ⟨fun k hmoves hk ht => ?_, fun hstrict hr => ?_, fun e bytes hr he hthere => ?_⟩
  · obtain ⟨⟨k', hkept'⟩, -⟩ := kept_of_moves hkept hnew hmoves
    obtain rfl := hkept'.isAt.unique hk
    obtain ⟨bytes, hcopy, hchecksum, hcontent⟩ := hkept'.copies t ht
    obtain rfl := hcontent rfl
    refine ⟨fun hr => ?_, fun n l hcalm hplace => ?_⟩
    · obtain ⟨bytes', hread, -, hout⟩ := hback.content hr
      rw [hcopy.read hunder] at hread
      cases hread
      exact hout.read hback.under (.refl _)
    · have hout : ¬ base <+: l :=
        (hclear l ⟨v.disk, .refl _, hplace.plain.locate_congr hplace.located⟩).1
      obtain ⟨_, hr, -⟩ := (hcalm.restore hcopy hchecksum hplace hout).of_apply hrestore
      exact hr
  · obtain ⟨bytes, hread, hchecksum, -⟩ := hback.content hr
    exact ⟨bytes, hread, hchecksum hstrict⟩
  · have hlate : ¬ IsLate t e := by
      rw [← hsource] at hfile
      exact he.not_isLate h.under hfile hname.isName hlocation
    have hv : Within (Region base) v v' := hback.early e hr hlate
    rw [hv.absolute]
    exact hthere.read hunder (hv.frame.mono fun _ hl => hl.below)

/-! ## A file beside a store -/

/-- A world without links whose working directory is the root and in which the file is there. -/
structure HasFile (w : World) (content : ByteArray) : Prop where
  directory : w.directory = ⟨"/"⟩
  noLinks : ∀ l target, w.disk.at? l ≠ some (.link target)
  file : ∃ mode modified, w.disk.at? ["A"] = some (.file content mode modified)

/-- The world in which the file has other bytes. -/
def overwritten (content : ByteArray) (w : World) : World :=
  { w with disk := w.disk.put ["A"] (.file content 0o644 1) }

theorem hasFile_emptyWorld : HasFile emptyWorld "a".toUTF8 :=
  ⟨rfl, noLinks_emptyWorld, 0o644, 0, rfl⟩

section HasFile

variable {old : ByteArray} (h : HasFile w old)

include h

theorem HasFile.within (hw : Within (["s"] <+: ·) w w') : HasFile w' old where
  directory := hw.directory.trans h.directory
  noLinks := fun l target hlink => h.noLinks l target (hw.frame.link l target hlink)
  file := by
    obtain ⟨mode, modified, hat⟩ := h.file
    exact ⟨mode, modified, hw.frame.eq_of_some (by decide) hat⟩

theorem HasFile.within_overwritten (content : ByteArray) :
    Within (· = ["A"]) w (overwritten content w) := by
  obtain ⟨mode, modified, hat⟩ := h.file
  refine .ofDisk (Frame.put_file (by decide) ?_ _ _ _) w.trouble
  rw [hat]
  rintro ⟨⟩

theorem HasFile.overwritten (content : ByteArray) : HasFile (overwritten content w) content where
  directory := h.directory
  noLinks := fun l target hlink =>
    h.noLinks l target ((h.within_overwritten content).frame.link l target hlink)
  file := ⟨_, _, Disk.at?_put_self _ _ _ (by decide)⟩

theorem HasFile.absolute {p : Path} (hp : p.isAbsolute = true) : w.absolute p = p := by
  rw [World.absolute, h.directory]
  exact Path.join_of_absolute _ hp

theorem HasFile.elsewhere (hunder : selfStore.locks.Under selfStore.dir ["s"] w)
    (content : ByteArray) : selfStore.Elsewhere ["s"] w (SnapshotStore.overwritten content w) where
  directory := rfl
  clock := rfl
  ids := rfl
  drawn := Nat.le_refl _
  pinned := rfl
  way := by
    refine (hunder.tree.frame (h.within_overwritten content).frame ?_).located
    rintro m hm rfl
    obtain ⟨target, hat⟩ := Disk.mem_linksTo hm
    exact h.noLinks _ target hat
  below := by
    intro l hl
    refine Disk.at?_put_of_ne w.disk _ ?_
    rintro rfl
    exact absurd hl (by decide)

theorem HasFile.isPlace : IsPlace w ⟨"/A"⟩ ["A"] := by
  obtain ⟨mode, modified, hfile⟩ := h.file
  have hpath : w.absolute ⟨"/A"⟩ = ⟨"/A"⟩ := h.absolute rfl
  have hroot : w.absolute ⟨"/"⟩ = ⟨"/"⟩ := h.absolute rfl
  have hnames : (Path.mk "/A").components = [.root, .normal "A"] := by decide
  refine ⟨?_, ?_, ?_, ?_, ?_, ⟨"/"⟩, [], by decide, by decide, ?_, ?_, rfl⟩
  · rw [hpath]
    exact ⟨hnames, fun m _ _ => h.noLinks m⟩
  · rw [hpath]
    refine Disk.locate_eq_ok_iff.mpr ⟨by decide, by decide, ?_, fun hmeans => ?_⟩
    · have hsize : ¬ "A".utf8ByteSize > Disk.maxNameBytes := by decide
      rw [hnames]
      simp [Disk.walk, Disk.walkFrom, hfile, hsize]
    · exact absurd hmeans (by decide)
  · rw [hpath]
    decide
  · rw [hpath]
    decide
  · rw [hfile]
    rintro ⟨⟩
  · rw [hroot]
    exact ⟨by decide, fun m _ _ => h.noLinks m⟩
  · rw [hroot]
    rfl

theorem HasFile.identity : w.identity ⟨"/A"⟩ = ⟨"/A"⟩ := by
  obtain ⟨mode, modified, hat⟩ := h.file
  rw [World.identity_of_entry (by decide) h.isPlace.located hat]
  decide +kernel

theorem HasFile.outside : Outside ["s"] w ⟨"/A"⟩ old := by
  obtain ⟨mode, modified, hat⟩ := h.file
  exact ⟨["A"], mode, modified, h.isPlace.located, by decide, hat⟩

theorem HasFile.clear : (selfStore.custody ["s"]).Clear w ⟨"/A"⟩ :=
  Custody.clear_of_plain h.isPlace.plain (show ¬ ["s"] <+: ["A"] by decide)

theorem HasFile.calm {start : World} {n : Nat} (hcalm : selfStore.Calm ["s"] start [] n i w)
    (content : ByteArray) : selfStore.Calm ["s"] (SnapshotStore.overwritten content w) [] n i
      (SnapshotStore.overwritten content w) :=
  hcalm.elsewhere (h.elsewhere hcalm.under content)
    (hcalm.plain.frame (h.within_overwritten content).frame) rfl rfl rfl

end HasFile

/-- The file that was written over has its old bytes again. -/
theorem old_bytes_are_put_back : ∃ t w' v,
    (selfStore.create ⟨"/A"⟩).apply emptyWorld = (.ok t, w') ∧
      (overwritten "b".toUTF8 w').disk.read ⟨"/A"⟩ = .ok "b".toUTF8 ∧
      (selfStore.restore t).apply (overwritten "b".toUTF8 w') = (.ok (), v) ∧
      v.disk.read (v.absolute ⟨"/A"⟩) = .ok "a".toUTF8 := by
  obtain ⟨t, w', hrun, ht, hcalm, hsound⟩ := create_emptyWorld
  have hfile := hasFile_emptyWorld.within hcalm.since
  have hfile' := hfile.overwritten "b".toUTF8
  have helsewhere := hfile.elsewhere hcalm.under "b".toUTF8
  have hcalm' := hfile.calm hcalm "b".toUTF8
  have hfresh : ∀ n, w'.drawn ≤ n → w'.ids n ≠ t.id := by
    intro n hn
    rw [hcalm.drawn] at hn
    rw [hcalm.since.ids, ht.id]
    change Uid.ofNat (min n 3) ≠ Uid.ofNat 0
    obtain hn | hn | hn : min n 3 = 1 ∨ min n 3 = 2 ∨ min n 3 = 3 := by omega
    all_goals
      rw [hn]
      decide
  have hinOrder : selfStore.InOrder ["s"] emptyWorld .empty := inOrder_of_no_index
    under_emptyWorld (fun _ => isReading_stoppedTime) (at?_emptyWorld (by decide))
  have houtside : Outside ["s"] emptyWorld (emptyWorld.identity ⟨"/A"⟩) "a".toUTF8 :=
    hasFile_emptyWorld.outside
  obtain ⟨-, hrestore⟩ := recorded_bytes_are_put_back hinOrder
    (fun _ hu => absurd hu List.not_mem_nil) houtside hrun hfresh (helsewhere.under hcalm.under)
    (ht.source ▸ hfile'.clear)
  rcases hv : (selfStore.restore t).apply (overwritten "b".toUTF8 w') with ⟨r, v⟩
  obtain ⟨hround, -, -⟩ := hrestore.of_apply hv
  obtain ⟨hread, hcertain⟩ := hround (SnapshotIndex.empty.add t) (.single (.elsewhere helsewhere))
    hcalm'.isAt (List.mem_singleton_self t)
  obtain rfl := hcertain 1 ["A"] hcalm' (ht.source ▸ hfile'.isPlace)
  refine ⟨t, w', v, hrun, ?_, hv, ht.source ▸ hread rfl⟩
  have hthere := hfile'.outside.read hcalm'.under (.refl _)
  rwa [hfile'.absolute rfl] at hthere

theorem blake3_ne : Digest.blake3 "a".toUTF8 ≠ Digest.blake3 "b".toUTF8 := by
  decide +kernel

/-- The file gets a snapshot again, under the name of the copy that was dropped. -/
theorem create_again {start : World} {u : Snapshot} (hfile : HasFile w "b".toUTF8)
    (hcalm : selfStore.Calm ["s"] start [] 2 i w) (hclock : w.clock = emptyWorld.clock)
    (hsound : selfStore.Sound ["s"] [] w i) (hi : i.snapshots = [u])
    (hfree : w.disk.at? (["s"] ++ [copyOfFile]) = none) :
    ∃ t w', (selfStore.create ⟨"/A"⟩).apply w = (.ok t, w') ∧ t.source = ⟨"/A"⟩ ∧
      t.location = selfStore.dir ++ copyOfFile ∧ t.checksum = Digest.blake3 "b".toUTF8 ∧
      selfStore.Calm ["s"] w [] 3 (i.add t) w' ∧ selfStore.Sound ["s"] [] w' (i.add t) := by
  have hidentity := hfile.identity
  have hsettled : Settled ["s"] w (w.identity ⟨"/A"⟩) "b".toUTF8 := by
    rw [hidentity]
    exact hfile.outside.settled
  have huncopied : IsUncopied ["s"] w (w.identity ⟨"/A"⟩) := by
    rw [hidentity]
    exact isUncopied_of_free hclock hfree
  have hkey : IsNewKey [w.identity ⟨"/A"⟩] selfStore.indexFile := by
    rw [hidentity]
    exact isNewKey_selfStore
  have hroom : i.snapshots.length < selfStore.kept := by
    rw [hi]
    exact Nat.one_lt_two
  rcases hrun : (selfStore.create ⟨"/A"⟩).apply w with ⟨r, w'⟩
  obtain ⟨t, rfl, ht, hcalm'⟩ := Act.Ends.of_apply
    (hcalm.fromNow.create hsettled huncopied hkey hroom) hrun
  rw [hidentity] at ht
  have hlocation : t.location = selfStore.dir ++ copyOfFile := by
    rw [ht.location, hclock]
    exact congrArg (selfStore.dir ++ ·) copyName_file
  have hsound' := (stays_create _).sound hsound hrun hcalm'
  exact ⟨t, w', rfl, ht.source, hlocation, ht.checksum, hcalm', hsound'⟩

/-- A snapshot is not put back any more once the copy of another one has been put back over its
own copy. -/
theorem bytes_lost_with_copy : selfStore.IsEmpty ["s"] emptyWorld ∧
    ∃ (t₀ u t : Snapshot) (w₁ w₂ w₃ w₄ w₅ w₆ : World) (e : SnapshotError) (i : SnapshotIndex),
    (selfStore.create ⟨"/A"⟩).apply emptyWorld = (.ok t₀, w₁) ∧
      (selfStore.create t₀.location).apply w₁ = (.ok u, w₂) ∧
      (selfStore.delete t₀.id).apply w₂ = (.ok (), w₃) ∧
      (selfStore.create ⟨"/A"⟩).apply (overwritten "b".toUTF8 w₃) = (.ok t, w₄) ∧
      (selfStore.restore u).apply w₄ = (.ok (), w₅) ∧ i.IsAt ["s"] w₅.disk ∧ t ∈ i.snapshots ∧
      (selfStore.restore t).apply (overwritten "c".toUTF8 w₅) = (.error e, w₆) ∧
      w₆.disk.read ⟨"/A"⟩ = .ok "c".toUTF8 := by
  obtain ⟨t₀, u, w₁, w₂, w₃, i, hrun₁, hrun₂, hrun₃, hsource, hlocation, hchecksum, hi, hcalm₃,
    hsound₃⟩ := exists_copyOfCopy
  have hfree := hsound₃.free hcalm₃ isCopyName_copyOfFile (by decide) fun v hv => by
    rw [hi, List.mem_singleton] at hv
    rw [hv, hlocation]
    exact copyOfFile_ne.symm
  -- the file is written over and gets its snapshot
  have hfile₃ := hasFile_emptyWorld.within hcalm₃.since
  have helsewhere := hfile₃.elsewhere hcalm₃.under "b".toUTF8
  have hcalm := hfile₃.calm hcalm₃ "b".toUTF8
  have hfile := hfile₃.overwritten "b".toUTF8
  obtain ⟨j, hj⟩ := hsound₃.moves (.elsewhere helsewhere) hcalm₃.trouble
  have hsound : selfStore.Sound ["s"] [] (overwritten "b".toUTF8 w₃) i :=
    hj.kept.isAt.unique hcalm.isAt ▸ hj
  have hthere : (overwritten "b".toUTF8 w₃).disk.at? (["s"] ++ [copyOfFile]) = none :=
    (helsewhere.below _ (List.prefix_append _ _)).trans hfree
  obtain ⟨t, w₄, hrun₄, htsource, htlocation, htchecksum, hcalm₄, hsound₄⟩ :=
    create_again hfile hcalm hcalm₃.since.clock hsound hi hthere
  -- the copy of the copy is put back over the new copy
  have hu : u ∈ (i.add t).snapshots := List.mem_append_left _ (hi ▸ List.mem_singleton_self u)
  obtain ⟨content, hcopy, hcopied, -⟩ := hsound₄.kept.copies u hu
  have hdirectory : w₄.disk.at? (["s"] ++ [copyOfFile]) ≠ some .directory := by
    intro hat
    have hstart := hcalm₄.flat copyOfFile hat
    rw [hthere] at hstart
    cases hstart
  rcases hrun₅ : (selfStore.restore u).apply w₄ with ⟨r, w₅⟩
  obtain ⟨_, rfl, hcalm₅, -, mode, modified, hat⟩ := Act.Ends.of_apply
    (hcalm₄.restoreWithin isCopyName_copyOfFile.isName fits_copyOfFile hsource hcopy hcopied
      hdirectory (Or.inr ⟨isCopyName_copyOfFile.ne_index, rfl⟩) hcalm₄.valid) hrun₅
  -- so the new copy has the wrong checksum
  have hfile₅ := hfile.within hcalm₅.since
  have hfile₆ := hfile₅.overwritten "c".toUTF8
  have helsewhere₅ := hfile₅.elsewhere hcalm₅.under "c".toUTF8
  have hunder := helsewhere₅.under hcalm₅.under
  have hread : (overwritten "c".toUTF8 w₅).disk.read
      ((overwritten "c".toUTF8 w₅).absolute t.location) = .ok content := by
    rw [htlocation]
    refine Disk.read_eq_ok_iff.mpr ⟨_, mode, modified,
      (hunder.locate_name isCopyName_copyOfFile.isName).mpr ⟨rfl, fits_copyOfFile⟩, ?_⟩
    exact (helsewhere₅.below _ (List.prefix_append _ _)).trans hat
  have hother : ∀ bytes, (overwritten "c".toUTF8 w₅).disk.read
      ((overwritten "c".toUTF8 w₅).absolute t.location) = .ok bytes →
        Digest.blake3 bytes ≠ t.checksum := by
    intro bytes hbytes heq
    rw [hread] at hbytes
    cases hbytes
    rw [hcopied, hchecksum, htchecksum] at heq
    exact blake3_ne heq
  rcases hrun₆ : (selfStore.restore t).apply (overwritten "c".toUTF8 w₅) with ⟨r, w₆⟩
  have hback := (restore_puts_back hunder (htsource ▸ hfile₆.clear)
    isCopyName_copyOfFile.isName htlocation).of_apply hrun₆
  cases r with
  | ok _ =>
    obtain ⟨bytes, hbytes, hright, -⟩ := hback.content rfl
    exact absurd (hright rfl) (hother bytes hbytes)
  | error e =>
    have hw₆ := (hback.checked rfl hother).mono fun _ hl => hl.below
    have hthere₆ := (hfile₆.within hw₆).outside.read (hunder.within hw₆ fun _ hl => hl) (.refl _)
    rw [(hfile₆.within hw₆).absolute rfl] at hthere₆
    exact ⟨isEmpty_selfStore, t₀, u, t, w₁, w₂, w₃, w₄, w₅, w₆, e, _, hrun₁, hrun₂, hrun₃, hrun₄,
      hrun₅, hcalm₅.isAt, List.mem_append_right _ (List.mem_singleton_self t), hrun₆, hthere₆⟩

end SnapshotStore

end Amend
