import Amend.Snapshot.Store
import Amend.Proofs.Snapshot.Index
import Amend.Proofs.Snapshot.Lock

/-!
# What a store keeps

Every snapshot of the index has a copy of its own in the directory of the store, under a name that
is neither that of the index nor that of another copy.  This, and what is promised about some of
the snapshots and about the sets, is kept by every action that touches neither the index nor the
copies, and by every orderly change of the index.
-/

namespace Amend

open Disk (Frame Tree)
open Path (IsName)
open World (Within)
open FileLocks (Under Region)

/-! ## Copies -/

/-- The name of a copy in the directory of a store. -/
structure IsCopyName (name : String) : Prop where
  isName : IsName name
  ne_index : name ≠ "index.json"

/-- The location of the index of a store. -/
def indexLocation (base : Location) : Location := base ++ ["index.json"]

/-- A name that a file can have. -/
def Fits (name : String) : Prop :=
  name.utf8ByteSize ≤ Disk.maxNameBytes ∧ '\x00' ∉ name.toList

/-- A snapshot whose copy is on the disk, with its content. -/
def Snapshot.HasCopy (t : Snapshot) (dir : Path) (base : Location) (content : ByteArray)
    (d : Disk) : Prop :=
  ∃ name mode modified, IsCopyName name ∧ Fits name ∧ t.location = dir ++ name ∧
    d.at? (base ++ [name]) = some (.file content mode modified)

/-- A location that holds the copy of none of some snapshots, nor the index. -/
structure IsSpare (dir : Path) (base : Location) (ss : List Snapshot) (l : Location) : Prop where
  ne_index : l ≠ indexLocation base
  ne_copy : ∀ t ∈ ss, ∀ name, IsName name → t.location = dir ++ name → l ≠ base ++ [name]

section Copies

variable {dir : Path} {base : Location} {ss : List Snapshot} {l : Location}

theorem ne_concat_of_region {base l : Location} (h : Region base l) (name : String) :
    l ≠ base ++ [name] := by
  obtain ⟨file, rfl⟩ := h
  intro heq
  cases List.append_cancel_left heq

theorem isSpare_of_region (h : Region base l) : IsSpare dir base ss l where
  ne_index := ne_concat_of_region h _
  ne_copy := fun _ _ name _ _ => ne_concat_of_region h name

/-- A location outside the directory of a store holds nothing of it. -/
theorem isSpare_of_not_below (h : ¬ base <+: l) : IsSpare dir base ss l where
  ne_index := by
    rintro rfl
    exact h (List.prefix_append base _)
  ne_copy := by
    rintro t - name - - rfl
    exact h (List.prefix_append base _)

theorem Snapshot.HasCopy.frame {t : Snapshot} {content : ByteArray} {d d' : Disk}
    {touched : Location → Prop} (h : t.HasCopy dir base content d) (hframe : Frame touched d d')
    (ht : t ∈ ss) (hspare : ∀ l, touched l → IsSpare dir base ss l) :
    t.HasCopy dir base content d' := by
  obtain ⟨name, mode, modified, hname, hfits, hlocation, hat⟩ := h
  refine ⟨name, mode, modified, hname, hfits, hlocation, hframe.eq_of_some (fun htouched => ?_) hat⟩
  exact (hspare _ htouched).ne_copy t ht name hname.isName hlocation rfl

/-- The copy of a snapshot is what is read at its location. -/
theorem Snapshot.HasCopy.read {t : Snapshot} {content : ByteArray} {locks : FileLocks} {w : World}
    (h : t.HasCopy dir base content w.disk) (hunder : locks.Under dir base w) :
    w.disk.read (w.absolute t.location) = .ok content := by
  obtain ⟨name, mode, modified, hname, hfits, hlocation, hat⟩ := h
  rw [hlocation]
  exact Disk.read_eq_ok_iff.mpr
    ⟨_, mode, modified, (hunder.locate_name hname.isName).mpr ⟨rfl, hfits⟩, hat⟩

end Copies

/-! ## The index on the disk -/

/-- What a store takes for its index: what the file says, and nothing where there is no file. -/
def SnapshotIndex.IsAt (i : SnapshotIndex) (base : Location) (d : Disk) : Prop :=
  (∃ content mode modified, d.at? (indexLocation base) = some (.file content mode modified) ∧
    SnapshotIndex.decode? content = some i) ∨
  (∀ content mode modified, d.at? (indexLocation base) ≠ some (.file content mode modified)) ∧
    i = .empty

/-- There is only one index at a time. -/
theorem SnapshotIndex.IsAt.unique {i j : SnapshotIndex} {base : Location} {d : Disk}
    (h : i.IsAt base d) (h' : j.IsAt base d) : i = j := by
  rcases h with ⟨content, mode, modified, hat, hdecode⟩ | ⟨hnofile, hempty⟩
  · rcases h' with ⟨content', mode', modified', hat', hdecode'⟩ | ⟨hnofile', -⟩
    · rw [hat] at hat'
      cases hat'
      rw [hdecode] at hdecode'
      exact Option.some.inj hdecode'
    · exact absurd hat (hnofile' content mode modified)
  · rcases h' with ⟨content', mode', modified', hat', -⟩ | ⟨-, hempty'⟩
    · exact absurd hat' (hnofile content' mode' modified')
    · rw [hempty, hempty']

theorem SnapshotIndex.IsAt.frame {i : SnapshotIndex} {base : Location} {d d' : Disk}
    {touched : Location → Prop} (h : i.IsAt base d) (hframe : Frame touched d d')
    (hindex : ¬ touched (indexLocation base)) : i.IsAt base d' := by
  rcases h with ⟨content, mode, modified, hat, hdecode⟩ | ⟨hnofile, hempty⟩
  · exact Or.inl ⟨content, mode, modified, hframe.eq_of_some hindex hat, hdecode⟩
  · refine Or.inr ⟨fun content mode modified hat => ?_, hempty⟩
    exact hnofile content mode modified (hframe.file_of_file hindex hat)

/-! ## Custody -/

/-- What is to be kept: a store whose directory is found at a location, what holds of the
snapshots and their contents, what holds of the sets, and which snapshots must stay with which
content. -/
structure Custody where
  store : SnapshotStore
  base : Location
  fact : Snapshot → ByteArray → Prop
  setFact : SnapshotSet → Prop
  guarded : Snapshot → ByteArray → Prop

namespace Custody

/-- A world in which all is kept and the index is `i`.  A guarded snapshot is pinned, and its
identifier is not drawn again. -/
structure Kept (c : Custody) (w : World) (i : SnapshotIndex) : Prop where
  under : c.store.locks.Under c.store.dir c.base w
  clock : ∀ n, (w.clock n).IsReading
  isAt : i.IsAt c.base w.disk
  valid : i.IsValid
  copies : ∀ t ∈ i.snapshots, ∃ content,
    t.HasCopy c.store.dir c.base content w.disk ∧ c.fact t content
  apart : i.snapshots.Pairwise fun a b => a.location ≠ b.location
  sets : ∀ u ∈ i.sets, c.setFact u
  found : ∀ t content, c.guarded t content → i.find? t.id = some t
  guards : ∀ t content, c.guarded t content → t.HasCopy c.store.dir c.base content w.disk
  pinned : ∀ t content, c.guarded t content → t.id ∈ w.pinned
  unused : ∀ t content, c.guarded t content → ∀ n, w.drawn ≤ n → w.ids n ≠ t.id

variable {c : Custody} {w w' : World} {i j : SnapshotIndex} {touched : Location → Prop}

/-- The locations of the directory of the store. -/
def Below (c : Custody) (l : Location) : Prop := c.base <+: l

/-- What touches neither the index nor a copy changes nothing that is kept. -/
theorem Kept.within_of_under (h : c.Kept w i) (hw : Within touched w w')
    (hunder : c.store.locks.Under c.store.dir c.base w')
    (hspare : ∀ l, touched l → IsSpare c.store.dir c.base i.snapshots l) : c.Kept w' i where
  under := hunder
  clock := by
    rw [hw.clock]
    exact h.clock
  isAt := h.isAt.frame hw.frame fun ht => (hspare _ ht).ne_index rfl
  valid := h.valid
  copies := by
    intro t ht
    obtain ⟨content, hcopy, hfact⟩ := h.copies t ht
    exact ⟨content, hcopy.frame hw.frame ht hspare, hfact⟩
  apart := h.apart
  sets := h.sets
  found := h.found
  guards := fun t content hg => (h.guards t content hg).frame hw.frame
    (SnapshotIndex.mem_of_find? (h.found t content hg)).1 hspare
  pinned := by
    rw [hw.pinned]
    exact h.pinned
  unused := by
    intro t content hg n hn
    rw [hw.ids]
    exact h.unused t content hg n (Nat.le_trans hw.drawn hn)

theorem Kept.within (h : c.Kept w i) (hw : Within touched w w')
    (hbelow : ∀ l, touched l → c.Below l)
    (hspare : ∀ l, touched l → IsSpare c.store.dir c.base i.snapshots l) : c.Kept w' i :=
  h.within_of_under hw (h.under.within hw hbelow) hspare

theorem Kept.within_region (h : c.Kept w i) (hw : Within (Region c.base) w w') : c.Kept w' i :=
  h.within hw (fun _ hl => hl.below) fun _ hl => isSpare_of_region hl

/-! ## Changing the index -/

/-- A world in which another index was written. -/
structure Reindexed (base : Location) (w : World) (j : SnapshotIndex) (w' : World) : Prop where
  within : Within (fun l => Region base l ∨ l = indexLocation base) w w'
  isAt : ∃ mode modified,
    w'.disk.at? (indexLocation base) = some (.file j.encode mode modified)

theorem Reindexed.below {base : Location} (h : Reindexed base w j w') :
    Within (base <+: ·) w w' := by
  refine h.within.mono fun l hl => ?_
  rcases hl with hl | rfl
  · exact hl.below
  · exact List.prefix_append base _

theorem Reindexed.region {base : Location} (h : Reindexed base w j w') {w'' : World}
    (hw : Within (Region base) w' w'') : Reindexed base w j w'' where
  within := h.within.trans (hw.mono fun _ => Or.inl)
  isAt := by
    obtain ⟨mode, modified, hat⟩ := h.isAt
    exact ⟨mode, modified, hw.frame.eq_of_some (fun hl => ne_concat_of_region hl _ rfl) hat⟩

/-- The copies stay when the index is written. -/
theorem Reindexed.hasCopy (h : Reindexed c.base w j w') {t : Snapshot} {content : ByteArray}
    (ht : t.HasCopy c.store.dir c.base content w.disk) :
    t.HasCopy c.store.dir c.base content w'.disk := by
  obtain ⟨name, mode, modified, hname, hfits, hlocation, hat⟩ := ht
  refine ⟨name, mode, modified, hname, hfits, hlocation, ?_⟩
  refine h.within.frame.eq_of_some (fun hl => ?_) hat
  rcases hl with hl | hl
  · exact ne_concat_of_region hl name rfl
  · have heq : [name] = ["index.json"] := List.append_cancel_left hl
    exact hname.ne_index (List.cons.inj heq).1

/-- An index may be written whose snapshots have copies of their own and which has all that is
guarded. -/
theorem Kept.reindexed (h : c.Kept w i) (hw : Reindexed c.base w j w') (hvalid : j.IsValid)
    (hcopies : ∀ t ∈ j.snapshots, ∃ content,
      t.HasCopy c.store.dir c.base content w.disk ∧ c.fact t content)
    (hapart : j.snapshots.Pairwise fun a b => a.location ≠ b.location)
    (hsets : ∀ u ∈ j.sets, c.setFact u)
    (hfound : ∀ t content, c.guarded t content → j.find? t.id = some t) : c.Kept w' j where
  under := h.under.within hw.below fun _ hl => hl
  clock := by
    rw [hw.within.clock]
    exact h.clock
  isAt := by
    obtain ⟨mode, modified, hat⟩ := hw.isAt
    exact Or.inl ⟨j.encode, mode, modified, hat, SnapshotIndex.decode?_encode hvalid⟩
  valid := hvalid
  copies := by
    intro t ht
    obtain ⟨content, hcopy, hfact⟩ := hcopies t ht
    exact ⟨content, hw.hasCopy hcopy, hfact⟩
  apart := hapart
  sets := hsets
  found := hfound
  guards := fun t content hg => hw.hasCopy (h.guards t content hg)
  pinned := by
    rw [hw.within.pinned]
    exact h.pinned
  unused := by
    intro t content hg n hn
    rw [hw.within.ids]
    exact h.unused t content hg n (Nat.le_trans hw.within.drawn hn)

theorem Kept.drop (h : c.Kept w i) {id : Uid} (hw : Reindexed c.base w (i.drop id) w')
    (hid : ∀ t content, c.guarded t content → t.id ≠ id) : c.Kept w' (i.drop id) := by
  refine h.reindexed hw (h.valid.drop id) (fun t ht => h.copies t (List.mem_of_mem_eraseP ht))
    (h.apart.sublist List.eraseP_sublist) h.sets fun t content hg => ?_
  rw [SnapshotIndex.find?_drop_of_ne (hid t content hg)]
  exact h.found t content hg

theorem Kept.add (h : c.Kept w i) {t : Snapshot} (hw : Reindexed c.base w (i.add t) w')
    (ht : t.IsValid) (hcopy : ∃ content,
      t.HasCopy c.store.dir c.base content w.disk ∧ c.fact t content)
    (hnew : ∀ u ∈ i.snapshots, u.location ≠ t.location) : c.Kept w' (i.add t) := by
  refine h.reindexed hw (h.valid.add ht) (fun u hu => ?_) ?_ h.sets fun u content hg => ?_
  · rcases List.mem_append.mp hu with hu | hu
    · exact h.copies u hu
    · rwa [List.mem_singleton.mp hu]
  · refine List.pairwise_append.mpr ⟨h.apart, List.pairwise_singleton _ t, fun u hu v hv => ?_⟩
    rw [List.mem_singleton.mp hv]
    exact hnew u hu
  · exact SnapshotIndex.find?_add (h.found u content hg) t

theorem Kept.addSet (h : c.Kept w i) {u : SnapshotSet}
    (hw : Reindexed c.base w (i.addSet u) w') (hu : u.createdAt.IsReading) (hset : c.setFact u) :
    c.Kept w' (i.addSet u) := by
  refine h.reindexed hw (h.valid.addSet hu) h.copies h.apart (fun v hv => ?_) h.found
  rcases List.mem_append.mp hv with hv | hv
  · exact h.sets v hv
  · rwa [List.mem_singleton.mp hv]

theorem Kept.mark (h : c.Kept w i) {id : Uid} {t : Timestamp}
    (hw : Reindexed c.base w (i.mark id t) w') (ht : t.IsReading) : c.Kept w' (i.mark id t) :=
  h.reindexed hw (h.valid.mark id ht) h.copies h.apart h.sets h.found

/-! ## Changing what is to be kept -/

/-- What is kept stays kept when other things are demanded, if they hold. -/
theorem Kept.demand (h : c.Kept w i) {fact guarded : Snapshot → ByteArray → Prop}
    {setFact : SnapshotSet → Prop}
    (hfact : ∀ t ∈ i.snapshots, ∀ content, c.fact t content → fact t content)
    (hsets : ∀ u ∈ i.sets, setFact u)
    (hfound : ∀ t content, guarded t content → i.find? t.id = some t)
    (hguards : ∀ t content, guarded t content → t.HasCopy c.store.dir c.base content w.disk)
    (hpinned : ∀ t content, guarded t content → t.id ∈ w.pinned)
    (hunused : ∀ t content, guarded t content → ∀ n, w.drawn ≤ n → w.ids n ≠ t.id) :
    Kept { c with fact, guarded, setFact } w i where
  under := h.under
  clock := h.clock
  isAt := h.isAt
  valid := h.valid
  copies := by
    intro t ht
    obtain ⟨content, hcopy, hc⟩ := h.copies t ht
    exact ⟨content, hcopy, hfact t ht content hc⟩
  apart := h.apart
  sets := hsets
  found := hfound
  guards := hguards
  pinned := hpinned
  unused := hunused

/-- The same with other demands on the sets. -/
def withSets (c : Custody) (setFact : SnapshotSet → Prop) : Custody := { c with setFact }

theorem Kept.withSets (h : c.Kept w i) {setFact : SnapshotSet → Prop}
    (hsets : ∀ u ∈ i.sets, setFact u) : (c.withSets setFact).Kept w i :=
  ⟨h.under, h.clock, h.isAt, h.valid, h.copies, h.apart, hsets, h.found, h.guards, h.pinned,
    h.unused⟩

/-- More pins do no harm, nor do fewer as long as those of guarded snapshots stay. -/
theorem Kept.repin (h : c.Kept w i) {pinned : List Uid}
    (hpinned : ∀ t content, c.guarded t content → t.id ∈ pinned) :
    c.Kept { w with pinned } i :=
  ⟨⟨h.under.tree, h.under.dir_eq⟩, h.clock, h.isAt, h.valid, h.copies, h.apart, h.sets, h.found,
    h.guards, hpinned, h.unused⟩

end Custody

end Amend
