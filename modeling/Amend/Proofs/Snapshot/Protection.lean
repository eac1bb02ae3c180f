import Mathlib.Logic.Relation
import Amend.Proofs.Snapshot.Calm
import Amend.Proofs.Snapshot.Restore

/-!
# The members of a set stay

A store in order stays in order under all its operations.  Once the set of some files is taken, its
members stay in the index and their copies stay as they are, whatever the store does and whatever
happens elsewhere, until the set is released: retention passes over them because they are pinned,
what fails gives up only snapshots of its own, and other sets have other members.
-/

namespace Amend

open World (Within)
open FileLocks (Region)

namespace SnapshotStore

/-! ## Stores in order -/

/-- A store whose snapshots have the copies that their checksums tell of. -/
def custody (s : SnapshotStore) (base : Location) : Custody where
  store := s
  base
  fact := fun t content => Digest.blake3 content = t.checksum
  setFact := fun _ => True
  guarded := fun _ _ => False

/-- A store in order, with its directory at a location and with an index. -/
def InOrder (s : SnapshotStore) (base : Location) (w : World) (i : SnapshotIndex) : Prop :=
  (s.custody base).Kept w i

/-- What an operation of a store may be asked for. -/
inductive Op where
  | create (file : Path)
  | createSet (files : List Path)
  | retain (file : Path) (keep : Nat)
  | restore (t : Snapshot)
  | markRestored (id : Uid)
  | releaseSet (id : Uid)
  | delete (id : Uid)

/-- The world that an operation leaves, whether it succeeds or not. -/
def Op.run (s : SnapshotStore) (w : World) : Op → World
  | .create file => ((s.create file).apply w).2
  | .createSet files => ((s.createSet files).apply w).2
  | .retain file keep => ((s.retain file keep).apply w).2
  | .restore t => ((s.restore t).apply w).2
  | .markRestored id => ((s.markRestored id).apply w).2
  | .releaseSet id => ((s.releaseSet id : Act SnapshotError Unit).apply w).2
  | .delete id => ((s.delete id).apply w).2

/-- Something happens that the store does not notice: its directory is found where it was and holds
what it held, and the process has neither released nor drawn identifiers back. -/
structure Elsewhere (s : SnapshotStore) (base : Location) (w w' : World) : Prop where
  directory : w'.directory = w.directory
  clock : w'.clock = w.clock
  ids : w'.ids = w.ids
  drawn : w.drawn ≤ w'.drawn
  pinned : w'.pinned = w.pinned
  way : w'.disk.locate (w'.absolute s.dir) = .ok base
  below : ∀ l, base <+: l → w'.disk.at? l = w.disk.at? l

theorem Elsewhere.under {s : SnapshotStore} {base : Location} {w w' : World}
    (hw : s.Elsewhere base w w') (h : s.locks.Under s.dir base w) :
    s.locks.Under s.dir base w' where
  tree := by
    have habsolute : w'.absolute s.dir = w.absolute s.dir := by
      rw [World.absolute, hw.directory, World.absolute]
    refine ⟨habsolute ▸ h.tree.absolute, hw.way, ?_, fun l hl target => ?_⟩
    · rw [hw.below _ (List.prefix_refl _)]
      exact h.tree.isDirectory
    · rw [hw.below l hl]
      exact h.tree.noLinks l hl target
  dir_eq := h.dir_eq

/-- An operation that puts nothing back over the store. -/
def Op.Clears (s : SnapshotStore) (base : Location) (w : World) : Op → Prop
  | .restore t => (s.custody base).Clear w t.source
  | _ => True

/-- What may happen to a store in the course of time: operations of its own that put nothing back
over it, locks that are taken and given back, and anything elsewhere. -/
inductive Moves (s : SnapshotStore) (base : Location) : World → World → Prop
  | op {w : World} (op : Op) (h : op.Clears s base w) : Moves s base w (op.run s w)
  | locks {w w' : World} (h : Within (Region base) w w') : Moves s base w w'
  | elsewhere {w w' : World} (h : s.Elsewhere base w w') : Moves s base w w'

end SnapshotStore

namespace Custody

variable {c : Custody} {w w' : World} {i j : SnapshotIndex}

theorem Kept.elsewhere (h : c.Kept w i) (hw : c.store.Elsewhere c.base w w') : c.Kept w' i := by
  have hcopy {t : Snapshot} {content : ByteArray}
      (ht : t.HasCopy c.store.dir c.base content w.disk) :
      t.HasCopy c.store.dir c.base content w'.disk := by
    obtain ⟨name, mode, modified, hname, hfits, hlocation, hat⟩ := ht
    refine ⟨name, mode, modified, hname, hfits, hlocation, ?_⟩
    rw [hw.below _ (List.prefix_append c.base _), hat]
  have hindex : w'.disk.at? (indexLocation c.base) = w.disk.at? (indexLocation c.base) :=
    hw.below _ (List.prefix_append c.base _)
  exact {
    under := hw.under h.under
    clock := hw.clock ▸ h.clock
    isAt := by
      rw [SnapshotIndex.IsAt, hindex]
      exact h.isAt
    valid := h.valid
    copies := by
      intro t ht
      obtain ⟨content, hc, hfact⟩ := h.copies t ht
      exact ⟨content, hcopy hc, hfact⟩
    apart := h.apart
    sets := h.sets
    found := h.found
    guards := fun t content ht => hcopy (h.guards t content ht)
    pinned := hw.pinned ▸ h.pinned
    unused := fun t content ht n hn => by
      rw [hw.ids]
      exact h.unused t content ht n (Nat.le_trans hw.drawn hn) }

/-- Sets apart from one have no guarded members. -/
def Shields (c : Custody) (set : Uid) : Prop :=
  ∀ u, c.setFact u ↔ u.id = set ∨ ∀ t content, c.guarded t content → t.id ∉ u.members

theorem Kept.createSet_shields (h : c.Kept w i) (htrue : c.Truthful w) {set : Uid}
    (hshields : c.Shields set) (files : List Path) :
    (c.store.createSet files).Ends w fun _ w' => ∃ j, c.Kept w' j := by
  refine (h.createSet htrue files).mono ?_
  rintro (e | u) w' hw'
  · obtain ⟨new, -, j, hkept, -⟩ := hw'
    exact ⟨j, hkept⟩
  · obtain ⟨new, j, htaken⟩ := hw'
    refine ⟨j, htaken.kept.withSets fun v hv => ?_⟩
    rcases htaken.kept.sets v hv with hv | rfl
    · exact hv
    · refine (hshields v).mpr (Or.inr fun t content ht hmem => ?_)
      rw [htaken.members] at hmem
      obtain ⟨t', ht', hid⟩ := List.mem_map.mp hmem
      exact h.ne_of_drawn (htaken.taken.drawn t' ht') ht hid.symm

end Custody

namespace SnapshotStore

/-- An operation that leaves the members of a set alone: nothing is put back over the store, the
set is not released and no member is dropped by its name. -/
def Op.Spares (s : SnapshotStore) (set : SnapshotSet) (base : Location) (w : World) : Op → Prop
  | .restore t => (s.custody base).Clear w t.source
  | .releaseSet id => id ≠ set.id
  | .delete id => id ∉ set.members
  | _ => True

end SnapshotStore

namespace Custody

variable {c : Custody} {w w' : World} {i j : SnapshotIndex}

/-- One operation keeps what is to be kept. -/
theorem Kept.op (h : c.Kept w i) (htrue : c.Truthful w) {set : SnapshotSet}
    (hshields : c.Shields set.id) (hmembers : ∀ t content, c.guarded t content → t.id ∈ set.members)
    {op : SnapshotStore.Op} (hop : op.Spares c.store set c.base w) :
    ∃ j, c.Kept (op.run c.store w) j := by
  have hleads {new : List Snapshot} {w' : World} (h : c.Leads new w i w') :
      ∃ j, c.Kept w' j := by
    obtain ⟨-, j, hkept, -⟩ := h
    exact ⟨j, hkept⟩
  cases op with
  | create file =>
    have hcreate := (h.create htrue file).mono (Q := fun _ w' => ∃ j, c.Kept w' j) ?_
    · exact Act.ends_iff.mp hcreate
    · rintro (e | t) w' hw'
      · obtain ⟨new, hw'⟩ := hw'
        exact hleads hw'
      · exact hleads hw'.leads
  | createSet files => exact Act.ends_iff.mp (h.createSet_shields htrue hshields files)
  | retain file keep => exact hleads (Act.ends_iff.mp (h.retain file keep)).leads
  | restore t => exact ⟨i, (Act.ends_iff.mp (h.restore hop)).kept⟩
  | markRestored id => exact hleads (Act.ends_iff.mp (h.markRestored id))
  | releaseSet id =>
    have hrelease : (c.store.releaseSet id : Act SnapshotError Unit).Ends w fun _ w' =>
        Within c.Below w { w' with pinned := w.pinned } ∧ c.Kept w' i := by
      refine h.releaseSet id fun u hu hid => ?_
      rcases (hshields u).mp (h.sets u hu) with heq | hnot
      · exact absurd (hid.symm.trans heq) hop
      · exact hnot
    exact ⟨i, (Act.ends_iff.mp hrelease).2⟩
  | delete id =>
    refine hleads (Act.ends_iff.mp (h.delete fun t content ht heq => ?_)).leads
    exact hop (heq ▸ hmembers t content ht)

/-- What is kept stays kept when certain snapshots are guarded as well, if they are where they
should be. -/
theorem Kept.guard (h : c.Kept w i) {guarded : Snapshot → ByteArray → Prop}
    {setFact : SnapshotSet → Prop} (hsets : ∀ u ∈ i.sets, setFact u)
    (hfound : ∀ t content, guarded t content → i.find? t.id = some t)
    (hguards : ∀ t content, guarded t content → t.HasCopy c.store.dir c.base content w.disk)
    (hpinned : ∀ t content, guarded t content → t.id ∈ w.pinned)
    (hunused : ∀ t content, guarded t content → ∀ n, w.drawn ≤ n → w.ids n ≠ t.id) :
    Kept { c with guarded, setFact } w i :=
  ⟨h.under, h.clock, h.isAt, h.valid, h.copies, h.apart, hsets, hfound, hguards, hpinned, hunused⟩

end Custody

namespace SnapshotStore

variable {s : SnapshotStore} {base : Location} {w w' : World} {i : SnapshotIndex}

theorem truthful_custody (s : SnapshotStore) (base : Location) (w : World) :
    (s.custody base).Truthful w :=
  fun _ _ _ hchecksum _ _ => hchecksum.symm

/-- A store without an index is in order: it has no snapshots yet. -/
theorem inOrder_of_no_index (hunder : s.locks.Under s.dir base w)
    (hclock : ∀ n, (w.clock n).IsReading)
    (hnone : w.disk.at? (indexLocation base) = none) : s.InOrder base w .empty where
  under := hunder
  clock := hclock
  isAt := by
    refine Or.inr ⟨fun content mode modified hat => ?_, rfl⟩
    exact absurd (hnone.symm.trans hat) nofun
  valid := SnapshotIndex.isValid_empty
  copies := nofun
  apart := List.Pairwise.nil
  sets := nofun
  found := nofun
  guards := nofun
  pinned := nofun
  unused := nofun

/-- Every operation leaves a store in order, if nothing of the store itself is put back over. -/
theorem InOrder.op (h : s.InOrder base w i) {set : SnapshotSet} {op : Op}
    (hop : op.Spares s set base w) : ∃ j, s.InOrder base (op.run s w) j :=
  Custody.Kept.op h (truthful_custody s base w) (fun _ => ⟨fun _ => Or.inr nofun, fun _ => trivial⟩)
    nofun hop

/-! ## While a set is not released -/

/-- What may happen while a set is not released: operations of the store that spare it, and
anything elsewhere. -/
inductive Step (s : SnapshotStore) (base : Location) (set : SnapshotSet) : World → World → Prop
  | op {w : World} (op : Op) (h : op.Spares s set base w) : Step s base set w (op.run s w)
  | elsewhere {w w' : World} (h : s.Elsewhere base w w') : Step s base set w w'

/-- The members that are in the index when a set has been taken. -/
def Members (s : SnapshotStore) (base : Location) (set : SnapshotSet) (w : World)
    (i : SnapshotIndex) (t : Snapshot) (content : ByteArray) : Prop :=
  t.id ∈ set.members ∧ i.find? t.id = some t ∧ t.HasCopy s.dir base content w.disk

/-- The members of a set in the custody of a store. -/
def memberCustody (s : SnapshotStore) (base : Location) (set : SnapshotSet) (w : World)
    (i : SnapshotIndex) : Custody :=
  { s.custody base with
    guarded := s.Members base set w i
    setFact := fun u => u.id = set.id ∨ ∀ t content, s.Members base set w i t content →
      t.id ∉ u.members }

/-- Once the set is taken, its members are guarded. -/
theorem kept_of_createSet {files : List Path} {set : SnapshotSet} (h : s.InOrder base w i)
    (hold : ∀ n, w.drawn ≤ n → ∀ u ∈ i.sets, w.ids n ∉ u.members)
    (hrun : (s.createSet files).apply w = (.ok set, w'))
    (hnew : ∀ n, w'.drawn ≤ n → w'.ids n ∉ set.members) :
    ∃ j, (s.memberCustody base set w' j).Kept w' j := by
  -- no set that is there has a member with an identifier to come
  have hkept : ((s.custody base).withSets fun u => ∀ n, w.drawn ≤ n → w.ids n ∉ u.members).Kept
      w i := h.withSets fun u hu n hn => hold n hn u hu
  obtain ⟨new, j, htaken⟩ :=
    (hkept.createSet (fun _ _ _ hchecksum _ _ => hchecksum.symm) files).of_apply hrun
  have hdrawn : ∀ id ∈ set.members, ∃ n, w.drawn ≤ n ∧ id = w.ids n := by
    intro id hid
    rw [htaken.members] at hid
    obtain ⟨t, ht, rfl⟩ := List.mem_map.mp hid
    obtain ⟨n, hn, -, heq⟩ := htaken.taken.drawn t ht
    exact ⟨n, hn, heq⟩
  refine ⟨j, (Custody.Kept.guard htaken.kept (fun u hu => ?_) (fun t content ht => ht.2.1)
    (fun t content ht => ht.2.2) (fun t content ht => ?_) fun t content ht n hn heq => ?_)⟩
  · rcases htaken.kept.sets u hu with hu | rfl
    · refine Or.inr fun t content ht hmem => ?_
      obtain ⟨n, hn, heq⟩ := hdrawn t.id ht.1
      exact hu n hn (heq ▸ hmem)
    · exact Or.inl rfl
  · rw [htaken.pinned.pinned]
    exact List.mem_append_right _ ht.1
  · exact hnew n hn (heq ▸ ht.1)

/-- The members of a set stay in the index, and their copies stay as they are, for as long as the
set is not released. -/
theorem members_stay_until_released {files : List Path} {set : SnapshotSet} {w'' : World}
    {j : SnapshotIndex} (h : s.InOrder base w i)
    (hold : ∀ n, w.drawn ≤ n → ∀ u ∈ i.sets, w.ids n ∉ u.members)
    (hrun : (s.createSet files).apply w = (.ok set, w'))
    (hnew : ∀ n, w'.drawn ≤ n → w'.ids n ∉ set.members)
    (hlater : Relation.ReflTransGen (s.Step base set) w' w'') (hindex : j.IsAt base w'.disk)
    {t : Snapshot} (ht : t.id ∈ set.members) (hfound : j.find? t.id = some t) :
    ∃ content, Digest.blake3 content = t.checksum ∧
      w'.disk.read (w'.absolute t.location) = .ok content ∧
      w''.disk.read (w''.absolute t.location) = .ok content ∧
      ∃ k : SnapshotIndex, k.IsAt base w''.disk ∧ k.find? t.id = some t := by
  obtain ⟨j', hkept⟩ := kept_of_createSet h hold hrun hnew
  obtain rfl := hkept.isAt.unique hindex
  obtain ⟨content, hcopy, hfact⟩ := hkept.copies t (SnapshotIndex.mem_of_find? hfound).1
  have hlast : ∃ k, (s.memberCustody base set w' j').Kept w'' k := by
    induction hlater with
    | refl => exact ⟨j', hkept⟩
    | tail _ hstep ih =>
      obtain ⟨k, hk⟩ := ih
      cases hstep with
      | op op hop =>
        exact hk.op (fun _ _ _ hchecksum _ _ => hchecksum.symm) (fun _ => Iff.rfl)
          (fun t content ht => ht.1) hop
      | elsewhere hw => exact ⟨k, hk.elsewhere hw⟩
  obtain ⟨k, hk⟩ := hlast
  have hmember : s.Members base set w' j' t content := ⟨ht, hfound, hcopy⟩
  exact ⟨content, hfact, hcopy.read hkept.under, (hk.guards t content hmember).read hk.under, k,
    hk.isAt, hk.found t content hmember⟩

/-! ## A store that holds a copy of its own index -/

/-- The time that a stopped clock shows. -/
def stoppedTime : Timestamp := ⟨2024, 5, 6, 7, 8, 9, 0⟩

/-- A store in a directory of its own. -/
def selfStore : SnapshotStore where
  dir := ⟨"/s"⟩
  kept := 2
  policy := .strict
  locks := { dir := ⟨"/s/locks"⟩, staleMs := 1000 }

/-- The snapshot of the index from the time when it was empty. -/
def selfSnapshot : Snapshot where
  id := .ofNat 2
  source := ⟨"/s/index.json"⟩
  location := ⟨"/s/old"⟩
  checksum := Digest.blake3 SnapshotIndex.empty.encode
  createdAt := stoppedTime
  size := 2
  sequence := 0

/-- The index with that snapshot. -/
def selfIndex : SnapshotIndex := SnapshotIndex.empty.add selfSnapshot

/-- The world of that store, with a file that has no snapshot. -/
def selfWorld : World where
  disk := ⟨[(["s"], .directory), (["s", "locks"], .directory),
    (["s", "index.json"], .file selfIndex.encode 0o600 0),
    (["s", "old"], .file SnapshotIndex.empty.encode 0o600 0),
    (["A"], .file "a".toUTF8 0o644 0)]⟩
  directory := ⟨"/"⟩
  clock := fun _ => stoppedTime
  ids := fun n => .ofNat (min n 1)
  pinned := [selfSnapshot.id]

theorem isReading_stoppedTime : stoppedTime.IsReading := ⟨by decide, by decide, by decide⟩

theorem isValid_selfIndex : selfIndex.IsValid :=
  SnapshotIndex.isValid_empty.add ⟨isReading_stoppedTime, by decide, by decide⟩

theorem noLinks_selfWorld (l : Location) (target : Path) :
    selfWorld.disk.at? l ≠ some (.link target) := by
  refine Disk.noLinks_of_entries (fun p hp target => ?_) l target
  simp only [selfWorld, List.mem_cons, List.not_mem_nil, or_false] at hp
  rcases hp with rfl | rfl | rfl | rfl | rfl <;> exact nofun

theorem under_selfStore : selfStore.locks.Under selfStore.dir ["s"] selfWorld where
  tree := ⟨rfl, rfl, rfl, fun l _ => noLinks_selfWorld l⟩
  dir_eq := rfl

theorem calm_selfStore : selfStore.Calm ["s"] selfWorld [] 0 selfIndex selfWorld where
  since := .refl _
  flat := fun _ => id
  under := under_selfStore
  tidy := ⟨by decide, by decide, by decide⟩
  plain := ⟨rfl, fun m _ _ => noLinks_selfWorld m⟩
  trouble := rfl
  held := rfl
  drawn := rfl
  clock := fun _ => isReading_stoppedTime
  locksDir := rfl
  taken := fun _ hk => absurd hk List.not_mem_nil
  free := fun file => Or.inl (by simp [Disk.at?, selfWorld, List.lookup_cons])
  index := by
    change some (Entry.file _ _ _) ≠ some .directory
    intro heq
    cases heq
  isAt := Or.inl ⟨selfIndex.encode, 0o600, 0, rfl, SnapshotIndex.decode?_encode isValid_selfIndex⟩
  valid := isValid_selfIndex

/-- The custody of that store, with its own old index under guard. -/
def selfCustody : Custody :=
  { selfStore.custody ["s"] with
    guarded := fun t content => t = selfSnapshot ∧ content = SnapshotIndex.empty.encode }

theorem hasCopy_selfSnapshot : selfSnapshot.HasCopy selfStore.dir ["s"] SnapshotIndex.empty.encode
    selfWorld.disk :=
  ⟨"old", 0o600, 0, ⟨Path.isName_of_two_lt (by decide) (by decide), by decide⟩,
    ⟨by decide, by decide⟩, rfl, rfl⟩

theorem ids_selfWorld_ne (n : Nat) : selfWorld.ids n ≠ selfSnapshot.id := by
  change Uid.ofNat (min n 1) ≠ Uid.ofNat 2
  obtain hn | hn : min n 1 = 0 ∨ min n 1 = 1 := by omega
  all_goals
    rw [hn]
    decide

theorem kept_selfStore : selfCustody.Kept selfWorld selfIndex where
  under := under_selfStore
  clock := fun _ => isReading_stoppedTime
  isAt := calm_selfStore.isAt
  valid := isValid_selfIndex
  copies := by
    intro t ht
    rw [List.mem_singleton.mp ht]
    exact ⟨_, hasCopy_selfSnapshot, rfl⟩
  apart := List.pairwise_singleton _ _
  sets := nofun
  found := by
    rintro _ _ ⟨rfl, -⟩
    exact List.find?_cons_of_pos (by simp)
  guards := by
    rintro _ _ ⟨rfl, rfl⟩
    exact hasCopy_selfSnapshot
  pinned := by
    rintro _ _ ⟨rfl, -⟩
    exact List.mem_singleton_self _
  unused := by
    rintro _ _ ⟨rfl, -⟩ n -
    exact ids_selfWorld_ne n

theorem inOrder_selfStore : selfStore.InOrder ["s"] selfWorld selfIndex :=
  kept_selfStore.guard (fun _ _ => trivial) nofun nofun nofun nofun

theorem find?_selfIndex {t : Snapshot} (hid : t.id = .ofNat 0) (set : SnapshotSet) :
    ((selfIndex.add t).addSet set).find? t.id = some t := by
  have hne : selfSnapshot.id ≠ t.id := by
    rw [hid]
    decide
  change List.find? _ [selfSnapshot, t] = some t
  rw [List.find?_cons_of_neg (by simpa using hne), List.find?_cons_of_pos (by simp)]

theorem outside_selfWorld :
    Outside ["s"] selfWorld (selfWorld.identity ⟨"/A"⟩) "a".toUTF8 :=
  ⟨["A"], 0o644, 0, rfl, by decide, rfl⟩

theorem isUncopied_selfWorld : IsUncopied ["s"] selfWorld (selfWorld.identity ⟨"/A"⟩) := by
  intro m
  change Fits (copyName ⟨"/A"⟩ stoppedTime) ∧
    selfWorld.disk.at? (["s"] ++ [copyName ⟨"/A"⟩ stoppedTime]) = none
  have hname : copyName ⟨"/A"⟩ stoppedTime = "A.backup.20240506T070809.000000000Z" := rfl
  rw [hname]
  exact ⟨⟨by decide, by decide⟩, rfl⟩

theorem isNewKey_selfStore : IsNewKey [selfWorld.identity ⟨"/A"⟩] selfStore.indexFile := by
  have hidentity : selfWorld.identity ⟨"/A"⟩ = ⟨"/A"⟩ := rfl
  intro k hk
  rw [List.mem_singleton.mp hk, hidentity]
  exact ⟨by decide, by decide +kernel⟩

/-- The set of the file is taken, with its snapshot as the only member. -/
theorem createSet_selfStore : ∃ set w' t,
    (selfStore.createSet [⟨"/A"⟩]).apply selfWorld = (.ok set, w') ∧ set.members = [t.id] ∧
      t.id = .ofNat 0 ∧ selfStore.Calm ["s"] w' [] 2 ((selfIndex.add t).addSet set) w' ∧
      w'.ids = selfWorld.ids ∧
      selfSnapshot.HasCopy selfStore.dir ["s"] SnapshotIndex.empty.encode w'.disk := by
  rcases hrun : (selfStore.createSet [⟨"/A"⟩]).apply selfWorld with ⟨r, w'⟩
  obtain ⟨set, rfl, t, ht, hmembers, hcalm⟩ := Act.Ends.of_apply
    (calm_selfStore.createSet outside_selfWorld.settled isUncopied_selfWorld isNewKey_selfStore
      Nat.one_lt_two) hrun
  obtain ⟨new, j, htaken⟩ := (kept_selfStore.createSet
    (fun _ _ _ hchecksum _ _ => hchecksum.symm) [⟨"/A"⟩]).of_apply hrun
  exact ⟨set, w', t, rfl, hmembers, ht.id, hcalm.fromNow, htaken.pinned.within.ids,
    htaken.kept.guards selfSnapshot _ ⟨rfl, rfl⟩⟩

/-- Retention that would keep nothing leaves the member of the set alone. -/
theorem member_stays_under_retention : ∃ set w' t,
    (selfStore.createSet [⟨"/A"⟩]).apply selfWorld = (.ok set, w') ∧ t.id ∈ set.members ∧
      ∃ content, Digest.blake3 content = t.checksum ∧
        w'.disk.read (w'.absolute t.location) = .ok content ∧
        ((Op.retain ⟨"/A"⟩ 0).run selfStore w').disk.read
          (((Op.retain ⟨"/A"⟩ 0).run selfStore w').absolute t.location) = .ok content ∧
        ∃ k : SnapshotIndex, k.IsAt ["s"] ((Op.retain ⟨"/A"⟩ 0).run selfStore w').disk ∧
          k.find? t.id = some t := by
  obtain ⟨set, w', t, hrun, hmembers, hid, hcalm, hids, -⟩ := createSet_selfStore
  have hmember : t.id ∈ set.members := by
    rw [hmembers]
    exact List.mem_singleton_self _
  have hnew : ∀ n, w'.drawn ≤ n → w'.ids n ∉ set.members := by
    intro n hn hmem
    rw [hmembers, hids, hid] at hmem
    rw [hcalm.drawn] at hn
    have hone : min n 1 = 1 := by omega
    have hdrawn : selfWorld.ids n = .ofNat 1 := congrArg Uid.ofNat hone
    rw [hdrawn] at hmem
    exact absurd (List.mem_singleton.mp hmem) (by decide)
  exact ⟨set, w', t, hrun, hmember, members_stay_until_released inOrder_selfStore (nofun) hrun hnew
    (.single (.op (.retain ⟨"/A"⟩ 0) trivial)) hcalm.isAt hmember (find?_selfIndex hid set)⟩

/-- A store that puts an old copy of its own index back loses the member of the set. -/
theorem member_lost_with_index : selfStore.InOrder ["s"] selfWorld selfIndex ∧
    ∃ (set : SnapshotSet) (w' : World) (t : Snapshot) (j : SnapshotIndex),
    (selfStore.createSet [⟨"/A"⟩]).apply selfWorld = (.ok set, w') ∧ t.id ∈ set.members ∧
      j.IsAt ["s"] w'.disk ∧ j.find? t.id = some t ∧
      ∀ k : SnapshotIndex, k.IsAt ["s"] ((Op.restore selfSnapshot).run selfStore w').disk →
        k.find? t.id = none := by
  obtain ⟨set, w', t, hrun, hmembers, hid, hcalm, -, hcopy⟩ := createSet_selfStore
  have hmember : t.id ∈ set.members := by
    rw [hmembers]
    exact List.mem_singleton_self _
  refine ⟨inOrder_selfStore, set, w', t, _, hrun, hmember, hcalm.isAt, find?_selfIndex hid set, ?_⟩
  intro k hk
  obtain ⟨_, -, hrestored, -⟩ := Act.ends_iff.mp
    (hcalm.restoreIndex rfl hcopy rfl SnapshotIndex.isValid_empty)
  rw [hk.unique hrestored.isAt]
  rfl

end SnapshotStore

end Amend
