import Amend.Proofs.Snapshot.Sound

/-!
# The index and the copies agree from an empty store on

Whatever a store is asked for, its index tells of the copies that are in its directory and of no
others, unless something is put back over the store itself: a copy can have a snapshot like any
other file, and one that is put back after its own snapshot was dropped is a copy that no snapshot
has.
-/

namespace Amend

open World (Within)
open FileLocks (Region Under)

namespace SnapshotStore

variable {s : SnapshotStore} {base : Location} {w w' : World} {i j : SnapshotIndex}
  {t : Snapshot} {name : String}

/-! ## Any sequence of operations -/

/-- One operation leaves the index and the copies in agreement. -/
theorem Sound.run (h : s.Sound base [] w i) {op : Op} (hop : op.Clears s base w) :
    ∃ j, s.Sound base [] (op.run s w) j := by
  cases op with
  | create file => exact Act.ends_iff.mp (stays_create file w i h)
  | createSet files => exact Act.ends_iff.mp (stays_createSet files w i h)
  | retain file keep => exact Act.ends_iff.mp (stays_retain file keep w i h)
  | restore t => exact ⟨i, Act.ends_iff.mp (h.restore hop)⟩
  | markRestored id => exact Act.ends_iff.mp (stays_markRestored id w i h)
  | releaseSet id => exact Act.ends_iff.mp (stays_releaseSet id w i h)
  | delete id => exact Act.ends_iff.mp (stays_delete id w i h)

theorem Sound.moves (h : s.Sound base [] w i) (hmove : s.Moves base w w')
    (htrouble : w'.trouble = []) : ∃ j, s.Sound base [] w' j := by
  cases hmove with
  | op op hop => exact h.run hop
  | locks hw => exact ⟨i, h.region hw htrouble⟩
  | elsewhere hw =>
    refine ⟨i, h.kept.elsewhere hw, htrouble, fun hroom => ?_, h.marks, fun name _ _ _ hat => ?_⟩
    · obtain ⟨hnext, hnumbered⟩ := h.numbered (Nat.lt_of_le_of_lt hw.drawn hroom)
      exact ⟨Nat.le_trans hnext hw.drawn, hnumbered⟩
    · rw [hw.below _ (List.prefix_append base [name])] at hat
      exact h.owned name _ _ _ hat

/-- A store whose directory holds no file yet, where the system refuses nothing. -/
structure IsEmpty (s : SnapshotStore) (base : Location) (w : World) : Prop where
  under : s.locks.Under s.dir base w
  clock : ∀ n, (w.clock n).IsReading
  trouble : w.trouble = []
  noFile : ∀ name content mode modified,
    w.disk.at? (base ++ [name]) ≠ some (.file content mode modified)

theorem IsEmpty.sound (h : s.IsEmpty base w) : s.Sound base [] w .empty where
  kept := {
    under := h.under
    clock := h.clock
    isAt := Or.inr ⟨h.noFile "index.json", rfl⟩
    valid := SnapshotIndex.isValid_empty
    copies := nofun
    apart := .nil
    sets := nofun
    found := nofun
    guards := nofun
    pinned := nofun
    unused := nofun }
  trouble := h.trouble
  numbered := fun _ => ⟨Nat.zero_le _, SnapshotIndex.isNumbered_empty⟩
  marks := SnapshotIndex.marksOwn_empty
  owned := fun name content mode modified hat => absurd hat (h.noFile name content mode modified)

/-- The index on the disk and the copies agree: the snapshots are numbered in their order, each has
a copy of its own with the checksum and the size that it tells of, there are no other files in the
directory, and only snapshots of the index count as put back. -/
structure Agrees (s : SnapshotStore) (base : Location) (w : World) (i : SnapshotIndex) : Prop where
  isAt : i.IsAt base w.disk
  numbered : i.IsNumbered
  apart : i.snapshots.Pairwise fun a b => a.location ≠ b.location
  copies : ∀ t ∈ i.snapshots, ∃ name content, IsCopyName name ∧ t.location = s.dir ++ name ∧
    w.disk.read (w.absolute t.location) = .ok content ∧ Digest.blake3 content = t.checksum ∧
    t.size = MachineWord.wrap content.size
  owned : ∀ name content mode modified, name ≠ "index.json" →
    w.disk.at? (base ++ [name]) = some (.file content mode modified) →
    ∃ t ∈ i.snapshots, t.location = s.dir ++ name ∧
      ∀ u ∈ i.snapshots, u.location = s.dir ++ name → u = t
  marks : i.MarksOwn

theorem Sound.agrees (h : s.Sound base [] w i) (hroom : w.drawn < MachineWord.card) :
    s.Agrees base w i where
  isAt := h.kept.isAt
  numbered := (h.numbered hroom).2
  apart := h.kept.apart
  copies := by
    intro t ht
    obtain ⟨content, hcopy, hchecksum, hsize⟩ := h.kept.copies t ht
    have hread := hcopy.read h.under
    obtain ⟨name, -, -, hname, -, hlocation, -⟩ := hcopy
    exact ⟨name, content, hname, hlocation, hread, hchecksum, hsize⟩
  owned := by
    intro name content mode modified hindex hat
    obtain ⟨-, t, ht, hlocation⟩ :=
      ((h.owned name content mode modified hat).resolve_left hindex).resolve_left List.not_mem_nil
    refine ⟨t, ht, hlocation, fun u hu hother => ?_⟩
    have hsymm : Std.Symm fun a b : Snapshot => a.location ≠ b.location := ⟨fun _ _ => Ne.symm⟩
    by_contra hne
    exact h.kept.apart.forall hu ht hne (hother.trans hlocation.symm)
  marks := h.marks

/-- From an empty store on, whatever operations are asked for, succeed or fail, the index and the
copies agree between them, as long as nothing is put back over the store itself, the system refuses
nothing and the numbers have not been used up. -/
theorem index_and_copies_agree (h : s.IsEmpty base w)
    (hmoves : Relation.ReflTransGen (fun v v' => s.Moves base v v' ∧ v'.trouble = []) w w')
    (hroom : w'.drawn < MachineWord.card) : ∃ i, s.Agrees base w' i := by
  have hsound : ∃ i, s.Sound base [] w' i := by
    clear hroom
    induction hmoves with
    | refl => exact ⟨.empty, h.sound⟩
    | tail _ hstep ih =>
      obtain ⟨i, hi⟩ := ih
      exact hi.moves hstep.1 hstep.2
  obtain ⟨i, hi⟩ := hsound
  exact ⟨i, hi.agrees hroom⟩

/-! ## A store that puts a copy of one of its copies back -/

/-- The world of a store without snapshots, with one file beside it. -/
def emptyWorld : World where
  disk := ⟨[(["s"], .directory), (["s", "locks"], .directory),
    (["A"], .file "a".toUTF8 0o644 0)]⟩
  directory := ⟨"/"⟩
  clock := fun _ => stoppedTime
  ids := fun n => .ofNat (min n 3)

theorem noLinks_emptyWorld (l : Location) (target : Path) :
    emptyWorld.disk.at? l ≠ some (.link target) := by
  refine Disk.noLinks_of_entries (fun p hp target => ?_) l target
  simp only [emptyWorld, List.mem_cons, List.not_mem_nil, or_false] at hp
  rcases hp with rfl | rfl | rfl <;> exact nofun

theorem at?_emptyWorld {name : String} (hname : name ≠ "locks") :
    emptyWorld.disk.at? (["s"] ++ [name]) = none := by
  have hne : (name == "locks") = false := by simpa using hname
  simp [emptyWorld, Disk.at?, List.lookup_cons, hne]

theorem under_emptyWorld : selfStore.locks.Under selfStore.dir ["s"] emptyWorld where
  tree := ⟨rfl, rfl, rfl, fun l _ => noLinks_emptyWorld l⟩
  dir_eq := rfl

theorem isEmpty_selfStore : selfStore.IsEmpty ["s"] emptyWorld where
  under := under_emptyWorld
  clock := fun _ => isReading_stoppedTime
  trouble := rfl
  noFile := by
    intro name content mode modified hat
    by_cases hname : name = "locks"
    · rw [hname] at hat
      cases hat
    · rw [at?_emptyWorld hname] at hat
      cases hat

theorem calm_emptyWorld : selfStore.Calm ["s"] emptyWorld [] 0 .empty emptyWorld where
  since := .refl _
  flat := fun _ => id
  under := under_emptyWorld
  tidy := ⟨by decide, by decide, by decide⟩
  plain := ⟨rfl, fun m _ _ => noLinks_emptyWorld m⟩
  trouble := rfl
  held := rfl
  drawn := rfl
  clock := fun _ => isReading_stoppedTime
  locksDir := rfl
  taken := fun _ hk => absurd hk List.not_mem_nil
  free := fun file => Or.inl (by simp [Disk.at?, emptyWorld, List.lookup_cons])
  index := by
    rw [indexLocation, at?_emptyWorld (by decide)]
    rintro ⟨⟩
  isAt := isEmpty_selfStore.sound.kept.isAt
  valid := SnapshotIndex.isValid_empty

/-- The name of the copy of the file. -/
def copyOfFile : String := "A.backup.20240506T070809.000000000Z"

/-- The name of the copy of the copy. -/
def copyOfCopy : String := copyOfFile ++ ".backup.20240506T070809.000000000Z"

theorem isCopyName_copyOfFile : IsCopyName copyOfFile :=
  isCopyName_candidate ⟨"/A"⟩ stoppedTime 0

theorem isCopyName_copyOfCopy : IsCopyName copyOfCopy :=
  isCopyName_candidate (selfStore.dir ++ copyOfFile) stoppedTime 0

theorem copyName_file : copyName ⟨"/A"⟩ stoppedTime = copyOfFile := rfl

theorem copyName_copy : copyName (selfStore.dir ++ copyOfFile) stoppedTime = copyOfCopy := by
  decide +kernel

theorem fits_copyOfFile : Fits copyOfFile := ⟨by decide, by decide⟩

theorem fits_copyOfCopy : Fits copyOfCopy := ⟨by decide, by decide⟩

theorem path_copyOfFile : Location.path (["s"] ++ [copyOfFile]) = selfStore.dir ++ copyOfFile := by
  decide +kernel

theorem copyOfFile_ne : selfStore.dir ++ copyOfFile ≠ selfStore.dir ++ copyOfCopy := by
  decide +kernel

theorem isUncopied_of_free (hclock : w.clock = emptyWorld.clock)
    (hfree : w.disk.at? (["s"] ++ [copyOfFile]) = none) : IsUncopied ["s"] w ⟨"/A"⟩ := by
  intro m
  have hname : copyName ⟨"/A"⟩ (w.clock m) = copyOfFile := by
    rw [hclock]
    exact copyName_file
  rw [hname]
  exact ⟨fits_copyOfFile, hfree⟩

/-- A name is free that no snapshot uses. -/
theorem Sound.free (h : selfStore.Sound ["s"] [] w i) {keys : List Path} {n : Nat}
    (hcalm : selfStore.Calm ["s"] emptyWorld keys n i w) (hname : IsCopyName name)
    (hlocks : name ≠ "locks") (hnew : ∀ t ∈ i.snapshots, t.location ≠ selfStore.dir ++ name) :
    w.disk.at? (["s"] ++ [name]) = none := by
  cases hat : w.disk.at? (["s"] ++ [name]) with
  | none => rfl
  | some e =>
    cases e with
    | directory =>
      have hstart := hcalm.flat name hat
      rw [at?_emptyWorld hlocks] at hstart
      cases hstart
    | link target => exact absurd hat (h.under.tree.noLinks _ (List.prefix_append ["s"] _) target)
    | file content mode modified =>
      rcases h.owned name content mode modified hat with hindex | hspare | ⟨-, t, ht, hlocation⟩
      · exact absurd hindex hname.ne_index
      · exact absurd hspare List.not_mem_nil
      · exact absurd hlocation (hnew t ht)

/-- The index that a calm store has is the one that agrees with its copies. -/
theorem Stays.sound {α : Type} {a : Act SnapshotError α} {r : Except SnapshotError α}
    {start : World} {keys : List Path} {n : Nat} (ha : s.Stays base a) (h : s.Sound base [] w i)
    (hrun : a.apply w = (r, w')) (hcalm : s.Calm base start keys n j w') :
    s.Sound base [] w' j := by
  obtain ⟨k, hk⟩ := (ha w i h).of_apply hrun
  rwa [hk.kept.isAt.unique hcalm.isAt] at hk

/-- The file gets its first snapshot. -/
theorem create_emptyWorld : ∃ t w', (selfStore.create ⟨"/A"⟩).apply emptyWorld = (.ok t, w') ∧
    selfStore.IsRecord emptyWorld 0 ⟨"/A"⟩ "a".toUTF8 t ∧
      selfStore.Calm ["s"] emptyWorld [] 1 (SnapshotIndex.empty.add t) w' ∧
      selfStore.Sound ["s"] [] w' (SnapshotIndex.empty.add t) := by
  have hidentity : emptyWorld.identity ⟨"/A"⟩ = ⟨"/A"⟩ := rfl
  have hsettled : Settled ["s"] emptyWorld (emptyWorld.identity ⟨"/A"⟩) "a".toUTF8 :=
    ⟨["A"], 0o644, 0, rfl, fun h => absurd h.below (by decide), rfl⟩
  have huncopied : IsUncopied ["s"] emptyWorld (emptyWorld.identity ⟨"/A"⟩) := by
    rw [hidentity]
    exact isUncopied_of_free rfl (at?_emptyWorld (by decide))
  have hkey : IsNewKey [emptyWorld.identity ⟨"/A"⟩] selfStore.indexFile := isNewKey_selfStore
  rcases hrun : (selfStore.create ⟨"/A"⟩).apply emptyWorld with ⟨r, w'⟩
  obtain ⟨t, rfl, ht, hcalm⟩ := Act.Ends.of_apply
    (calm_emptyWorld.create hsettled huncopied hkey Nat.two_pos) hrun
  rw [hidentity] at ht
  have hsound := (stays_create ⟨"/A"⟩).sound isEmpty_selfStore.sound hrun hcalm
  exact ⟨t, w', rfl, ht, hcalm, hsound⟩

/-- The index and the copies agree when the first snapshot has been taken. -/
theorem agrees_after_create : ∃ t w', (selfStore.create ⟨"/A"⟩).apply emptyWorld = (.ok t, w') ∧
    selfStore.Agrees ["s"] w' (SnapshotIndex.empty.add t) := by
  obtain ⟨t, w', hrun, -, hcalm, -⟩ := create_emptyWorld
  have hw' : (Op.create ⟨"/A"⟩).run selfStore emptyWorld = w' := by
    rw [Op.run, hrun]
  have hmove : selfStore.Moves ["s"] emptyWorld ((Op.create ⟨"/A"⟩).run selfStore emptyWorld) :=
    .op _ trivial
  rw [hw'] at hmove
  have hroom : w'.drawn < MachineWord.card := by
    rw [hcalm.drawn]
    decide
  obtain ⟨i, hi⟩ := index_and_copies_agree isEmpty_selfStore (.single ⟨hmove, hcalm.trouble⟩) hroom
  rw [hi.isAt.unique hcalm.isAt] at hi
  exact ⟨t, w', hrun, hi⟩

/-- The copy gets a snapshot itself, as any file may. -/
theorem create_copy {t : Snapshot} (ht : selfStore.IsRecord emptyWorld 0 ⟨"/A"⟩ "a".toUTF8 t)
    (hcalm : selfStore.Calm ["s"] emptyWorld [] 1 (SnapshotIndex.empty.add t) w)
    (hsound : selfStore.Sound ["s"] [] w (SnapshotIndex.empty.add t)) :
    ∃ u w', (selfStore.create t.location).apply w = (.ok u, w') ∧
      u.source = selfStore.dir ++ copyOfFile ∧ u.location = selfStore.dir ++ copyOfCopy ∧
      u.checksum = t.checksum ∧
      selfStore.Calm ["s"] emptyWorld [] 2 ((SnapshotIndex.empty.add t).add u) w' ∧
      selfStore.Sound ["s"] [] w' ((SnapshotIndex.empty.add t).add u) := by
  have hlocation : t.location = selfStore.dir ++ copyOfFile := ht.location
  obtain ⟨content, ⟨name, mode, modified, hname, -, hcopy, hat⟩, hchecksum, -⟩ :=
    hsound.kept.copies t (List.mem_singleton_self t)
  obtain rfl := Path.join_injective hname.isName selfStore.dir isCopyName_copyOfFile.isName
    (hcopy.symm.trans hlocation)
  have hlocate : w.disk.locate (w.absolute (selfStore.dir ++ copyOfFile)) =
      .ok (["s"] ++ [copyOfFile]) :=
    (hsound.under.locate_name isCopyName_copyOfFile.isName).mpr ⟨rfl, fits_copyOfFile⟩
  have hidentity : w.identity (selfStore.dir ++ copyOfFile) = selfStore.dir ++ copyOfFile := by
    rw [World.identity_of_entry (by decide +kernel) hlocate hat]
    exact path_copyOfFile
  have hsettled : Settled ["s"] w (w.identity (selfStore.dir ++ copyOfFile)) content := by
    rw [hidentity]
    exact ⟨_, mode, modified, hlocate, not_region_concat _ _, hat⟩
  have huncopied : IsUncopied ["s"] w (w.identity (selfStore.dir ++ copyOfFile)) := by
    intro m
    rw [hidentity]
    have hclock : w.clock m = stoppedTime := congrFun hcalm.since.clock m
    rw [hclock, copyName_copy]
    refine ⟨fits_copyOfCopy, hsound.free hcalm isCopyName_copyOfCopy (by decide) ?_⟩
    intro u hu
    rw [List.mem_singleton.mp hu, hlocation]
    exact copyOfFile_ne
  have hkey : IsNewKey [w.identity (selfStore.dir ++ copyOfFile)] selfStore.indexFile := by
    intro k hk
    rw [List.mem_singleton.mp hk, hidentity]
    exact ⟨by decide, by decide +kernel⟩
  rw [hlocation]
  rcases hrun : (selfStore.create (selfStore.dir ++ copyOfFile)).apply w with ⟨r, w'⟩
  obtain ⟨u, rfl, hu, hcalm'⟩ := Act.Ends.of_apply 
    (hcalm.create hsettled huncopied hkey Nat.one_lt_two) hrun
  rw [hidentity] at hu
  have hclock : w.clock w.readings = stoppedTime := congrFun hcalm.since.clock w.readings
  have hlocation' : u.location = selfStore.dir ++ copyOfCopy := by
    rw [hu.location, hclock, copyName_copy]
  have hsound' := (stays_create _).sound hsound hrun hcalm'
  exact ⟨u, w', rfl, hu.source, hlocation', hu.checksum.trans hchecksum, hcalm', hsound'⟩

/-- A snapshot of the copy of a file, when the file has no snapshot any more. -/
theorem exists_copyOfCopy : ∃ t u w₁ w₂ w₃ i,
    (selfStore.create ⟨"/A"⟩).apply emptyWorld = (.ok t, w₁) ∧
      (selfStore.create t.location).apply w₁ = (.ok u, w₂) ∧
      (selfStore.delete t.id).apply w₂ = (.ok (), w₃) ∧
      u.source = selfStore.dir ++ copyOfFile ∧ u.location = selfStore.dir ++ copyOfCopy ∧
      u.checksum = Digest.blake3 "a".toUTF8 ∧ i.snapshots = [u] ∧
      selfStore.Calm ["s"] emptyWorld [] 2 i w₃ ∧ selfStore.Sound ["s"] [] w₃ i := by
  obtain ⟨t, w₁, hrun₁, ht, hcalm₁, hsound₁⟩ := create_emptyWorld
  obtain ⟨u, w₂, hrun₂, hsource, hlocation, hchecksum, hcalm₂, hsound₂⟩ :=
    create_copy ht hcalm₁ hsound₁
  have hfound : ((SnapshotIndex.empty.add t).add u).find? t.id = some t :=
    List.find?_cons_of_pos (by simp)
  have hflat : emptyWorld.disk.at? (["s"] ++ [copyOfFile]) ≠ some .directory := by
    rw [at?_emptyWorld (by decide)]
    exact nofun
  rcases hrun₃ : (selfStore.delete t.id).apply w₂ with ⟨r, w₃⟩
  obtain ⟨_, rfl, hcalm₃, -⟩ := Act.Ends.of_apply
    (hcalm₂.delete hfound isCopyName_copyOfFile fits_copyOfFile ht.location hflat) hrun₃
  refine ⟨t, u, w₁, w₂, w₃, _, hrun₁, hrun₂, hrun₃, hsource, hlocation,
    hchecksum.trans ht.checksum, ?_, hcalm₃, (stays_delete _).sound hsound₂ hrun₃ hcalm₃⟩
  change List.eraseP (fun v => decide (v.id = t.id)) [t, u] = [u]
  simp

/-- When the copy of a dropped snapshot is put back, there is a copy that no snapshot has. -/
theorem orphan_after_restore : selfStore.IsEmpty ["s"] emptyWorld ∧ ∃ t u w₁ w₂ w₃ w₄,
    (selfStore.create ⟨"/A"⟩).apply emptyWorld = (.ok t, w₁) ∧
      (selfStore.create t.location).apply w₁ = (.ok u, w₂) ∧
      (selfStore.delete t.id).apply w₂ = (.ok (), w₃) ∧
      (selfStore.restore u).apply w₃ = (.ok (), w₄) ∧ w₄.trouble = [] ∧
      w₄.drawn < MachineWord.card ∧ ∀ i, ¬ selfStore.Agrees ["s"] w₄ i := by
  obtain ⟨t, u, w₁, w₂, w₃, i, hrun₁, hrun₂, hrun₃, hsource, hlocation, -, hi, hcalm, hsound⟩ :=
    exists_copyOfCopy
  have hu : u ∈ i.snapshots := hi ▸ List.mem_singleton_self u
  obtain ⟨content, hcopy, hchecksum, -⟩ := hsound.kept.copies u hu
  have hfree := hsound.free hcalm isCopyName_copyOfFile (by decide) fun v hv => by
    rw [hi, List.mem_singleton] at hv
    rw [hv, hlocation]
    exact copyOfFile_ne.symm
  rcases hrun₄ : (selfStore.restore u).apply w₃ with ⟨r, w₄⟩
  obtain ⟨_, rfl, hcalm₄, -, mode, modified, hat⟩ := Act.Ends.of_apply
    (hcalm.restoreWithin isCopyName_copyOfFile.isName fits_copyOfFile hsource hcopy hchecksum
      (by rw [hfree]; exact nofun) (Or.inr ⟨isCopyName_copyOfFile.ne_index, rfl⟩) hcalm.valid) hrun₄
  refine ⟨isEmpty_selfStore, t, u, w₁, w₂, w₃, w₄, hrun₁, hrun₂, hrun₃, hrun₄, hcalm₄.trouble, ?_,
    fun j hj => ?_⟩
  · rw [hcalm₄.drawn]
    decide
  · obtain rfl := hj.isAt.unique hcalm₄.isAt
    obtain ⟨v, hv, hcopied, -⟩ := hj.owned _ _ _ _ isCopyName_copyOfFile.ne_index hat
    rw [hi, List.mem_singleton] at hv
    rw [hv, hlocation] at hcopied
    exact absurd hcopied copyOfFile_ne.symm

end SnapshotStore

end Amend
