import Amend.Proofs.Workflow.Apply
import Amend.Proofs.Workflow.Calm

/-!
# An index that names a file as a copy

A store takes its index at its word.  A snapshot of the index whose location is a file outside the
directory of the store, where no operation of the store would put a copy, has that file removed
when the snapshot is dropped.
-/

namespace Amend

open Disk (Frame Plain)
open World (Within)
open Act (Settles)

namespace SnapshotStore

variable {s : SnapshotStore} {base : Location} {keys : List Path} {n : Nat} {i : SnapshotIndex}
  {start w w' : World} {l : Location} {old : Snapshot}

/-- A file outside the directory of a calm store is removed. -/
theorem Calm.erase (h : s.Calm base start keys n i w) (hout : ¬ base <+: l) {content : ByteArray}
    {mode modified : Nat} (hat : w.disk.at? l = some (.file content mode modified)) :
    s.Calm base { w with disk := w.disk.erase l } keys n i { w with disk := w.disk.erase l } := by
  have hne : l ≠ [] := by
    rintro rfl
    cases hat
  have hnotdir : w.disk.at? l ≠ some .directory := by
    rw [hat]
    exact nofun
  have herase := Frame.erase hne hnotdir
  have hsame {m : Location} (hm : base <+: m) : (w.disk.erase l).at? m = w.disk.at? m := by
    refine Disk.at?_erase_of_ne w.disk ?_
    rintro rfl
    exact hout hm
  have hindex : indexLocation base ≠ l := by
    rintro rfl
    exact hout (List.prefix_append base _)
  have hlinks : ∀ m ∈ w.disk.linksTo (w.absolute s.dir), m ≠ l := by
    rintro m hm rfl
    obtain ⟨target, hlink⟩ := Disk.mem_linksTo hm
    rw [hat] at hlink
    cases hlink
  exact {
    since := .refl _
    flat := fun _ => id
    under := ⟨h.under.tree.frame herase hlinks, h.under.dir_eq⟩
    tidy := h.tidy
    plain := h.plain.frame herase
    trouble := h.trouble
    held := h.held
    drawn := h.drawn
    clock := h.clock
    locksDir := herase.directory _ h.locksDir
    taken := by
      intro key hkey
      change ∃ content mode modified, (w.disk.erase l).at? _ = _
      rw [hsame (below_lockLocation key)]
      exact h.taken key hkey
    free := by
      intro file
      change (w.disk.erase l).at? _ = none ∨ _
      rw [hsame (by rw [List.append_assoc]; exact List.prefix_append base _)]
      exact h.free file
    index := by
      have hbelow : base <+: indexLocation base := List.prefix_append base _
      change (w.disk.erase l).at? _ ≠ _
      rw [hsame hbelow]
      exact h.index
    isAt := h.isAt.frame herase hindex
    valid := h.valid }

/-- A path to a file outside the directory of a store. -/
structure Misplaced (base : Location) (w : World) (p : Path) (l : Location) : Prop where
  located : w.disk.locate (w.absolute p) false = .ok l
  kind : Disk.meansDirectory (w.absolute p) = false
  out : ¬ base <+: l
  file : ∃ content mode modified, w.disk.at? l = some (.file content mode modified)

theorem Misplaced.within {p : Path} (h : Misplaced base w p l)
    (hunder : s.locks.Under s.dir base w) (hw : Within (base <+: ·) w w') :
    Misplaced base w' p l where
  located := by
    rw [hw.absolute]
    refine (hw.frame.locate h.located (fun m hm hbelow => ?_) (Or.inl h.kind)).1
    obtain ⟨target, hlink⟩ := Disk.mem_linksTo hm
    exact hunder.tree.noLinks m hbelow target hlink
  kind := by
    rw [hw.absolute]
    exact h.kind
  out := h.out
  file := by
    obtain ⟨content, mode, modified, hat⟩ := h.file
    exact ⟨content, mode, modified, hw.frame.eq_of_some h.out hat⟩

/-- A world from which a file outside the directory of a store was lost. -/
structure Lost (base : Location) (l : Location) (w w' : World) : Prop where
  gone : w'.disk.at? l = none
  within : Within (fun m => base <+: m ∨ m = l) w w'

theorem Lost.after {w'' : World} (h : Lost base l w' w'') (hw : Within (base <+: ·) w w') :
    Lost base l w w'' where
  gone := h.gone
  within := (hw.mono fun _ => Or.inl).trans h.within

/-- A snapshot is dropped whose location is a file outside the directory of the store. -/
theorem Calm.delete_misplaced (h : s.Calm base start [] n i w)
    (hfound : i.find? old.id = some old) (hfile : Misplaced base w old.location l) :
    (s.delete old.id).Yields w fun _ w' => Lost base l w w' ∧
      s.Calm base w' [] n (i.drop old.id) w' := by
  have hnow := h.fromNow
  rw [SnapshotStore.delete]
  refine (hnow.updateIndex (P := fun t m j => t = old ∧ m = n ∧ j = i.drop old.id)
    (isNewKey_nil _) ?_).bind ?_
  · simp only [hfound]
    exact Act.yields_pure ⟨h.valid.drop old.id, n, ⟨rfl, rfl, rfl⟩, hnow.locked (isNewKey_nil _)⟩
  · rintro dropped w₁ ⟨_, _, ⟨hdropped, rfl, rfl⟩, h₁⟩
    have hfile₁ := hfile.within h.under h₁.since
    obtain ⟨content, mode, modified, hat⟩ := hfile₁.file
    have hne : l ≠ [] := by
      rintro rfl
      cases hat
    have hnotdir : w₁.disk.at? l ≠ some .directory := by
      rw [hat]
      intro heq
      cases heq
    have hremove : (World.removeFile old.location).Yields w₁ fun _ w' =>
        w' = { w₁ with disk := w₁.disk.erase l } :=
      World.yields_diskOperation h₁.trouble (Disk.remove_of_file hfile₁.located hat) rfl
    rw [hdropped, SnapshotStore.removeCopy]
    refine hremove.outcome.bind ?_
    rintro _ w₂ ⟨_, rfl, rfl⟩
    have herased : Within (· = l) w₁ { w₁ with disk := w₁.disk.erase l } :=
      ⟨Frame.erase hne hnotdir, rfl, rfl, rfl, Nat.le_refl _, rfl⟩
    have hlost : Lost base l w₁ { w₁ with disk := w₁.disk.erase l } :=
      ⟨Disk.at?_erase_self _ _ hne, herased.mono fun _ => Or.inr⟩
    exact Act.yields_pure ⟨hlost.after h₁.since, h₁.erase hfile₁.out hat⟩

/-- A store that keeps one snapshot of each file drops the older one of two. -/
theorem Calm.retain_misplaced (h : s.Calm base start [] n i w) {file : Path} {t : Snapshot}
    (hnewest : i.ofFile (w.identity file) = [t, old]) (hpinned : old.id ∉ w.pinned)
    (hfound : i.find? old.id = some old) (hfile : Misplaced base w old.location l) :
    (s.retain file 1).Yields w fun _ w' => Lost base l w w' ∧
      s.Calm base w' [] n (i.drop old.id) w' := by
  have hexpired : expired w.pinned 1 (i.ofFile (w.identity file)) = [old.id] := by
    rw [hnewest, expired]
    simp [hpinned]
  refine (h.fromNow.retain_of_delete_one hexpired fun w₁ h₁ => ?_).mono fun _ _ hw' => hw'.2
  exact (h₁.delete_misplaced hfound (hfile.within h.under h₁.since)).mono
    fun _ _ hw' => ⟨hw'.1.after h₁.since, hw'.2⟩

/-- The newer one of two snapshots comes first. -/
theorem newestFirst_pair {a b : Snapshot} (h : Timestamp.order a.createdAt b.createdAt = .lt) :
    Snapshot.newestFirst [a, b] = [b, a] := by
  have hlater : Snapshot.newerOrEqual a b = false := by
    rw [Snapshot.newerOrEqual, h]
  simp [Snapshot.newestFirst, List.mergeSort, List.MergeSort.Internal.splitInTwo, hlater]

/-- Taking a snapshot of a file costs the file that the index names as its older copy. -/
theorem Calm.create_misplaced (h : s.Calm base start [] n i w) {file : Path} {m : Location}
    {content : ByteArray} (hplain : Plain w.disk (w.absolute file) m)
    (hsource : Outside base w m.path content) (hcopy : IsUncopied base w m.path)
    (hkey : IsNewKey [m.path] s.indexFile) (hkept : s.kept = 1) (hindex : i.snapshots = [old])
    (hown : old.source = m.path) (hfile : Misplaced base w old.location l)
    (hpinned : old.id ∉ w.pinned)
    (hold : Timestamp.order old.createdAt (w.clock w.readings) = .lt) :
    (s.create file).Yields w fun t w' => s.IsRecord w n m.path content t ∧ Lost base l w w' ∧
      s.Calm base w' [] (n + 1) ((i.add t).drop old.id) w' := by
  have hidentity := World.identity_of_plain hplain
  rw [← hidentity] at hsource hcopy hkey ⊢
  refine h.fromNow.create_of_retain hsource.settled hcopy hkey fun t w₁ ht h₁ => ?_
  have hidentity₁ : w₁.identity m.path = m.path :=
    h₁.since.identity_of_plain (World.plain_absolute_path hplain)
  have hnewest : (i.add t).ofFile (w₁.identity (w.identity file)) = [t, old] := by
    rw [SnapshotIndex.ofFile, hidentity, hidentity₁, SnapshotIndex.add, hindex]
    have hboth : ([old] ++ [t]).filter (·.source.same m.path) = [old, t] := by
      rw [List.filter_eq_self.mpr]
      · rfl
      · intro u hu
        rcases List.mem_cons.mp hu with rfl | hu
        · rw [hown]
          exact beq_self_eq_true _
        · rw [List.mem_singleton.mp hu, ht.source, hidentity]
          exact beq_self_eq_true _
    rw [hboth]
    refine newestFirst_pair ?_
    rw [ht.createdAt]
    exact hold
  have hfound : (i.add t).find? old.id = some old := by
    rw [SnapshotIndex.find?, SnapshotIndex.add, hindex]
    exact List.find?_cons_of_pos (by simp)
  rw [hkept]
  refine (h₁.retain_misplaced hnewest ?_ hfound (hfile.within h.under h₁.since)).mono ?_
  · rw [h₁.since.pinned]
    exact hpinned
  · rintro _ w' ⟨hlost, hcalm⟩
    exact ⟨ht, hlost.after h₁.since, hcalm⟩

end SnapshotStore

/-! ## A project of two files -/

namespace Workbench

open SnapshotStore

/-- A store in a directory of its own that keeps one snapshot of each file. -/
def sampleStore : SnapshotStore := { selfStore with kept := 1 }

/-- A defect of one of the files. -/
def sampleDefect : Defect where
  category := "magic-number"
  file := ⟨"/B.java"⟩
  startLine := 1

/-- A workbench on which nothing parses and every check passes. -/
def sampleBench : Workbench where
  root := ⟨"/"⟩
  parse := fun _ => none
  catalog := .standard {}
  store := sampleStore
  check := fun _ w => ({}, w)
  build := return .skipped ""
  test := return .skipped ""
  settings := { stopOnFirstFailure := some false }

/-- The project with an index of its store. -/
def sampleWorld (i : SnapshotIndex) : World where
  disk := ⟨[(["s"], .directory), (["s", "locks"], .directory),
    (["s", "index.json"], .file i.encode 0o600 0),
    (["B.java"], .file "class B {}".toUTF8 0o644 0),
    (["C.java"], .file "class C {}".toUTF8 0o644 0)]⟩
  directory := ⟨"/"⟩
  clock := fun _ => stoppedTime
  ids := fun n => .ofNat (min n 2)

theorem resolveWithin_sample : Path.resolveWithin ⟨"/"⟩ ⟨"/B.java"⟩ = .ok ⟨"/B.java"⟩ := by
  have hresolved : ((Path.mk "/").join ⟨"/B.java"⟩).normalize = ⟨"/B.java"⟩ := by decide +kernel
  have hwithin : (Path.mk "/B.java").startsWith (Path.mk "/").normalize = true := by
    decide +kernel
  rw [Path.resolveWithin, hresolved, if_pos hwithin]

/-- The plan has one action, on the file of the defect. -/
theorem plan_sample : (Plan.build sampleBench.root sampleBench.catalog [sampleDefect]).actions =
    [⟨sampleDefect, "literal-extraction", false⟩] := by
  have hhandles : Refactoring.extractConstant.handles sampleDefect = true := by decide +kernel
  have hmatch : (Catalog.standard {}).firstMatch? sampleDefect =
      some Refactoring.extractConstant := List.find?_cons_of_pos hhandles
  change (Plan.build ⟨"/"⟩ (Catalog.standard {}) [sampleDefect]).actions = _
  rw [Plan.build, List.foldl_cons, List.foldl_nil, Plan.add,
    show sampleDefect.autoFixable = true from rfl,
    show sampleDefect.file = ⟨"/B.java"⟩ from rfl, resolveWithin_sample]
  dsimp only
  rw [show ({ sampleDefect with file := ⟨"/B.java"⟩ } : Defect) = sampleDefect from rfl, hmatch]
  rfl

theorem noLinks_sample (i : SnapshotIndex) (l : Location) (target : Path) :
    (sampleWorld i).disk.at? l ≠ some (.link target) := by
  refine Disk.noLinks_of_entries (fun p hp target => ?_) l target
  simp only [sampleWorld, List.mem_cons, List.not_mem_nil, or_false] at hp
  rcases hp with rfl | rfl | rfl | rfl | rfl <;> exact nofun

theorem absolute_sample (i : SnapshotIndex) {p : Path} (h : p.isAbsolute = true) :
    (sampleWorld i).absolute p = p := Path.join_of_absolute _ h

theorem plain_sample (i : SnapshotIndex) :
    Plain (sampleWorld i).disk ((sampleWorld i).absolute ⟨"/B.java"⟩) ["B.java"] := by
  rw [absolute_sample i rfl]
  exact ⟨by decide, fun m _ _ => noLinks_sample i m⟩

theorem locate_sample (i : SnapshotIndex) :
    (sampleWorld i).disk.locate ((sampleWorld i).absolute ⟨"/B.java"⟩) = .ok ["B.java"] := by
  rw [absolute_sample i rfl]
  rfl

theorem under_sample (i : SnapshotIndex) :
    sampleStore.locks.Under sampleStore.dir ["s"] (sampleWorld i) where
  tree := by
    rw [absolute_sample i rfl]
    exact ⟨rfl, rfl, rfl, fun l _ => noLinks_sample i l⟩
  dir_eq := rfl

theorem calm_sample {i : SnapshotIndex} (h : i.IsValid) :
    sampleStore.Calm ["s"] (sampleWorld i) [] 0 i (sampleWorld i) where
  since := .refl _
  flat := fun _ => id
  under := under_sample i
  tidy := ⟨by decide, by decide, by decide⟩
  plain := by
    rw [absolute_sample i rfl]
    exact ⟨rfl, fun m _ _ => noLinks_sample i m⟩
  trouble := rfl
  held := rfl
  drawn := rfl
  clock := fun _ => isReading_stoppedTime
  locksDir := rfl
  taken := fun _ hk => absurd hk List.not_mem_nil
  free := fun file => Or.inl (by simp [Disk.at?, sampleWorld, List.lookup_cons])
  index := by
    change some (Entry.file _ _ _) ≠ some .directory
    intro heq
    cases heq
  isAt := Or.inl ⟨i.encode, 0o600, 0, rfl, SnapshotIndex.decode?_encode h⟩
  valid := h

theorem outside_sample (i : SnapshotIndex) :
    Outside ["s"] (sampleWorld i) ⟨"/B.java"⟩ "class B {}".toUTF8 :=
  ⟨["B.java"], 0o644, 0, locate_sample i, by decide, rfl⟩

theorem isUncopied_sample (i : SnapshotIndex) : IsUncopied ["s"] (sampleWorld i) ⟨"/B.java"⟩ := by
  intro m
  change Fits (copyName ⟨"/B.java"⟩ stoppedTime) ∧
    (sampleWorld i).disk.at? (["s"] ++ [copyName ⟨"/B.java"⟩ stoppedTime]) = none
  have hname : copyName ⟨"/B.java"⟩ stoppedTime = "B.java.backup.20240506T070809.000000000Z" := rfl
  rw [hname]
  exact ⟨⟨by decide, by decide⟩, rfl⟩

theorem isNewKey_sample : IsNewKey [⟨"/B.java"⟩] sampleStore.indexFile := by
  intro k hk
  rw [List.mem_singleton.mp hk]
  exact ⟨by decide, by decide +kernel⟩

/-- No matter what becomes of the store and of the other file, the file of the defect is there and
does not parse. -/
theorem unparsable_sample {i : SnapshotIndex} {v : World}
    (hframe : Frame (fun m => ["s"] <+: m ∨ m = ["C.java"]) (sampleWorld i).disk v.disk)
    (hdirectory : v.directory = ⟨"/"⟩) (htrouble : v.trouble = []) :
    Unparsable sampleBench v sampleDefect.file .noTree := by
  have habsolute : v.absolute sampleDefect.file = ⟨"/B.java"⟩ := by
    rw [World.absolute, hdirectory]
    rfl
  have hl : v.disk.locate ⟨"/B.java"⟩ = .ok ["B.java"] := by
    have hthere := locate_sample i
    rw [absolute_sample i rfl] at hthere
    refine (hframe.locate hthere (fun m hm _ => ?_) (Or.inl rfl)).1
    obtain ⟨target, hlink⟩ := Disk.mem_linksTo hm
    exact noLinks_sample i m target hlink
  have hat : v.disk.at? ["B.java"] = some (.file "class B {}".toUTF8 0o644 0) :=
    hframe.eq_of_some (by decide) rfl
  have hstat : v.stat sampleDefect.file = .ok (.file "class B {}".toUTF8 0o644 0) := by
    rw [World.stat, habsolute]
    exact Disk.stat_eq_ok_iff.mpr ⟨_, hl, hat⟩
  refine ⟨htrouble, by decide +kernel, ⟨_, _, _, hstat, by decide⟩, "class B {}", ?_, rfl⟩
  rw [habsolute]
  exact Disk.readText_of_toUTF8 (Disk.read_eq_ok_iff.mpr ⟨_, _, _, hl, hat⟩)

theorem find?_sample : sampleBench.catalog.find? "literal-extraction" =
    some Refactoring.extractConstant := by
  have hname : decide (Refactoring.extractConstant.name = "literal-extraction") = true := by
    decide +kernel
  exact List.find?_cons_of_pos hname

theorem mutatingFiles_sample (identity : Path → Path) :
    (Plan.build sampleBench.root sampleBench.catalog [sampleDefect]).mutatingFiles identity =
      [⟨"/B.java"⟩] := by
  rw [Plan.mutatingFiles, plan_sample]
  rfl

theorem reaches_sample (i : SnapshotIndex) :
    (Plan.build sampleBench.root sampleBench.catalog [sampleDefect]).Reaches ["s"]
      (sampleWorld i) := by
  intro a ha
  rw [plan_sample] at ha
  rw [List.mem_singleton.mp ha]
  exact ⟨["B.java"], _, plain_sample i, by decide,
    Disk.read_eq_ok_iff.mpr ⟨_, _, _, locate_sample i, rfl⟩⟩

/-- The other file is not written. -/
theorem not_touches_sample (i : SnapshotIndex) :
    ¬ (Plan.build sampleBench.root sampleBench.catalog [sampleDefect]).Touches ["s"]
      (fun _ => False) (sampleWorld i) ["C.java"] := by
  rintro (hbelow | ⟨a, ha, -, hplain⟩ | hnone)
  · exact absurd hbelow (by decide)
  · rw [plan_sample] at ha
    rw [List.mem_singleton.mp ha] at hplain
    exact absurd (World.location_unique hplain (plain_sample i)) (by decide)
  · exact hnone

theorem drawsOnce_sample (i : SnapshotIndex) : (sampleWorld i).DrawsOnce 2 := by
  intro m n _ hm hmn
  change Uid.ofNat (min m 2) ≠ Uid.ofNat (min n 2)
  obtain ⟨rfl, hn⟩ | ⟨rfl, hn⟩ | ⟨rfl, hn⟩ : (m = 0 ∧ min n 2 = 1) ∨ (m = 0 ∧ min n 2 = 2) ∨
      (m = 1 ∧ min n 2 = 2) := by omega
  all_goals
    rw [hn]
    decide

/-- Programs that do nothing leave everything alone. -/
theorem leftAlone_of_id {s : SnapshotStore} {base : Location} {theirs : Location → Prop}
    {f : World → World} (h : ∀ w, f w = w) : s.LeftAlone base theirs f where
  elsewhere := by
    intro w hway
    rw [h w]
    exact ⟨rfl, rfl, rfl, Nat.le_refl _, rfl, hway, fun _ _ => rfl⟩
  link := by
    intro w l target hl
    rwa [h w] at hl
  same := by
    intro w l _
    rw [h w]

theorem undisturbed_sample : sampleBench.Undisturbed ["s"] (fun _ => False) :=
  ⟨fun _ => leftAlone_of_id fun _ => rfl, leftAlone_of_id fun _ => rfl,
    leftAlone_of_id fun _ => rfl⟩

/-! ## The project with an empty store -/

theorem inOrder_sample : sampleStore.InOrder ["s"] (sampleWorld .empty) .empty where
  under := under_sample .empty
  clock := fun _ => isReading_stoppedTime
  isAt := (calm_sample SnapshotIndex.isValid_empty).isAt
  valid := SnapshotIndex.isValid_empty
  copies := nofun
  apart := List.Pairwise.nil
  sets := nofun
  found := nofun
  guards := nofun
  pinned := nofun
  unused := nofun

theorem drawsNew_empty (w : World) : w.DrawsNew .empty := ⟨fun _ _ => nofun, fun _ _ => nofun⟩

/-- The backup of the project with an empty store is taken. -/
theorem backUp_sample :
    (sampleBench.backUp
      { plan := Plan.build sampleBench.root sampleBench.catalog [sampleDefect] }).Yields
      (sampleWorld .empty) fun _ v => v.drawn = 2 := by
  have hcreate : (sampleBench.store.create ⟨"/B.java"⟩).Yields (sampleWorld .empty)
      fun t w' => ∃ start i, (True ∧ i.find? t.id = some t) ∧
        sampleBench.store.Calm ["s"] start [] 1 i w' := by
    have hidentity : (sampleWorld .empty).identity ⟨"/B.java"⟩ = ⟨"/B.java"⟩ :=
      World.identity_of_plain (plain_sample .empty)
    refine ((calm_sample SnapshotIndex.isValid_empty).create
      (hidentity ▸ (outside_sample .empty).settled)
      (hidentity ▸ isUncopied_sample .empty) (hidentity ▸ isNewKey_sample)
      Nat.zero_lt_one).mono ?_
    rintro t w' ⟨-, hcalm⟩
    exact ⟨sampleWorld .empty, SnapshotIndex.empty.add t,
      ⟨trivial, List.find?_cons_of_pos (by simp)⟩, hcalm⟩
  have hfiles := mutatingFiles_sample (sampleWorld .empty).identity
  generalize Plan.build sampleBench.root sampleBench.catalog [sampleDefect] = plan at hfiles ⊢
  refine (backUp_of_create (Q := fun _ _ => True) (r := { plan }) hfiles hcreate).mono ?_
  rintro r v ⟨t, set, start, i, -, -, hcalm⟩
  exact hcalm.drawn

/-! ## The project with a forged index -/

/-- A snapshot of the file of the defect whose copy is the other file. -/
def forgedSnapshot : Snapshot where
  id := .ofNat 3
  source := ⟨"/B.java"⟩
  location := ⟨"/C.java"⟩
  checksum := ""
  createdAt := { stoppedTime with year := 2023 }
  size := 0
  sequence := 0

/-- The index with that snapshot. -/
def forgedIndex : SnapshotIndex := SnapshotIndex.empty.add forgedSnapshot

theorem isValid_forgedIndex : forgedIndex.IsValid :=
  SnapshotIndex.isValid_empty.add ⟨⟨by decide, by decide, by decide⟩, by decide, by decide⟩

/-- The backup of the project with that index costs the other file. -/
theorem backUp_forged :
    (sampleBench.backUp
      { plan := Plan.build sampleBench.root sampleBench.catalog [sampleDefect] }).Yields
      (sampleWorld forgedIndex) fun r v => ∃ t set start i, t.source = ⟨"/B.java"⟩ ∧
        Lost ["s"] ["C.java"] (sampleWorld forgedIndex) start ∧
        r = { plan := Plan.build sampleBench.root sampleBench.catalog [sampleDefect]
              set := some set, members := [t] } ∧
        sampleStore.Calm ["s"] { start with pinned := start.pinned ++ set.members } [] 2 i v := by
  have hfile : Misplaced ["s"] (sampleWorld forgedIndex) forgedSnapshot.location ["C.java"] := by
    refine ⟨?_, ?_, by decide, _, _, _, rfl⟩
    · rw [absolute_sample _ rfl]
      rfl
    · rw [absolute_sample _ rfl]
      rfl
  have hcreate := (calm_sample isValid_forgedIndex).create_misplaced (plain_sample _)
    (outside_sample _) (isUncopied_sample _) isNewKey_sample rfl rfl rfl hfile List.not_mem_nil
    (by decide)
  have hfound : (sampleBench.store.create ⟨"/B.java"⟩).Yields (sampleWorld forgedIndex)
      fun t w' => ∃ start i, ((t.source = ⟨"/B.java"⟩ ∧
        Lost ["s"] ["C.java"] (sampleWorld forgedIndex) start) ∧ i.find? t.id = some t) ∧
        sampleBench.store.Calm ["s"] start [] 1 i w' := by
    refine hcreate.mono ?_
    rintro t w' ⟨ht, hlost, hcalm⟩
    refine ⟨w', _, ⟨⟨ht.source, hlost⟩, ?_⟩, hcalm⟩
    simp [SnapshotIndex.find?, SnapshotIndex.drop, SnapshotIndex.add, forgedIndex,
      SnapshotIndex.empty]
  have hfiles := mutatingFiles_sample (sampleWorld forgedIndex).identity
  generalize Plan.build sampleBench.root sampleBench.catalog [sampleDefect] = plan at hfiles ⊢
  refine (backUp_of_create (r := { plan }) hfiles hfound).mono ?_
  rintro r v ⟨t, set, start, i, ⟨hsource, hlost⟩, hr, hcalm⟩
  exact ⟨t, set, start, i, hsource, hlost, hr, hcalm⟩

/-- A run of the project with that index after its backup: the other file is gone, and the action
is refused. -/
structure Bereft (r : Run) (v : World) : Prop where
  plan : r.plan = Plan.build sampleBench.root sampleBench.catalog [sampleDefect]
  gone : ∀ content mode modified, v.disk.at? ["C.java"] ≠ some (.file content mode modified)
  calm : ∃ start i, sampleStore.Calm ["s"] start [] 2 i v
  refused : (sampleBench.applyActions r .empty 0 r.plan.actions).Yields v fun r' v' => v' = v ∧
    ∃ d, r' = { r with actions := [⟨0, "literal-extraction", d, .failed (.refactoring
      (.badTarget sampleDefect.file (.unparsable .noTree)))⟩] }

theorem bereft_of_backUp :
    (sampleBench.backUp
      { plan := Plan.build sampleBench.root sampleBench.catalog [sampleDefect] }).Yields
      (sampleWorld forgedIndex) Bereft := by
  refine backUp_forged.mono ?_
  rintro r v ⟨t, set, start, i, hsource, hlost, hr, hcalm⟩
  have hplan : r.plan = Plan.build sampleBench.root sampleBench.catalog [sampleDefect] := by
    rw [hr]
  have hframe : Frame (fun m => ["s"] <+: m ∨ m = ["C.java"]) (sampleWorld forgedIndex).disk
      v.disk :=
    hlost.within.frame.trans (hcalm.since.frame.mono fun _ => Or.inl)
  have hdirectory : v.directory = ⟨"/"⟩ := hcalm.since.directory.trans hlost.within.directory
  refine ⟨hplan, fun content mode modified hat => ?_, ⟨_, i, hcalm⟩, ?_⟩
  · have hthere : start.disk.at? ["C.java"] = some (.file content mode modified) :=
      hcalm.since.changed.file_of_file (by decide) hat
    rw [hlost.gone] at hthere
    cases hthere
  · have hplain : Plain v.disk (v.absolute ⟨"/B.java"⟩) ["B.java"] := by
      rw [World.absolute, hdirectory]
      have hthere := plain_sample forgedIndex
      rw [absolute_sample forgedIndex rfl] at hthere
      exact hthere.frame hframe
    have hmember : (r.member? (v.identity sampleDefect.file)).isSome = true := by
      have hidentity : v.identity sampleDefect.file = ⟨"/B.java"⟩ := World.identity_of_plain hplain
      rw [hidentity, Run.member?, hr, List.find?_cons_of_pos]
      · rfl
      · rw [hsource]
        exact beq_self_eq_true _
    have hactions : r.actions = [] := by
      rw [hr]
    have hplanned : r.plan.actions = [⟨sampleDefect, "literal-extraction", false⟩] := by
      rw [hplan, plan_sample]
    have hunparsable := unparsable_sample hframe hdirectory hcalm.trouble
    rw [hplanned]
    refine (applyActions_of_unparsable (a := ⟨sampleDefect, "literal-extraction", false⟩)
      hunparsable rfl find?_sample (Or.inr hmember)).mono ?_
    rintro _ v' ⟨rfl, rfl⟩
    rw [Run.report, hactions, List.nil_append]
    exact ⟨_, rfl, rfl, _, rfl⟩

/-- A run of the project with that index ends without the other file. -/
theorem run_bereft : Settles (sampleBench.run [sampleDefect]) (sampleWorld forgedIndex)
    fun _ v => ∀ content mode modified,
      v.disk.at? ["C.java"] ≠ some (.file content mode modified) := by
  have hactions := plan_sample
  have hbackup := bereft_of_backUp
  rw [run]
  generalize Plan.build sampleBench.root sampleBench.catalog [sampleDefect] = plan
    at hactions hbackup ⊢
  have hsome : plan.actions.isEmpty = false := by
    rw [hactions]
    rfl
  have hlive : sampleBench.settings.isDryRun = false := rfl
  dsimp only
  rw [hsome, if_neg Bool.false_ne_true, hlive, if_neg Bool.false_ne_true]
  have hphases : (sampleBench.phases { plan }).Yields (sampleWorld forgedIndex) fun x v =>
      (∃ start i, sampleStore.Calm ["s"] start [] 2 i v) ∧
      ∀ content mode modified, v.disk.at? ["C.java"] ≠ some (.file content mode modified) := by
    rw [phases]
    refine hbackup.bind ?_
    rintro r v h
    refine h.refused.bind ?_
    rintro r' v' ⟨rfl, d, rfl⟩
    exact Act.yields_pure ⟨h.calm, h.gone⟩
  refine Act.Ends.settle hphases |>.bind ?_
  rintro _ v ⟨⟨r, phase⟩, rfl, ⟨start, i, hcalm⟩, hgone⟩
  dsimp only
  rw [finish]
  cases hset : r.set with
  | none => exact Act.settles_pure hgone
  | some set =>
    refine (hcalm.fromNow.releaseSet set.id).settle.bind ?_
    rintro _ v' ⟨_, -, hframe⟩
    refine Act.settles_pure fun content mode modified hat => ?_
    exact hgone content mode modified (hframe.file_of_file (by decide) hat)

end Workbench

end Amend
