import Amend.Proofs.Snapshot.Index
import Amend.Proofs.Snapshot.Lock
import Amend.Snapshot.Store

/-!
# Which file a snapshot is of

A store finds a snapshot by its name in an index that it reads from the disk. Whatever else is on
the disk, every index that a store writes was read before, but for one entry under a name that was
drawn just then. So the file that an index names for a snapshot can be traced back through all
files of the disk that can be read as an index: no arrangement of directories and links is needed,
nor that the system refuses nothing.
-/

namespace Amend

/-! ## Contents of a disk -/

namespace Disk

variable {d d' : Disk} {l : Location} {e : Entry} {content : ByteArray}

/-- Some file of the disk has that content. -/
def Holds (d : Disk) (content : ByteArray) : Prop :=
  ∃ l mode modified, d.at? l = some (.file content mode modified)

theorem holds_of_read {p : Path} (h : d.read p = .ok content) : d.Holds content := by
  obtain ⟨l, mode, modified, -, hat⟩ := read_eq_ok_iff.mp h
  exact ⟨l, mode, modified, hat⟩

theorem Holds.of_put (h : (d.put l e).Holds content) :
    d.Holds content ∨ ∃ mode modified, e = .file content mode modified := by
  obtain ⟨m, mode, modified, hat⟩ := h
  by_cases hm : m = l
  · subst hm
    by_cases hroot : m = []
    · subst hroot
      cases hat
    · rw [at?_put_self d m e hroot] at hat
      exact Or.inr ⟨mode, modified, Option.some.inj hat⟩
  · rw [at?_put_of_ne d e hm] at hat
    exact Or.inl ⟨m, mode, modified, hat⟩

theorem Holds.of_erase (h : (d.erase l).Holds content) : d.Holds content := by
  obtain ⟨m, mode, modified, hat⟩ := h
  exact ⟨m, mode, modified, at?_of_erase hat⟩

end Disk

/-! ## Indexes -/

namespace SnapshotIndex

variable {Q R : Uid → Path → Prop} {i j : SnapshotIndex}

/-- Every snapshot of the index is of a file that `Q` allows for its name. -/
def Ascribes (Q : Uid → Path → Prop) (i : SnapshotIndex) : Prop :=
  ∀ t ∈ i.snapshots, Q t.id t.source

theorem ascribes_empty : empty.Ascribes Q := by
  intro t ht
  cases ht

theorem Ascribes.mono (h : i.Ascribes Q) (hQR : ∀ id p, Q id p → R id p) : i.Ascribes R :=
  fun t ht => hQR _ _ (h t ht)

theorem Ascribes.drop (h : i.Ascribes Q) (id : Uid) : (i.drop id).Ascribes Q :=
  fun t ht => h t (List.mem_of_mem_eraseP ht)

theorem Ascribes.add (h : i.Ascribes Q) {s : Snapshot} (hs : Q s.id s.source) :
    (i.add s).Ascribes Q := by
  intro t ht
  rcases List.mem_append.mp ht with ht | ht
  · exact h t ht
  · rw [List.mem_singleton.mp ht]
    exact hs

/-- A snapshot that is read from a written one has its name, its file and its copy. What else it has
need not be there: a time that is no reading of a clock is read as another one or not at all. -/
theorem eq_of_ofJson?_toJson {s t : Snapshot} (h : Snapshot.ofJson? s.toJson = some t) :
    t.id = s.id ∧ t.source = s.source ∧ t.location = s.location := by
  simp only [Snapshot.ofJson?, Snapshot.toJson, Json.fields?, Snapshot.fieldNames] at h
  simp [List.lookup_cons, Json.str?_str, Uid.ofText?_render, Option.bind_eq_some_iff] at h
  obtain ⟨createdAt, -, size, -, sequence, -, rfl⟩ := h
  exact ⟨rfl, rfl, rfl⟩

theorem list?_of_ofJson?_toJson (h : ofJson? i.toJson = some j) :
    (Json.list Snapshot.toJson i.snapshots).list? Snapshot.ofJson? = some j.snapshots := by
  simp only [ofJson?, toJson, Json.fields?, fieldNames] at h
  simp [List.lookup_cons, Option.bind_eq_some_iff] at h
  obtain ⟨next, -, snapshots, hsnapshots, sets, -, marks, -, rfl⟩ := h
  exact hsnapshots

/-- What is read from a written index was in that index. -/
theorem exists_of_decode?_encode (hj : decode? i.encode = some j) {t : Snapshot}
    (ht : t ∈ j.snapshots) :
    ∃ s ∈ i.snapshots, t.id = s.id ∧ t.source = s.source ∧ t.location = s.location := by
  rw [decode?_encode_eq] at hj
  obtain ⟨s, hs, hread⟩ := Json.exists_of_mem_list? (list?_of_ofJson?_toJson hj) ht
  exact ⟨s, hs, eq_of_ofJson?_toJson hread⟩

/-- What is read from a written index allots no more than that index. -/
theorem Ascribes.of_encode (h : i.Ascribes Q) (hj : decode? i.encode = some j) :
    j.Ascribes Q := by
  intro t ht
  obtain ⟨s, hs, hid, hsource, -⟩ := exists_of_decode?_encode hj ht
  rw [hid, hsource]
  exact h s hs

/-- A text that is no JSON document is no index. -/
theorem decode?_of_text {text : String} (h : Json.parse? text = none) :
    decode? text.toUTF8 = none := by
  have htext : String.fromUTF8? text.toUTF8 = some text := dif_pos text.isValidUTF8
  rw [decode?, htext, Option.bind_eq_bind, Option.bind_some, h]
  rfl

end SnapshotIndex

/-! ## Worlds -/

namespace World

variable {ids : Nat → Uid} {n m : Nat} {Q R : Uid → Path → Prop} {w w' : World}

/-- Some index on the disk has that snapshot. -/
def Lists (w : World) (t : Snapshot) : Prop :=
  ∃ content i, w.disk.Holds content ∧ SnapshotIndex.decode? content = some i ∧ t ∈ i.snapshots

/-- Every index on the disk names for each snapshot a file that `Q` allows for its name. The
identifiers that are drawn come from `ids`, and at least the first `n` of them were drawn. -/
structure Ascribes (ids : Nat → Uid) (n : Nat) (Q : Uid → Path → Prop) (w : World) : Prop where
  lists : ∀ t, w.Lists t → Q t.id t.source
  ids_eq : w.ids = ids
  drawn : n ≤ w.drawn

namespace Ascribes

theorem mono (h : Ascribes ids n Q w) (hQR : ∀ id p, Q id p → R id p) : Ascribes ids n R w :=
  ⟨fun t ht => hQR _ _ (h.lists t ht), h.ids_eq, h.drawn⟩

theorem of_held (h : Ascribes ids n Q w) {content : ByteArray} (hheld : w.disk.Holds content)
    {i : SnapshotIndex} (hi : SnapshotIndex.decode? content = some i) : i.Ascribes Q :=
  fun t ht => h.lists t ⟨content, i, hheld, hi, ht⟩

/-- On another disk too, if what it has more has no index in it that `Q` forbids. -/
theorem disk (h : Ascribes ids n Q w) (hids : w'.ids = w.ids) (hdrawn : w.drawn ≤ w'.drawn)
    (hdisk : ∀ content, w'.disk.Holds content → w.disk.Holds content ∨
      ∀ i, SnapshotIndex.decode? content = some i → i.Ascribes Q) : Ascribes ids n Q w' := by
  refine ⟨?_, hids.trans h.ids_eq, Nat.le_trans h.drawn hdrawn⟩
  rintro t ⟨content, i, hheld, hi, ht⟩
  rcases hdisk content hheld with hheld | hallowed
  · exact h.lists t ⟨content, i, hheld, hi, ht⟩
  · exact hallowed i hi t ht

theorem within (h : Ascribes ids n Q w) (hw : Within (fun _ => False) w w') :
    Ascribes ids n Q w' := by
  refine h.disk hw.ids hw.drawn fun content hheld => ?_
  obtain ⟨l, mode, modified, hat⟩ := hheld
  exact Or.inl ⟨l, mode, modified, hw.frame.file_of_file id hat⟩

end Ascribes

theorem keeps_createNew (p : Path) {content : ByteArray}
    (h : SnapshotIndex.decode? content = none) :
    (createNew p content).Keeps (Ascribes ids n Q) := by
  intro w hw
  refine ends_diskOperation (fun e trouble => hw.within (.ofTrouble w trouble)) ?_
  intro trouble d hd
  obtain ⟨l, -, -, rfl⟩ := Disk.create_eq_ok hd
  refine hw.disk rfl (Nat.le_refl _) fun content' hheld => ?_
  rcases hheld.of_put with hheld | ⟨mode, modified, heq⟩
  · exact Or.inl hheld
  · cases heq
    refine Or.inr fun i hi => ?_
    rw [h] at hi
    cases hi

theorem keeps_removeFile (p : Path) : (removeFile p).Keeps (Ascribes ids n Q) := by
  intro w hw
  refine ends_diskOperation (fun e trouble => hw.within (.ofTrouble w trouble)) ?_
  intro trouble d hd
  obtain ⟨l, e, -, -, -, rfl⟩ := Disk.remove_eq_ok hd
  exact hw.disk rfl (Nat.le_refl _) fun content hheld => Or.inl hheld.of_erase

theorem keeps_makeDirectories (p : Path) :
    (makeDirectories p).Keeps (Ascribes ids n Q) := fun _ hw =>
  (ends_makeDirectories fun _ => False).mono fun _ _ hwithin => hw.within hwithin

/-- Bytes that were read are on the disk. -/
theorem ends_readBytes_holds (p : Path) (hw : Ascribes ids n Q w) :
    (readBytes p).Ends w fun r w' => Ascribes ids n Q w' ∧
      ∀ content, r = .ok content → w'.disk.Holds content := by
  refine (ends_readBytes fun _ => False).mono ?_
  rintro r w' ⟨hwithin, hdisk, hread⟩
  refine ⟨hw.within hwithin, fun content hr => ?_⟩
  rw [hdisk]
  exact Disk.holds_of_read (hread content hr)

/-- A file that is written brings an index about only if its bytes are one. -/
theorem ends_writeFile_ascribes (target : Path) {content : ByteArray}
    (hw : Ascribes ids n Q w) (hQR : ∀ id p, Q id p → R id p)
    (hcontent : ∀ i, SnapshotIndex.decode? content = some i → i.Ascribes R) :
    (writeFile target content).Ends w fun r w' =>
      match r with
      | .ok _ => Ascribes ids n R w'
      | .error _ => Ascribes ids n Q w' := by
  refine ends_writeFile_puts.mono ?_
  rintro (e | _) w' hw'
  · exact hw.within hw'
  · obtain ⟨v, l, mode, modified, hv, -, -, rfl, -⟩ := hw'
    refine ((hw.within hv).mono hQR).disk rfl (Nat.le_refl _) fun content' hheld => ?_
    rcases hheld.of_put with hheld | ⟨mode', modified', heq⟩
    · exact Or.inl hheld
    · cases heq
      exact Or.inr hcontent

end World

open World (Ascribes)

theorem FileLocks.stable_ascribes {ids : Nat → Uid} {n : Nat} {Q : Uid → Path → Prop} :
    FileLocks.Stable (Ascribes ids n Q) where
  makeDirectories := World.keeps_makeDirectories
  createNew := fun p => World.keeps_createNew p (SnapshotIndex.decode?_of_text (by decide +kernel))
  removeFile := World.keeps_removeFile
  memory := fun _ _ _ h => ⟨h.lists, h.ids_eq, h.drawn⟩

/-! ## The store -/

namespace SnapshotStore

open FileLocks (Stable stable_ascribes)

variable {α : Type} (s : SnapshotStore) {ids : Nat → Uid} {n : Nat} {Q : Uid → Path → Prop}
  {w : World}

theorem loadIndex_ascribes (hw : Ascribes ids n Q w) : s.loadIndex.Ends w fun r w' =>
    Ascribes ids n Q w' ∧ ∀ i, r = .ok i → i.Ascribes Q := by
  refine Act.ends_look_bind ?_
  by_cases hthere : w.pathExists s.indexFile = true
  · rw [if_pos hthere]
    refine (World.ends_readBytes_holds s.indexFile hw).mapError.bind ?_ ?_
    · rintro bytes w₁ ⟨h₁, hheld⟩
      cases hdecode : SnapshotIndex.decode? bytes with
      | none => exact Act.ends_throw ⟨h₁, nofun⟩
      | some i =>
        refine Act.ends_pure ⟨h₁, fun j hj => ?_⟩
        cases hj
        exact h₁.of_held (hheld bytes rfl) hdecode
    · rintro e w₁ ⟨-, -, h₁, -⟩
      exact ⟨h₁, nofun⟩
  · rw [if_neg hthere]
    refine Act.ends_pure ⟨hw, fun j hj => ?_⟩
    cases hj
    exact SnapshotIndex.ascribes_empty

theorem index_ascribes (hw : Ascribes ids n Q w) : s.index.Ends w fun r w' =>
    Ascribes ids n Q w' ∧ ∀ i, r = .ok i → i.Ascribes Q :=
  stable_ascribes.ends_withLock s.locks _ (fun _ => stable_ascribes.and_const _)
    (fun _ _ hw' => ⟨hw', nofun⟩) (fun _ hw' => s.loadIndex_ascribes hw') hw

/-- An update of the index does what the change and the writing of the new index do. -/
theorem ends_updateIndex {f : SnapshotIndex → Act SnapshotError (α × SnapshotIndex)}
    {P : Except SnapshotError α → World → Prop} (hP : ∀ r, Stable (P r))
    (hfailed : ∀ e w, Ascribes ids n Q w → P (.error e) w)
    (hf : ∀ i w, i.Ascribes Q → Ascribes ids n Q w → (f i).Ends w fun r w' =>
      match r with
      | .ok (x, j) => ((writeFile s.indexFile j.encode).mapError SnapshotError.write).Ends w'
          fun r w'' => P (r.map fun _ => x) w''
      | .error e => P (.error e) w') (hw : Ascribes ids n Q w) :
    (s.updateIndex f).Ends w P := by
  refine stable_ascribes.ends_withLock s.locks _ hP hfailed (fun w₁ h₁ => ?_) hw
  refine (s.loadIndex_ascribes h₁).bind ?_ ?_
  · rintro i w₂ ⟨h₂, hi⟩
    refine (hf i w₂ (hi i rfl) h₂).bind ?_ ?_
    · rintro ⟨x, j⟩ w₃ h₃
      exact h₃.bind (fun _ w₄ h₄ => Act.ends_pure h₄) fun e w₄ h₄ => h₄
    · intro e w₃ h₃
      exact h₃
  · rintro e w₂ ⟨h₂, -⟩
    exact hfailed e w₂ h₂

/-- A change of the index that neither draws a name nor brings in a snapshot changes nothing about
which files snapshots are of. -/
theorem keeps_updateIndex_ascribes {f : SnapshotIndex → Act SnapshotError (α × SnapshotIndex)}
    (hf : ∀ i w, i.Ascribes Q → Ascribes ids n Q w → (f i).Ends w fun r w' =>
      Ascribes ids n Q w' ∧ ∀ x j, r = .ok (x, j) → j.Ascribes Q) :
    (s.updateIndex f).Keeps (Ascribes ids n Q) := by
  intro w hw
  refine s.ends_updateIndex (fun _ => stable_ascribes) (fun _ _ h => h) (fun i w₁ hi h₁ => ?_) hw
  refine (hf i w₁ hi h₁).mono ?_
  rintro (e | ⟨x, j⟩) w₂ ⟨h₂, hj⟩
  · exact h₂
  · refine (World.ends_writeFile_ascribes s.indexFile h₂ (fun _ _ h => h) fun k hk =>
      (hj x j rfl).of_encode hk).mapError.mono ?_
    rintro (e | _) w₃ h₃
    · obtain ⟨_, _, h₃⟩ := h₃
      exact h₃
    · exact h₃

theorem keeps_removeCopy (location : Path) : (removeCopy location).Keeps (Ascribes ids n Q) := by
  rw [removeCopy]
  refine (World.keeps_removeFile location).outcome.bind fun r => ?_
  split
  · exact Act.keeps_pure _
  · exact Act.keeps_pure _
  · exact Act.keeps_throw _

theorem keeps_delete_ascribes (id : Uid) : (s.delete id).Keeps (Ascribes ids n Q) := by
  refine (s.keeps_updateIndex_ascribes fun i w hi hw => ?_).bind fun t =>
    keeps_removeCopy t.location
  cases i.find? id with
  | none => exact Act.ends_throw ⟨hw, nofun⟩
  | some t =>
    refine Act.ends_pure ⟨hw, fun x j hj => ?_⟩
    cases hj
    exact hi.drop id

theorem keeps_retain_ascribes (file : Path) (keep : Nat) :
    (s.retain file keep).Keeps (Ascribes ids n Q) := by
  have hlist : (s.listFor file).Keeps (Ascribes ids n Q) := by
    have hindex : s.index.Keeps (Ascribes ids n Q) := fun w hw =>
      (s.index_ascribes hw).mono fun _ _ h => h.1
    exact (Act.keeps_look _).bind fun _ => hindex.bind fun _ => Act.keeps_pure _
  refine (Act.keeps_look _).bind fun pinned => hlist.bind fun ts => ?_
  exact (Act.Keeps.forM s.keeps_delete_ascribes _).bind fun _ => Act.keeps_pure _

/-! ## New snapshots -/

/-- A snapshot of `source` was taken under the name that was drawn with the number `m`, and nothing
else about which files snapshots are of has changed. -/
def Credited (ids : Nat → Uid) (n : Nat) (Q : Uid → Path → Prop) (source : Path) (t : Snapshot)
    (w : World) : Prop :=
  ∃ m, Ascribes ids (m + 1) (fun id p => Q id p ∨ t.id = id ∧ t.source = p) w ∧
    n ≤ m ∧ t.id = ids m ∧ t.source = source

/-- What is known behind a step that takes a snapshot. -/
def Credits (ids : Nat → Uid) (n : Nat) (Q : Uid → Path → Prop) (source : Path) :
    Except SnapshotError Snapshot → World → Prop
  | .ok t => Credited ids n Q source t
  | .error _ => Ascribes ids n Q

theorem stable_credits (source : Path) (r : Except SnapshotError Snapshot) :
    Stable (Credits ids n Q source r) := by
  cases r with
  | error e => exact stable_ascribes
  | ok t => exact Stable.exists fun m => stable_ascribes.and_const _

theorem record_credits (source : Path) (hw : Ascribes ids n Q w) :
    (s.record source).Ends w (Credits ids n Q source) := by
  refine stable_ascribes.ends_withLock s.locks _ (stable_credits source) (fun _ _ h => h)
    (fun w₁ h₁ => ?_) hw
  refine (World.ends_readBytes_holds source h₁).mapError.bind ?_ ?_
  · rintro bytes w₂ ⟨h₂, hheld⟩
    refine World.ends_readClock_bind (Act.ends_look_bind ?_)
    have h₃ : Ascribes ids n Q { w₂ with readings := w₂.readings + 1 } :=
      ⟨h₂.lists, h₂.ids_eq, h₂.drawn⟩
    generalize s.locationFor _ _ _ = location
    refine (World.ends_writeFile_ascribes location h₃ (fun _ _ h => h) fun i hi =>
      h₂.of_held (hheld bytes rfl) hi).mapError.bind (fun _ w₄ h₄ => ?_) ?_
    · have hupdated : (s.updateIndex fun index => do
          let snapshot : Snapshot :=
            { id := ← World.drawId, source, location, checksum := Digest.blake3 bytes
              createdAt := w₂.clock w₂.readings, size := MachineWord.wrap bytes.size
              sequence := index.nextSequence }
          return (snapshot, index.add snapshot)).Ends w₄ (Credits ids n Q source) := by
        refine s.ends_updateIndex (stable_credits source) (fun _ _ h => h) (fun i w₅ hi h₅ => ?_) h₄
        refine World.ends_drawId_bind (Act.ends_pure ?_)
        have h₆ : Ascribes ids (w₅.drawn + 1) Q { w₅ with drawn := w₅.drawn + 1 } :=
          ⟨h₅.lists, h₅.ids_eq, Nat.le_refl _⟩
        have hadded (t : Snapshot) :
            (i.add t).Ascribes fun id p => Q id p ∨ t.id = id ∧ t.source = p :=
          (hi.mono fun _ _ => Or.inl).add (Or.inr ⟨rfl, rfl⟩)
        refine (World.ends_writeFile_ascribes s.indexFile h₆ (fun _ _ => Or.inl) fun j hj =>
          (hadded _).of_encode hj).mapError.mono ?_
        rintro (e | _) w₇ h₇
        · obtain ⟨_, _, h₇⟩ := h₇
          exact ⟨h₇.lists, h₇.ids_eq, Nat.le_trans h₅.drawn (Nat.le_of_succ_le h₇.drawn)⟩
        · exact ⟨w₅.drawn, h₇, h₅.drawn, congrFun h₅.ids_eq _, rfl⟩
      refine hupdated.outcome.bind (fun r w₅ h₅ => ?_) fun e w₅ h₅ => h₅.elim
      cases r with
      | ok t => exact Act.ends_pure h₅
      | error e =>
        refine ((keeps_removeCopy location).outcome w₅ h₅).bind (fun _ w₆ h₆ => ?_)
          fun e w₆ h₆ => h₆
        exact Act.ends_throw h₆
    · rintro e w₄ ⟨_, _, h₄⟩
      exact h₄
  · rintro e w₂ ⟨-, -, h₂, -⟩
    exact h₂

/-- A snapshot is of the file that its path stands for when it is taken. -/
theorem create_credits (file : Path) (hw : Ascribes ids n Q w) :
    (s.create file).Ends w fun r w' => ∀ t, r = .ok t →
      Credited ids n Q (w.identity file) t w' := by
  refine Act.ends_look_bind (Act.ends_look_bind ?_)
  by_cases hfile : w.isFile (w.identity file) = true
  · rw [if_pos hfile]
    refine (s.record_credits _ hw).bind ?_ fun e w₁ h₁ => nofun
    rintro t w₁ ⟨m, h₁, hm⟩
    refine (s.keeps_retain_ascribes _ _ w₁ h₁).bind (fun _ w₂ h₂ => ?_) fun e w₂ h₂ => nofun
    refine Act.ends_pure fun u hu => ?_
    cases hu
    exact ⟨m, h₂, hm⟩
  · rw [if_neg hfile]
    exact Act.ends_throw nofun

/-! ## Batches -/

/-- A world that a batch comes by: some of the files from the first on are done. -/
def ComesBy (s : SnapshotStore) (files : List Path) (w v : World) : Prop :=
  ∃ front ts, front <+: files ∧ (s.createMembers [] [] front).apply w = (.ok ts, v)

theorem comesBy_self (s : SnapshotStore) (files : List Path) (w : World) : s.ComesBy files w w :=
  ⟨[], [], List.nil_prefix, rfl⟩

/-- A name that an index had before the batch, or the name of a snapshot of it, with its file. -/
def Among (w : World) (taken : List Snapshot) (id : Uid) (p : Path) : Prop :=
  (∃ t, w.Lists t ∧ t.id = id) ∨ ∃ t ∈ taken, t.id = id ∧ t.source = p

/-- Snapshots were taken from the world `w` on under names that were drawn one after the other, and
no index ascribes another file to one of them. -/
def Gathered (w : World) (taken : List Snapshot) (v : World) : Prop :=
  ∃ (n : Nat) (draws : List Nat), Ascribes w.ids n (Among w taken) v ∧ w.drawn ≤ n ∧
    draws.Pairwise (· < ·) ∧ (∀ m ∈ draws, w.drawn ≤ m ∧ m < n) ∧
    taken.map (·.id) = draws.map w.ids

theorem gathered_nil (w : World) : Gathered w [] w :=
  ⟨w.drawn, [], ⟨fun t ht => Or.inl ⟨t, ht, rfl⟩, rfl, Nat.le_refl _⟩, Nat.le_refl _, .nil,
    nofun, rfl⟩

section Batch

variable {s : SnapshotStore} {w v v' : World} {seen : List Path} {taken : List Snapshot}
  {file : Path} {files : List Path}

theorem Gathered.create (h : Gathered w taken v) (file : Path) : (s.create file).Ends v fun r v' =>
    ∀ t, r = .ok t → t.source = v.identity file ∧ Gathered w (taken ++ [t]) v' := by
  obtain ⟨n, draws, hv, hn, hsorted, hdraws, hids⟩ := h
  refine (s.create_credits file hv).mono fun r v' hr t ht => ?_
  obtain ⟨m, hv', hm, hid, hsource⟩ := hr t ht
  have hamong : ∀ id p, Among w taken id p ∨ t.id = id ∧ t.source = p →
      Among w (taken ++ [t]) id p := by
    rintro id p ((hold | ⟨u, hu, hnamed⟩) | hnew)
    · exact Or.inl hold
    · exact Or.inr ⟨u, List.mem_append_left _ hu, hnamed⟩
    · exact Or.inr ⟨t, List.mem_append_right _ List.mem_cons_self, hnew⟩
  refine ⟨hsource, m + 1, draws ++ [m], hv'.mono hamong, by omega, ?_, ?_, ?_⟩
  · refine List.pairwise_append.mpr ⟨hsorted, List.pairwise_singleton _ _, fun k hk k' hk' => ?_⟩
    rw [List.mem_singleton.mp hk']
    exact Nat.lt_of_lt_of_le (hdraws k hk).2 hm
  · intro k hk
    rcases List.mem_append.mp hk with hk | hk
    · have hbounds := hdraws k hk
      omega
    · rw [List.mem_singleton.mp hk]
      omega
  · rw [List.map_append, List.map_append, hids, List.map_singleton, List.map_singleton, hid]

theorem createMembers_of_seen (h : seen.any (·.same (v.identity file)) = true) :
    (s.createMembers seen taken (file :: files)).apply v =
      (s.createMembers seen taken files).apply v := by
  rw [createMembers, Act.apply_look_bind, if_pos h]

theorem createMembers_of_created (h : ¬ seen.any (·.same (v.identity file)) = true)
    {t : Snapshot} (hcreate : (s.create file).apply v = (.ok t, v')) :
    (s.createMembers seen taken (file :: files)).apply v =
      (s.createMembers (seen ++ [v.identity file]) (taken ++ [t]) files).apply v' := by
  rw [createMembers, Act.apply_look_bind, if_neg h, Act.apply_outcome_bind hcreate]

/-- A batch fails with its first failure. -/
theorem createMembers_of_failed (h : ¬ seen.any (·.same (v.identity file)) = true)
    {e : SnapshotError} (hcreate : (s.create file).apply v = (.error e, v')) (ts : List Snapshot) :
    ((s.createMembers seen taken (file :: files)).apply v).1 ≠ .ok ts := by
  rw [createMembers, Act.apply_look_bind, if_neg h, Act.apply_outcome_bind hcreate]
  exact (Act.ends_iff (Q := fun r _ => r ≠ .ok ts)).mp
    (Act.ends_trivial.bind (fun _ _ _ => Act.ends_throw nofun) fun _ _ _ => nofun)

/-- A batch in the middle: the files of `front` are done, and what comes after them is done as if
it were done alone. Each of them has a snapshot of the file that it stood for at the start. -/
structure Midway (s : SnapshotStore) (w : World) (front seen : List Path) (taken : List Snapshot)
    (v : World) : Prop where
  goesOn : ∀ files, (s.createMembers [] [] (front ++ files)).apply w =
    (s.createMembers seen taken files).apply v
  took : Gathered w taken v
  seen : ∀ k ∈ seen, ∃ t ∈ taken, t.source.same k = true
  done : ∀ f ∈ front, ∃ t ∈ taken, t.source.same (w.identity f) = true

theorem midway_nil (s : SnapshotStore) (w : World) : Midway s w [] [] [] w :=
  ⟨fun _ => rfl, gathered_nil w, nofun, nofun⟩

theorem Midway.comesBy {front : List Path} (h : Midway s w front seen taken v)
    (hfront : front <+: files) : s.ComesBy files w v := by
  refine ⟨front, taken, hfront, ?_⟩
  have hstop := h.goesOn []
  rw [List.append_nil] at hstop
  rw [hstop]
  rfl

theorem same_refl (p : Path) : p.same p = true := beq_self_eq_true p.components

theorem same_trans {p q r : Path} (h : p.same q = true) (h' : q.same r = true) :
    p.same r = true := by
  rw [Path.same, beq_iff_eq] at *
  exact h.trans h'

/-- A file that stands for one that was seen needs no snapshot of its own. -/
theorem Midway.skip {front : List Path} (h : Midway s w front seen taken v)
    (hsteady : v.identity file = w.identity file)
    (hseen : seen.any (·.same (v.identity file)) = true) :
    Midway s w (front ++ [file]) seen taken v where
  goesOn := by
    intro files
    rw [List.append_assoc, h.goesOn, List.singleton_append, createMembers_of_seen hseen]
  took := h.took
  seen := h.seen
  done := by
    intro f hf
    rcases List.mem_append.mp hf with hf | hf
    · exact h.done f hf
    · obtain ⟨k, hk, hsame⟩ := List.any_eq_true.mp hseen
      obtain ⟨t, ht, hsource⟩ := h.seen k hk
      rw [List.mem_singleton.mp hf, ← hsteady]
      exact ⟨t, ht, same_trans hsource hsame⟩

theorem Midway.take {front : List Path} (h : Midway s w front seen taken v)
    (hsteady : v.identity file = w.identity file)
    (hseen : ¬ seen.any (·.same (v.identity file)) = true) {t : Snapshot}
    (hcreate : (s.create file).apply v = (.ok t, v')) :
    Midway s w (front ++ [file]) (seen ++ [v.identity file]) (taken ++ [t]) v' := by
  obtain ⟨hsource, htook⟩ := (h.took.create (s := s) file).of_apply hcreate t rfl
  have hlater : ∀ k, (∃ u ∈ taken, u.source.same k = true) →
      ∃ u ∈ taken ++ [t], u.source.same k = true := by
    rintro k ⟨u, hu, hsame⟩
    exact ⟨u, List.mem_append_left _ hu, hsame⟩
  have hnew : ∃ u ∈ taken ++ [t], u.source.same (v.identity file) = true :=
    ⟨t, List.mem_append_right _ List.mem_cons_self, hsource ▸ same_refl _⟩
  refine ⟨fun files => ?_, htook, fun k hk => ?_, fun f hf => ?_⟩
  · rw [List.append_assoc, h.goesOn, List.singleton_append,
      createMembers_of_created hseen hcreate]
  · rcases List.mem_append.mp hk with hk | hk
    · exact hlater k (h.seen k hk)
    · rw [List.mem_singleton.mp hk]
      exact hnew
  · rcases List.mem_append.mp hf with hf | hf
    · exact hlater _ (h.done f hf)
    · rw [List.mem_singleton.mp hf, ← hsteady]
      exact hnew

/-- A batch that succeeds is midway until it is through, as long as its files stand for what they
stood for at the start. -/
theorem Midway.through {rest front : List Path} (h : Midway s w front seen taken v)
    (hfiles : files = front ++ rest)
    (hsteady : ∀ u, s.ComesBy files w u → ∀ f ∈ files, u.identity f = w.identity f)
    {ts : List Snapshot} (hrun : (s.createMembers seen taken rest).apply v = (.ok ts, v')) :
    ∃ seen', Midway s w files seen' ts v' := by
  induction rest generalizing front seen taken v with
  | nil =>
    rw [List.append_nil] at hfiles
    cases hrun
    exact ⟨seen, hfiles ▸ h⟩
  | cons file rest ih =>
    have hmore : files = (front ++ [file]) ++ rest := by
      rw [hfiles, List.append_assoc, List.singleton_append]
    have hhere : v.identity file = w.identity file := by
      refine hsteady v (h.comesBy ⟨file :: rest, hfiles.symm⟩) file ?_
      rw [hfiles]
      exact List.mem_append_right _ List.mem_cons_self
    by_cases hseen : seen.any (·.same (v.identity file)) = true
    · rw [createMembers_of_seen hseen] at hrun
      exact ih (h.skip hhere hseen) hmore hrun
    · rcases hcreate : (s.create file).apply v with ⟨e | t, v₁⟩
      · exact absurd (congrArg Prod.fst hrun) (createMembers_of_failed hseen hcreate ts)
      · rw [createMembers_of_created hseen hcreate] at hrun
        exact ih (h.take hhere hseen hcreate) hmore hrun

end Batch

end SnapshotStore

end Amend
