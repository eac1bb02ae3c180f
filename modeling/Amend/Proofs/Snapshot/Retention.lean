import Amend.Proofs.Snapshot.Capture
import Amend.Proofs.Snapshot.History
import Amend.Proofs.Workflow.File

/-!
# What retention drops

Retention ranks the snapshots of a file, the newest first, and drops those behind the first few that
nothing pins: these and no others, with their copies.  A file of which snapshots are taken one after
the other therefore has the last of them, as many as are kept.
-/

namespace Amend

open Disk (Plain)
open World (Within)
open FileLocks (Region)

namespace SnapshotStore

variable {s : SnapshotStore} {base : Location} {w w' v : World} {i j : SnapshotIndex}
  {t : Snapshot} {file : Path} {keep : Nat} {gone : List Uid}

/-! ## The copies -/

/-- The custody of a store whose snapshots have the copies that they had at some time. -/
def steadyCustody (s : SnapshotStore) (base : Location) (w : World) : Custody :=
  { s.custody base with fact := fun t content => t.HasCopy s.dir base content w.disk }

theorem kept_steady (h : s.InOrder base w i) : (s.steadyCustody base w).Kept w i where
  under := h.under
  clock := h.clock
  isAt := h.isAt
  valid := h.valid
  copies := by
    intro t ht
    obtain ⟨content, hcopy, -⟩ := h.copies t ht
    exact ⟨content, hcopy, hcopy⟩
  apart := h.apart
  sets := h.sets
  found := nofun
  guards := nofun
  pinned := nofun
  unused := nofun

/-- A snapshot of which there is no copy. -/
def Copyless (base : Location) (dir : Path) (t : Snapshot) (w : World) : Prop :=
  ∀ content, ¬ t.HasCopy dir base content w.disk

theorem Copyless.sheds {c : Custody} (h : Copyless c.base c.store.dir t w) (hw : c.Sheds w w') :
    Copyless c.base c.store.dir t w' := by
  rintro content ⟨name, mode, modified, hname, hfits, hlocation, hat⟩
  exact h content ⟨name, mode, modified, hname, hfits, hlocation,
    hw name content mode modified hname.ne_index hat⟩

/-- Where the system refuses nothing, a copy is gone when it was removed. -/
theorem removeCopy_removes (h : s.locks.Under s.dir base w) (htrouble : w.trouble = [])
    {content : ByteArray} (hcopy : t.HasCopy s.dir base content w.disk) :
    (removeCopy t.location).Ends w fun _ w' => Copyless base s.dir t w' := by
  obtain ⟨name, mode, modified, hname, hfits, hlocation, hat⟩ := hcopy
  have hlocate : w.disk.locate (w.absolute (s.dir ++ name)) false = .ok (base ++ [name]) :=
    (h.locate_name hname.isName).mpr ⟨rfl, hfits⟩
  have hremove : (World.removeFile (s.dir ++ name)).Yields w fun _ w' =>
      w' = { w with disk := w.disk.erase (base ++ [name]) } :=
    World.yields_diskOperation htrouble (Disk.remove_of_file hlocate hat) rfl
  rw [hlocation, removeCopy]
  refine hremove.outcome.bind_ends ?_
  rintro _ w' ⟨_, rfl, rfl⟩
  refine Act.ends_pure ?_
  rintro other ⟨name', mode', modified', hname', -, hlocation', hat'⟩
  obtain rfl := Path.join_injective hname.isName s.dir hname'.isName
    (hlocation.symm.trans hlocation')
  rw [Disk.at?_erase_self _ _ (List.concat_ne_nil _ _)] at hat'
  cases hat'

/-- A snapshot that was dropped has no copy any more. -/
theorem delete_removes (h : s.InOrder base w i) (htrouble : w.trouble = []) {id : Uid}
    (hfound : i.find? id = some t) :
    (s.delete id).Ends w fun r w' => r = .ok () → Copyless base s.dir t w' := by
  rw [delete]
  refine ((h.updateIndex (P := fun u j _ => u = t ∧ j = i.drop id) ?drops).and
    (s.quiet_updateIndex ?quiet w htrouble)).bind ?removes ?fails
  case drops =>
    intro w₁ h₁
    simp only [hfound]
    refine Act.ends_pure ⟨h₁, ?_⟩
    rintro _ _ ⟨⟩
    exact ⟨rfl, rfl⟩
  case quiet =>
    intro index
    split
    · exact Act.quiet_pure _
    · exact Act.quiet_throw _
  case removes =>
    rintro u w₁ ⟨⟨_, w₂, ⟨rfl, rfl⟩, h₂, hreindexed⟩, htrouble₁⟩
    have hkept := (h.within_region h₂).drop hreindexed fun _ _ hg => hg.elim
    obtain ⟨content, hcopy, -⟩ :=
      (h.within_region h₂).copies u (SnapshotIndex.mem_of_find? hfound).1
    exact (removeCopy_removes hkept.under htrouble₁ (hreindexed.hasCopy hcopy)).mono
      fun _ _ hgone _ => hgone
  case fails => rintro e w₁ _ ⟨⟩

/-- The same when several are dropped. -/
theorem deleteAll_removes (h : s.InOrder base w i) (htrouble : w.trouble = [])
    (hdistinct : i.snapshots.Pairwise fun a b => a.id ≠ b.id) (ids : List Uid) :
    (ids.forM s.delete).Ends w fun r w' =>
      r = .ok () → ∀ t ∈ i.snapshots, t.id ∈ ids → Copyless base s.dir t w' := by
  induction ids generalizing w i with
  | nil => exact Act.ends_pure fun _ _ _ hid => absurd hid List.not_mem_nil
  | cons id ids ih =>
    have hdrop := ((h.delete fun _ _ hg => hg.elim).and (s.quiet_delete id w htrouble)).and_apply
    refine hdrop.bind ?_ ?_
    · rintro _ w₁ ⟨⟨⟨-, gone, rest, heq, hkept, hall⟩, htrouble₁⟩, hrun⟩
      rw [hall () rfl, List.append_nil] at heq
      rw [← heq, List.foldl_cons, List.foldl_nil] at hkept
      have hsub : (i.drop id).snapshots.Sublist i.snapshots := List.eraseP_sublist
      refine ((ih hkept htrouble₁ (hdistinct.sublist hsub)).and
        (hkept.deleteAll_sheds (fun _ _ hg => hg) ids)).mono ?_
      rintro r w₂ ⟨hrest, hsheds⟩ hr t ht hid
      by_cases hfirst : t.id = id
      · have hfound : i.find? id = some t := SnapshotIndex.find?_of_distinct hdistinct ht hfirst
        exact ((delete_removes h htrouble hfound).of_apply hrun rfl).sheds hsheds
      · refine hrest hr t ?_ ((List.mem_cons.mp hid).resolve_left hfirst)
        rw [SnapshotIndex.snapshots_drop hdistinct]
        exact List.mem_filter.mpr ⟨ht, by simpa using hfirst⟩
    · rintro e w₁ _ ⟨⟩

theorem Copyless.read_ne {content : ByteArray} (h : Copyless base s.dir t w')
    (hcopy : t.HasCopy s.dir base content w.disk) (hunder : s.locks.Under s.dir base w')
    (bytes : ByteArray) : w'.disk.read (w'.absolute t.location) ≠ .ok bytes := by
  obtain ⟨name, -, -, hname, hfits, hlocation, -⟩ := hcopy
  intro hread
  obtain ⟨l, mode, modified, hl, hat⟩ := Disk.read_eq_ok_iff.mp hread
  rw [hlocation] at hl
  obtain ⟨rfl, -⟩ := (hunder.locate_name hname.isName).mp hl
  exact h bytes ⟨name, mode, modified, hname, hfits, hlocation, hat⟩

/-! ## One run of retention -/

/-- The snapshots of a file among those of an index, ranked: the newest first and, of one time, the
one with the highest number. -/
structure Ranks (i : SnapshotIndex) (key : Path) (ranked : List Snapshot) : Prop where
  perm : ranked.Perm (i.snapshots.filter (·.source.same key))
  ordered : ranked.Pairwise fun a b => a.newerOrEqual b = true

theorem ranks_ofFile (i : SnapshotIndex) (key : Path) : Ranks i key (i.ofFile key) :=
  ⟨Snapshot.newestFirst_perm _, Snapshot.newestFirst_pairwise _⟩

/-- What a store and its index are when snapshots were dropped of which a ranking is given: those
behind the first `keep` that were not pinned are gone, with their marks, and nothing else is. -/
structure Retained (s : SnapshotStore) (base : Location) (w : World) (i : SnapshotIndex)
    (ranked : List Snapshot) (keep : Nat) (gone : List Uid) (w' : World) (j : SnapshotIndex) :
    Prop where
  gone_eq : gone = ((ranked.drop keep).map (·.id)).filter fun id => !w.pinned.contains id
  isAt : j.IsAt base w'.disk
  snapshots : j.snapshots = i.snapshots.filter fun t => t.id ∉ gone
  listed : ∀ file, j.ofFile file = (i.ofFile file).filter fun t => t.id ∉ gone
  own : ∀ t ∈ i.snapshots, t.id ∈ gone → t ∈ ranked
  marks : j.restored = i.restored.filter fun m => m.1 ∉ gone
  sets : j.sets = i.sets
  copies : ∀ t ∈ j.snapshots, ∃ content, w.disk.read (w.absolute t.location) = .ok content ∧
    w'.disk.read (w'.absolute t.location) = .ok content
  removed : w.trouble = [] → ∀ t ∈ i.snapshots, t.id ∈ gone → ∀ content,
    w'.disk.read (w'.absolute t.location) ≠ .ok content
  beside : Within (base <+: ·) w w'

/-- Retention that succeeds has listed the snapshots of the file and dropped what is expired. -/
theorem ends_retain (h : s.InOrder base w i) {P : World → Prop}
    (hdelete : ∀ w₁, Within (Region base) w w₁ → (w.trouble = [] → w₁.trouble = []) →
      ((expired w.pinned keep (i.ofFile (w.identity file))).forM s.delete).Ends w₁
        fun r w₂ => r = .ok () → P w₂) :
    (s.retain file keep).Ends w fun r w' => ∀ gone, r = .ok gone →
      gone = expired w.pinned keep (i.ofFile (w.identity file)) ∧ P w' := by
  have hquiet : (s.listFor file).Quiet :=
    (Act.quiet_look _).bind fun _ => s.quiet_index.bind fun _ => Act.quiet_pure _
  have hlisted : (s.listFor file).Ends w fun r w₁ => (Within (Region base) w w₁ ∧
      ∀ newest, r = .ok newest → newest = i.ofFile (w.identity file)) ∧
        (w.trouble = [] → w₁.trouble = []) :=
    (Custody.Kept.listFor h file).and (Act.ends_imp (hquiet w))
  rw [retain]
  refine Act.ends_look_bind (hlisted.bind ?_ ?_)
  · rintro newest w₁ ⟨⟨h₁, hnewest⟩, htrouble⟩
    rw [hnewest newest rfl]
    refine (hdelete w₁ h₁ htrouble).bind (fun _ w₂ hP => Act.ends_pure ?_) ?_
    · rintro _ ⟨⟩
      exact ⟨rfl, hP rfl⟩
    · rintro e w₂ _ _ ⟨⟩
  · rintro e w₁ _ _ ⟨⟩

/-- Retention drops just those snapshots that are expired. -/
theorem Orderly.retain (h : s.Orderly base w i) (hapart : w.DrawsApart) (file : Path) (keep : Nat) :
    (s.retain file keep).Ends w fun r w' => ∀ gone, r = .ok gone → ∃ j, s.Orderly base w' j ∧
      s.Retained base w i (i.ofFile (w.identity file)) keep gone w' j := by
  have hdistinct := h.distinct hapart
  have hkeeps : (s.retain file keep).Ends w fun _ w' => s.IsOrderly base w' :=
    keeps_retain file keep w ⟨i, h⟩
  refine (hkeeps.and (ends_retain (P := fun w' => Within (base <+: ·) w w' ∧
    (s.steadyCustody base w).Kept w' ((expired w.pinned keep
      (i.ofFile (w.identity file))).foldl SnapshotIndex.drop i) ∧
    (w.trouble = [] → ∀ t ∈ i.snapshots,
      t.id ∈ expired w.pinned keep (i.ofFile (w.identity file)) → Copyless base s.dir t w'))
    h.inOrder fun w₁ h₁ htrouble => ?_)).mono ?_
  · have hsteady := (kept_steady h.inOrder).within_region h₁
    have hremoved : ((expired w.pinned keep (i.ofFile (w.identity file))).forM s.delete).Ends w₁
        fun r w₂ => w.trouble = [] → r = .ok () → ∀ t ∈ i.snapshots,
          t.id ∈ expired w.pinned keep (i.ofFile (w.identity file)) → Copyless base s.dir t w₂ :=
      Act.ends_imp fun hnone =>
        deleteAll_removes (h.inOrder.within_region h₁) (htrouble hnone) hdistinct _
    refine ((hsteady.deleteAll fun _ _ _ _ hg => hg.elim).and hremoved).mono ?_
    rintro r w₂ ⟨⟨hw, gone, rest, heq, hkept, hall⟩, hgone⟩ rfl
    rw [hall () rfl, List.append_nil] at heq
    rw [← heq] at hkept
    exact ⟨(h₁.mono fun _ hl => hl.below).trans hw, hkept, fun hnone => hgone hnone rfl⟩
  · rintro r w' ⟨⟨j, hj⟩, hdone⟩ gone hr
    obtain ⟨heq, hw, hkept, hremoved⟩ := hdone gone hr
    rw [← heq] at hkept hremoved
    obtain rfl := hkept.isAt.unique hj.inOrder.isAt
    refine ⟨_, hj, ?_⟩
    exact {
      gone_eq := heq
      isAt := hkept.isAt
      snapshots := SnapshotIndex.snapshots_foldl_drop hdistinct gone
      listed := SnapshotIndex.ofFile_foldl_drop hdistinct gone
      own := by
        intro t ht hid
        rw [heq] at hid
        obtain ⟨u, hu, hid'⟩ := List.mem_map.mp (List.mem_of_mem_filter hid)
        have hu' := List.mem_of_mem_drop hu
        have htu : t = u := Option.some.inj
          ((SnapshotIndex.find?_of_distinct hdistinct ht rfl).symm.trans
            (SnapshotIndex.find?_of_distinct hdistinct (SnapshotIndex.mem_ofFile.mp hu').1 hid'))
        rwa [htu]
      marks := SnapshotIndex.restored_foldl_drop gone
      sets := SnapshotIndex.sets_foldl_drop gone
      copies := by
        intro t ht
        obtain ⟨content, hcopy, hbefore⟩ := hkept.copies t ht
        exact ⟨content, hbefore.read h.inOrder.under, hcopy.read hkept.under⟩
      removed := by
        intro hnone t ht hid content
        obtain ⟨bytes, hcopy, -⟩ := h.inOrder.copies t ht
        exact (hremoved hnone t ht hid).read_ne hcopy hkept.under content
      beside := hw }

/-! ## Snapshots taken one after the other -/

/-- A path without links keeps naming one file. -/
theorem same_identity_of_plain {touched : Location → Prop} {p : Path} {l : Location}
    (hplain : Plain v.disk p l) (hw : Within touched v w) : (w.identity p).same p = true := by
  have habsolute : v.absolute p = p := by
    refine Path.join_of_absolute _ (Path.isAbsolute_of_root ?_)
    rw [hplain.components]
    exact List.mem_cons_self
  rw [hw.identity_of_plain (habsolute.symm ▸ hplain), Path.same, hplain.path.components,
    hplain.components]
  exact beq_self_eq_true _

theorem ofFile_congr {p q : Path} (h : p.same q = true) (i : SnapshotIndex) :
    i.ofFile p = i.ofFile q := by
  have heq : p.components = q.components := beq_iff_eq.mp h
  simp only [SnapshotIndex.ofFile, Path.same, heq]

/-- A list without those behind the first few is made of the first few. -/
theorem filter_not_mem_drop {ss : List Snapshot} (h : ss.Pairwise fun a b => a.id ≠ b.id) (n : Nat) :
    (ss.filter fun t => t.id ∉ (ss.drop n).map (·.id)) = ss.take n := by
  have hparts (front back : List Snapshot)
      (h : (front ++ back).Pairwise fun a b => a.id ≠ b.id) :
      ((front ++ back).filter fun t => t.id ∉ back.map (·.id)) = front := by
    obtain ⟨-, -, hapart⟩ := List.pairwise_append.mp h
    rw [List.filter_append, List.filter_eq_self.mpr, List.filter_eq_nil_iff.mpr, List.append_nil]
    · intro t ht
      simpa using ⟨t, ht, rfl⟩
    · intro t ht
      simpa using fun u hu heq => hapart t ht u hu heq.symm
  have hwhole := hparts (ss.take n) (ss.drop n) (by rwa [List.take_append_drop])
  rwa [List.take_append_drop] at hwhole

/-- The list of a file when one more snapshot has been entered. -/
theorem Orderly.ofFile_add (h : s.Orderly base w (i.add t)) (hroom : w.drawn < MachineWord.card)
    {key : Path} (htimes : ∀ u ∈ i.ofFile key, Timestamp.order u.createdAt t.createdAt ≠ .gt) :
    (i.add t).ofFile key =
      if t.source.same key then t :: i.ofFile key else i.ofFile key := by
  rw [SnapshotIndex.ofFile, SnapshotIndex.add, List.filter_append]
  cases hsame : t.source.same key with
  | false =>
    rw [List.filter_cons_of_neg (by simp [hsame]), List.filter_nil, List.append_nil]
    rfl
  | true =>
    have hnumbers := (h.numbered hroom).2.ascending
    rw [List.filter_cons_of_pos (by simpa using hsame), List.filter_nil]
    refine Snapshot.newestFirst_concat ?_ fun u hu => htimes u (Snapshot.mem_newestFirst.mpr hu)
    refine hnumbers.sublist ?_
    exact List.Sublist.append List.filter_sublist (List.Sublist.refl _)

/-- What a store is when a snapshot of a file was taken: the snapshot was entered into the index,
then retention has dropped what is expired of the file. -/
structure Took (s : SnapshotStore) (base : Location) (v : World) (i : SnapshotIndex)
    (key : Path) (t : Snapshot) (w : World) (gone : List Uid) (j : SnapshotIndex) : Prop where
  source : t.source = key
  draws : v.DrawsOn w
  pinned : w.pinned = v.pinned
  orderly : s.Orderly base w j
  entered : ∃ w₁, s.Orderly base w₁ (i.add t) ∧ w₁.DrawsOn w ∧ w₁.pinned = v.pinned ∧
    s.Retained base w₁ (i.add t) ((i.add t).ofFile key) s.kept gone w j

theorem Orderly.create (h : s.Orderly base v i) {l : Location}
    (hplain : Plain v.disk (v.identity file) l) :
    (s.create file).Ends v fun r w => ∀ t, r = .ok t → w.DrawsApart →
      ∃ gone j, s.Took base v i (v.identity file) t w gone j := by
  rw [SnapshotStore.create]
  refine Act.ends_look_bind (Act.ends_look_bind ?_)
  split
  case isTrue hthere =>
    refine (h.inOrder.record (truthful_custody s base v)).bind (fun u w₁ h₁ => ?_) ?_
    swap
    · rintro e w₁ _ _ ⟨⟩
    have hentered := h.entered h₁
    have hkey : (w₁.identity (v.identity file)).same (v.identity file) = true :=
      same_identity_of_plain hplain h₁.within
    refine ((hentered.inOrder.retain (v.identity file) s.kept).and
      (Act.ends_imp fun hapart => hentered.retain hapart (v.identity file) s.kept)).bind ?_ ?_
    · rintro gone w₂ ⟨hdropped, hretained⟩
      refine Act.ends_pure ?_
      rintro _ ⟨⟩ hapart
      have hon : w₁.DrawsOn w₂ := ⟨hdropped.within.ids, hdropped.within.drawn⟩
      obtain ⟨j, hj, hdone⟩ := hretained (hapart.earlier hon) gone rfl
      rw [ofFile_congr hkey] at hdone
      exact ⟨gone, j, h₁.source, .trans ⟨h₁.within.ids, h₁.within.drawn⟩ hon,
        hdropped.within.pinned.trans h₁.within.pinned, hj, w₁, hentered, hon, h₁.within.pinned,
        hdone⟩
    · rintro e w₂ _ _ ⟨⟩
  case isFalse => exact Act.ends_throw (by rintro _ ⟨⟩)

/-- A new snapshot is listed before those that there are of its file, of which the last are dropped
if there are too many.  Other files have the snapshots that they had. -/
theorem Took.ofFile {source : Path} (h : s.Took base v i source t w gone j)
    (hpinned : v.pinned = []) (hapart : w.DrawsApart) (hroom : w.drawn < MachineWord.card)
    {key : Path} (htimes : ∀ u ∈ i.ofFile key, Timestamp.order u.createdAt t.createdAt ≠ .gt) :
    j.ofFile key = if t.source.same key then (t :: i.ofFile key).take s.kept else i.ofFile key := by
  obtain ⟨w₁, hentered, hon, hpinned₁, hdone⟩ := h.entered
  have hadded := hentered.ofFile_add (Nat.lt_of_le_of_lt hon.drawn hroom) htimes
  rw [hdone.listed key, hadded]
  by_cases hsame : t.source.same key = true
  · rw [if_pos hsame] at hadded
    rw [if_pos hsame, if_pos hsame]
    have hdistinct : (t :: i.ofFile key).Pairwise fun a b => a.id ≠ b.id := by
      rw [← hadded]
      refine ((ranks_ofFile _ key).perm.pairwise_iff fun hne => hne.symm).mpr ?_
      exact (hentered.distinct (hapart.earlier hon)).sublist List.filter_sublist
    have hgone : gone = ((t :: i.ofFile key).drop s.kept).map (·.id) := by
      rw [hdone.gone_eq, hpinned₁, hpinned, ofFile_congr (h.source ▸ hsame), hadded]
      simp
    rw [hgone]
    exact filter_not_mem_drop hdistinct s.kept
  · rw [if_neg hsame, if_neg hsame]
    refine List.filter_eq_self.mpr fun u hu => ?_
    obtain ⟨hmem, hkey⟩ := SnapshotIndex.mem_ofFile.mp hu
    have hstays : u.id ∉ gone := by
      intro hid
      have hranked := hdone.own u (List.mem_append_left _ hmem) hid
      have hsource := (SnapshotIndex.mem_ofFile.mp hranked).2
      rw [Path.same, beq_iff_eq] at hsource hkey
      rw [h.source, Path.same, ← hsource, hkey, beq_self_eq_true] at hsame
      exact hsame rfl
    simpa using hstays

/-- Snapshots that are taken one after the other, each of a file whose identity is met by no link,
while files elsewhere and lock files come and go. -/
inductive Takes (s : SnapshotStore) (base : Location) (w : World) : List Snapshot → World → Prop
  | start : Takes s base w [] w
  | create {ts : List Snapshot} {v v' : World} {file : Path} {t : Snapshot} {l : Location}
      (h : Takes s base w ts v) (hplain : Plain v.disk (v.identity file) l)
      (hrun : (s.create file).apply v = (.ok t, v')) : Takes s base w (ts ++ [t]) v'
  | locks {ts : List Snapshot} {v v' : World} (h : Takes s base w ts v)
      (hw : Within (Region base) v v') : Takes s base w ts v'
  | elsewhere {ts : List Snapshot} {v v' : World} (h : Takes s base w ts v)
      (hw : s.Elsewhere base v v') : Takes s base w ts v'

theorem Orderly.drawsOn_create {r : Except SnapshotError Snapshot} (h : s.Orderly base v i)
    (hrun : (s.create file).apply v = (r, w)) : v.DrawsOn w := by
  have hcreate := (h.inOrder.create (truthful_custody s base v) file).of_apply hrun
  cases r with
  | ok t => exact ⟨hcreate.within.ids, hcreate.within.drawn⟩
  | error e =>
    obtain ⟨new, hw, -⟩ := hcreate
    exact ⟨hw.ids, hw.drawn⟩

theorem Takes.orderly {ts : List Snapshot} (htakes : s.Takes base w ts v) (h : s.Orderly base w i) :
    s.IsOrderly base v := by
  induction htakes with
  | start => exact ⟨i, h⟩
  | create _ _ hrun ih => exact (keeps_create _ _ ih).of_apply hrun
  | locks _ hw ih =>
    obtain ⟨j, hj⟩ := ih
    exact ⟨j, hj.region hw⟩
  | elsewhere _ hw ih =>
    obtain ⟨j, hj⟩ := ih
    exact ⟨j, hj.same ⟨hw.ids, hw.drawn⟩ (hj.inOrder.elsewhere hw)⟩

/-- Taking one more and keeping the first few is the same before and after the rest was cut. -/
theorem take_cons_take {α : Type} (n : Nat) (x : α) (xs : List α) :
    (x :: xs.take n).take n = (x :: xs).take n := by
  cases n with
  | zero => rfl
  | succ n =>
    rw [List.take_succ_cons, List.take_succ_cons, List.take_take, Nat.min_eq_left (Nat.le_succ n)]

/-- The last few snapshots of a file are left, if there were no more of them at first and these were
no later. -/
theorem Takes.newest {ts : List Snapshot} (htakes : s.Takes base w ts v) (h : s.Orderly base w i)
    (hpinned : w.pinned = []) (hapart : v.DrawsApart) (hroom : v.drawn < MachineWord.card)
    {key : Path} (hkept : (i.ofFile key).length ≤ s.kept)
    (htimes : ((i.ofFile key).reverse ++ ts).Pairwise fun a b =>
      Timestamp.order a.createdAt b.createdAt ≠ .gt) :
    ∃ j, s.Orderly base v j ∧ v.pinned = [] ∧
      j.ofFile key = ((ts.filter (·.source.same key)).reverse ++ i.ofFile key).take s.kept := by
  induction htakes with
  | start => exact ⟨i, h, hpinned, (List.take_of_length_le hkept).symm⟩
  | @create ts v v' file t l hbefore hplain hrun ih =>
    obtain ⟨_, hv⟩ := hbefore.orderly h
    have hon := hv.drawsOn_create hrun
    rw [← List.append_assoc] at htimes
    obtain ⟨hearlier, -, hlast⟩ := List.pairwise_append.mp htimes
    obtain ⟨j, hj, hnopin, hlist⟩ := ih (hapart.earlier hon)
      (Nat.lt_of_le_of_lt hon.drawn hroom) hearlier
    obtain ⟨gone, k, htook⟩ := (hj.create hplain).of_apply hrun t rfl hapart
    refine ⟨k, htook.orderly, htook.pinned.trans hnopin, ?_⟩
    rw [htook.ofFile hnopin hapart hroom fun u hu => ?_, hlist, List.filter_append]
    · cases hsame : t.source.same key with
      | true =>
        rw [List.filter_cons_of_pos (by simpa using hsame), List.filter_nil, List.reverse_append,
          List.reverse_singleton, List.singleton_append, if_pos rfl]
        exact take_cons_take _ _ _
      | false =>
        rw [List.filter_cons_of_neg (by simp [hsame]), List.filter_nil, List.append_nil]
        rfl
    · rw [hlist] at hu
      have hbefore : u ∈ (i.ofFile key).reverse ++ ts := by
        rcases List.mem_append.mp (List.mem_of_mem_take hu) with hu | hu
        · exact List.mem_append_right _ (List.mem_of_mem_filter (List.mem_reverse.mp hu))
        · exact List.mem_append_left _ (List.mem_reverse.mpr hu)
      exact hlast u hbefore t (List.mem_singleton_self t)
  | locks _ hw ih =>
    obtain ⟨j, hj, hnopin, hlist⟩ := ih (hapart.earlier ⟨hw.ids, hw.drawn⟩)
      (Nat.lt_of_le_of_lt hw.drawn hroom) htimes
    exact ⟨j, hj.region hw, hw.pinned.trans hnopin, hlist⟩
  | elsewhere _ hw ih =>
    obtain ⟨j, hj, hnopin, hlist⟩ := ih (hapart.earlier ⟨hw.ids, hw.drawn⟩)
      (Nat.lt_of_le_of_lt hw.drawn hroom) htimes
    exact ⟨j, hj.same ⟨hw.ids, hw.drawn⟩ (hj.inOrder.elsewhere hw), hw.pinned.trans hnopin, hlist⟩

/-- Whatever a store without an index has gone through, retention that succeeds drops those
snapshots of a file that are listed behind the first few and are not pinned, and nothing else.  So
where nothing is pinned and the clock does not go back, the last few that were taken of a file are
left. -/
theorem retention_drops_the_oldest {w₀ : World} (h : s.InOrder base w₀ .empty)
    (hpasses : Relation.ReflTransGen (s.Passes base) w₀ w) (hapart : w.DrawsApart)
    (hi : i.IsAt base w.disk) :
    (∀ file keep, ∃ ranked, Ranks i (w.identity file) ranked ∧
      ((s.listFor file).Ends w fun r _ => ∀ newest, r = .ok newest → newest = ranked) ∧
      (s.retain file keep).Ends w fun r w' => ∀ gone, r = .ok gone →
        ∃ j, s.Retained base w i ranked keep gone w' j) ∧
    (w.pinned = [] → ∀ ts v key, s.Takes base w ts v → v.DrawsApart → v.drawn < MachineWord.card →
      (i.ofFile key).length ≤ s.kept →
      ((i.ofFile key).reverse ++ ts).Pairwise (fun a b =>
        Timestamp.order a.createdAt b.createdAt ≠ .gt) →
      ∃ j : SnapshotIndex, j.IsAt base v.disk ∧
        j.ofFile key = ((ts.filter (·.source.same key)).reverse ++ i.ofFile key).take s.kept) := by
  obtain ⟨j, hj⟩ := (orderly_empty h).history hpasses
  obtain rfl := hj.inOrder.isAt.unique hi
  refine ⟨fun file keep => ⟨_, ranks_ofFile _ _, ?_, ?_⟩, ?_⟩
  · exact (Custody.Kept.listFor hj.inOrder file).mono fun _ _ hlisted => hlisted.2
  · refine (hj.retain hapart file keep).mono fun _ _ hretained gone hr => ?_
    obtain ⟨k, -, hk⟩ := hretained gone hr
    exact ⟨k, hk⟩
  · intro hpinned ts v key htakes hapart' hroom hkept htimes
    obtain ⟨k, hk, -, hlist⟩ := htakes.newest hj hpinned hapart' hroom hkept htimes
    exact ⟨k, hk.inOrder.isAt, hlist⟩

theorem ofFile_empty (key : Path) : SnapshotIndex.empty.ofFile key = [] := by
  simp [SnapshotIndex.ofFile, SnapshotIndex.empty, Snapshot.newestFirst]

theorem ofFile_only {key : Path} (h : t.source.same key = true) :
    (SnapshotIndex.empty.add t).ofFile key = [t] := by
  simp [SnapshotIndex.ofFile, SnapshotIndex.add, SnapshotIndex.empty, h, Snapshot.newestFirst]

/-- Retention that is to keep none drops the only snapshot. -/
theorem retain_only (h : selfStore.Calm ["s"] emptyWorld [] 1 (SnapshotIndex.empty.add t) w)
    (ht : selfStore.IsRecord emptyWorld 0 ⟨"/A"⟩ "a".toUTF8 t) :
    ∃ w', (selfStore.retain ⟨"/A"⟩ 0).apply w = (.ok [t.id], w') := by
  have hsame : t.source.same ⟨"/A"⟩ = true := by
    rw [ht.source]
    exact beq_self_eq_true _
  have hexpired : expired w.pinned 0 ((SnapshotIndex.empty.add t).ofFile (w.identity ⟨"/A"⟩)) =
      [t.id] := by
    rw [(hasFile_emptyWorld.within h.since).identity, ofFile_only hsame, h.since.pinned]
    rfl
  have hflat : emptyWorld.disk.at? (["s"] ++ [copyOfFile]) ≠ some .directory := by
    rw [at?_emptyWorld (by decide)]
    exact nofun
  have hfound : (SnapshotIndex.empty.add t).find? t.id = some t :=
    List.find?_cons_of_pos (by simp)
  have hretain := h.retain_of_delete_one hexpired fun w₁ h₁ =>
    (h₁.delete hfound isCopyName_copyOfFile fits_copyOfFile ht.location hflat).mono
      fun _ _ _ => trivial
  rcases hrun : (selfStore.retain ⟨"/A"⟩ 0).apply w with ⟨r, w'⟩
  obtain ⟨_, rfl, rfl, -⟩ := hretain.of_apply hrun
  exact ⟨w', rfl⟩

/-- The only snapshot of a file is listed and dropped, if none is to be kept. -/
theorem only_snapshot_is_dropped : ∃ t w w' j,
    (selfStore.create ⟨"/A"⟩).apply emptyWorld = (.ok t, w) ∧
      (selfStore.retain ⟨"/A"⟩ 0).apply w = (.ok [t.id], w') ∧
      selfStore.Retained ["s"] w (SnapshotIndex.empty.add t) [t] 0 [t.id] w' j ∧
      ∃ k : SnapshotIndex, k.IsAt ["s"] w.disk ∧ k.ofFile ⟨"/A"⟩ = [t] := by
  obtain ⟨t, w, hrun, ht, hcalm, -⟩ := create_emptyWorld
  obtain ⟨w', hrun'⟩ := retain_only hcalm ht
  have hsame : t.source.same ⟨"/A"⟩ = true := by
    rw [ht.source]
    exact beq_self_eq_true _
  have hempty : selfStore.InOrder ["s"] emptyWorld .empty := inOrder_of_no_index under_emptyWorld
    (fun _ => isReading_stoppedTime) (at?_emptyWorld (by decide))
  have hpass : selfStore.Passes ["s"] emptyWorld ((Op.create ⟨"/A"⟩).run selfStore emptyWorld) :=
    .move (.op _ trivial)
  rw [Op.run, hrun] at hpass
  have hapart : w.DrawsApart := by
    intro m n hmn hn
    rw [hcalm.drawn] at hn
    omega
  have hroom : w.drawn < MachineWord.card := by
    rw [hcalm.drawn]
    decide
  have hplain : Plain emptyWorld.disk (emptyWorld.identity ⟨"/A"⟩) ["A"] :=
    hasFile_emptyWorld.isPlace.plain
  obtain ⟨hdrops, -⟩ := retention_drops_the_oldest hempty (.single hpass) hapart hcalm.isAt
  obtain ⟨ranked, hranks, -, hretained⟩ := hdrops ⟨"/A"⟩ 0
  have hranked : ranked = [t] := by
    have hperm := hranks.perm
    rw [(hasFile_emptyWorld.within hcalm.since).identity] at hperm
    simpa [SnapshotIndex.add, SnapshotIndex.empty, hsame] using hperm
  obtain ⟨j, hj⟩ := hretained.of_apply hrun' _ rfl
  -- before that it was the newest
  obtain ⟨-, hnewest⟩ := retention_drops_the_oldest hempty .refl
    (fun _ _ _ hn => absurd hn (Nat.not_lt_zero _)) isEmpty_selfStore.sound.kept.isAt
  have hleft := hnewest rfl [t] w ⟨"/A"⟩ (.create .start hplain hrun) hapart hroom
  rw [ofFile_empty] at hleft
  obtain ⟨k, hk, hlist⟩ := hleft (Nat.zero_le _) (List.pairwise_singleton _ t)
  refine ⟨t, w, w', j, hrun, hrun', hranked ▸ hj, k, hk, ?_⟩
  rw [hlist]
  simp [hsame, selfStore]

/-! ## A store that puts another index back -/

/-- A store in a directory of its own that keeps one snapshot of each file. -/
def singleStore : SnapshotStore := { selfStore with kept := 1 }

/-- A snapshot of a file that is named through a link. -/
def linkSnapshot : Snapshot where
  id := .ofNat 2
  source := ⟨"/l/A"⟩
  location := ⟨"/s/first"⟩
  checksum := Digest.blake3 "a".toUTF8
  createdAt := stoppedTime
  size := 1
  sequence := 1

/-- A snapshot of another file with the same copy. -/
def crossedSnapshot : Snapshot :=
  { linkSnapshot with
    id := .ofNat 3
    source := ⟨"/d/A"⟩
    sequence := 0 }

/-- An index by which two files have one copy. -/
def crossedIndex : SnapshotIndex := (SnapshotIndex.empty.add crossedSnapshot).add linkSnapshot

/-- The snapshot of the index from the time when it was this one. -/
def indexSnapshot : Snapshot where
  id := .ofNat 4
  source := ⟨"/s/index.json"⟩
  location := ⟨"/s/old"⟩
  checksum := Digest.blake3 crossedIndex.encode
  createdAt := stoppedTime
  size := 2
  sequence := 0

def linkedIndex : SnapshotIndex := (SnapshotIndex.empty.add indexSnapshot).add linkSnapshot

/-- The world of that store, with a file and a link to the directory that it is in. -/
def linkedWorld : World where
  disk := ⟨[(["s"], .directory), (["s", "locks"], .directory),
    (["s", "index.json"], .file linkedIndex.encode 0o600 0),
    (["s", "old"], .file crossedIndex.encode 0o600 0),
    (["s", "first"], .file "a".toUTF8 0o600 0),
    (["A"], .file "a".toUTF8 0o644 0), (["l"], .link ⟨"/"⟩)]⟩
  directory := ⟨"/"⟩
  clock := fun _ => stoppedTime
  ids := fun n => .ofNat (min n 1)

theorem eq_of_link_linkedWorld {l : Location} {target : Path}
    (h : linkedWorld.disk.at? l = some (.link target)) : l = ["l"] := by
  have hmem := Disk.mem_entries_of_link h
  simp only [linkedWorld, List.mem_cons, List.not_mem_nil, or_false, Prod.mk.injEq] at hmem
  rcases hmem with ⟨-, heq⟩ | ⟨-, heq⟩ | ⟨-, heq⟩ | ⟨-, heq⟩ | ⟨-, heq⟩ | ⟨-, heq⟩ | ⟨heq, -⟩
  · cases heq
  · cases heq
  · cases heq
  · cases heq
  · cases heq
  · cases heq
  · exact heq

theorem plain_linkedWorld {p : Path} {l : Location} (h : p.components = .root :: l.map .normal)
    (hl : ¬ ["l"] <+: l) : Plain linkedWorld.disk p l := by
  refine ⟨h, fun m _ hm target hat => hl ?_⟩
  rwa [eq_of_link_linkedWorld hat] at hm

theorem under_linkedWorld : singleStore.locks.Under singleStore.dir ["s"] linkedWorld where
  tree := by
    refine ⟨rfl, rfl, rfl, fun l hl target hat => ?_⟩
    rw [eq_of_link_linkedWorld hat] at hl
    exact absurd hl (by decide)
  dir_eq := rfl

theorem isValid_crossedIndex : crossedIndex.IsValid :=
  (SnapshotIndex.isValid_empty.add ⟨isReading_stoppedTime, by decide, by decide⟩).add
    ⟨isReading_stoppedTime, by decide, by decide⟩

theorem isValid_linkedIndex : linkedIndex.IsValid :=
  (SnapshotIndex.isValid_empty.add ⟨isReading_stoppedTime, by decide, by decide⟩).add
    ⟨isReading_stoppedTime, by decide, by decide⟩

theorem isAt_linkedIndex : linkedIndex.IsAt ["s"] linkedWorld.disk :=
  Or.inl ⟨linkedIndex.encode, 0o600, 0, rfl, SnapshotIndex.decode?_encode isValid_linkedIndex⟩

theorem calm_linkedWorld : singleStore.Calm ["s"] linkedWorld [] 0 linkedIndex linkedWorld where
  since := .refl _
  flat := fun _ => id
  under := under_linkedWorld
  tidy := ⟨by decide, by decide, by decide⟩
  plain := plain_linkedWorld (by decide) (by decide)
  trouble := rfl
  held := rfl
  drawn := rfl
  clock := fun _ => isReading_stoppedTime
  locksDir := rfl
  taken := fun _ hk => absurd hk List.not_mem_nil
  free := fun file => Or.inl (by simp [Disk.at?, linkedWorld, List.lookup_cons])
  index := by
    change some (Entry.file _ _ _) ≠ some .directory
    rintro ⟨⟩
  isAt := isAt_linkedIndex
  valid := isValid_linkedIndex

theorem isCopyName_first : IsCopyName "first" :=
  ⟨Path.isName_of_two_lt (by decide) (by decide), by decide⟩

theorem hasCopy_indexSnapshot :
    indexSnapshot.HasCopy singleStore.dir ["s"] crossedIndex.encode linkedWorld.disk :=
  ⟨"old", 0o600, 0, ⟨Path.isName_of_two_lt (by decide) (by decide), by decide⟩,
    ⟨by decide, by decide⟩, rfl, rfl⟩

theorem hasCopy_linkSnapshot :
    linkSnapshot.HasCopy singleStore.dir ["s"] "a".toUTF8 linkedWorld.disk :=
  ⟨"first", 0o600, 0, isCopyName_first, ⟨by decide, by decide⟩, rfl, rfl⟩

theorem inOrder_linkedWorld : singleStore.InOrder ["s"] linkedWorld linkedIndex where
  under := under_linkedWorld
  clock := fun _ => isReading_stoppedTime
  isAt := isAt_linkedIndex
  valid := isValid_linkedIndex
  copies := by
    intro t ht
    rcases List.mem_cons.mp ht with rfl | ht
    · exact ⟨_, hasCopy_indexSnapshot, rfl⟩
    · rw [List.mem_singleton.mp ht]
      exact ⟨_, hasCopy_linkSnapshot, rfl⟩
  apart := by
    refine List.pairwise_pair.mpr ?_
    decide
  sets := nofun
  found := nofun
  guards := nofun
  pinned := nofun
  unused := nofun

theorem ofFile_crossedIndex : crossedIndex.ofFile ⟨"/d/A"⟩ = [crossedSnapshot] := by
  have hsame : crossedSnapshot.source.same ⟨"/d/A"⟩ = true := by decide
  have hother : linkSnapshot.source.same ⟨"/d/A"⟩ = false := by decide
  simp [crossedIndex, SnapshotIndex.ofFile, SnapshotIndex.add, SnapshotIndex.empty, hsame, hother,
    Snapshot.newestFirst]

/-- Retention of one file removes the copy of another one, once an index has been put back by which
the two have one copy. -/
theorem retain_crossed : ∃ w w',
    (singleStore.restore indexSnapshot).apply linkedWorld = (.ok (), w) ∧
    crossedIndex.IsAt ["s"] w.disk ∧
      w.disk.read (w.absolute linkSnapshot.location) = .ok "a".toUTF8 ∧
      (singleStore.retain ⟨"/d/A"⟩ 0).apply w = (.ok [crossedSnapshot.id], w') ∧
      (crossedIndex.drop crossedSnapshot.id).IsAt ["s"] w'.disk ∧
      ∀ content, w'.disk.read (w'.absolute linkSnapshot.location) ≠ .ok content := by
  rcases hrun : (singleStore.restore indexSnapshot).apply linkedWorld with ⟨r, w⟩
  obtain ⟨_, rfl, hcalm, hw⟩ := Act.Ends.of_apply
    (calm_linkedWorld.restoreIndex rfl hasCopy_indexSnapshot rfl isValid_crossedIndex) hrun
  have hcopy : linkSnapshot.HasCopy singleStore.dir ["s"] "a".toUTF8 w.disk := by
    refine ⟨"first", 0o600, 0, isCopyName_first, ⟨by decide, by decide⟩, rfl, ?_⟩
    refine hw.frame.eq_of_some (fun h => ?_) rfl
    exact h.elim (not_region_concat _ _) (by decide)
  have hplain : Plain linkedWorld.disk (linkedWorld.absolute ⟨"/d/A"⟩) ["d", "A"] :=
    plain_linkedWorld (by decide) (by decide)
  have hidentity : w.identity ⟨"/d/A"⟩ = ⟨"/d/A"⟩ := by
    rw [hcalm.since.identity_of_plain hplain]
    decide +kernel
  have hexpired : expired w.pinned 0 (crossedIndex.ofFile (w.identity ⟨"/d/A"⟩)) =
      [crossedSnapshot.id] := by
    rw [hidentity, ofFile_crossedIndex, hcalm.since.pinned]
    rfl
  have hflat : linkedWorld.disk.at? (["s"] ++ ["first"]) ≠ some .directory := by
    change some (Entry.file _ _ _) ≠ some .directory
    rintro ⟨⟩
  have hretain := hcalm.retain_of_delete_one hexpired fun w₁ h₁ =>
    h₁.delete (List.find?_cons_of_pos (by simp)) isCopyName_first ⟨by decide, by decide⟩ rfl hflat
  rcases hrun' : (singleStore.retain ⟨"/d/A"⟩ 0).apply w with ⟨r, w'⟩
  obtain ⟨_, rfl, rfl, hdone, hnone⟩ := hretain.of_apply hrun'
  refine ⟨w, w', rfl, hcalm.isAt, hcopy.read hcalm.under, hrun', hdone.isAt,
    fun content hread => ?_⟩
  obtain ⟨l, mode, modified, hl, hat⟩ := Disk.read_eq_ok_iff.mp hread
  obtain ⟨rfl, -⟩ := (hdone.under.locate_name isCopyName_first.isName).mp hl
  rw [hnone] at hat
  cases hat

/-- A snapshot is taken under the name of a link, while retention looks for snapshots under the name
of the file that the link leads to. -/
theorem create_through_link : ∃ t w,
    (singleStore.create ⟨"/A/../l/A"⟩).apply linkedWorld = (.ok t, w) ∧
      t.source = linkSnapshot.source ∧ (linkedIndex.add t).IsAt ["s"] w.disk ∧ w.pinned = [] ∧
      singleStore.kept < ((linkedIndex.add t).ofFile t.source).length := by
  have hidentity : linkedWorld.identity ⟨"/A/../l/A"⟩ = ⟨"/l/A"⟩ := by decide +kernel
  have hlocate : linkedWorld.disk.locate (linkedWorld.absolute ⟨"/l/A"⟩) = .ok ["A"] := by
    decide +kernel
  have hat : linkedWorld.disk.at? ["A"] = some (.file "a".toUTF8 0o644 0) := rfl
  have hsource : Settled ["s"] linkedWorld (linkedWorld.identity ⟨"/A/../l/A"⟩) "a".toUTF8 := by
    rw [hidentity]
    exact ⟨["A"], 0o644, 0, hlocate, fun h => absurd h.below (by decide), hat⟩
  have huncopied : IsUncopied ["s"] linkedWorld (linkedWorld.identity ⟨"/A/../l/A"⟩) := by
    intro m
    have hname : copyName ⟨"/l/A"⟩ stoppedTime = copyOfFile := by decide +kernel
    rw [hidentity, show linkedWorld.clock m = stoppedTime from rfl, hname]
    exact ⟨fits_copyOfFile, rfl⟩
  have hkey : IsNewKey [linkedWorld.identity ⟨"/A/../l/A"⟩] singleStore.indexFile := by
    intro k hk
    rw [List.mem_singleton.mp hk, hidentity]
    exact ⟨by decide, by decide +kernel⟩
  have hcreate := calm_linkedWorld.create_of_retain hsource huncopied hkey (P := fun t w =>
    singleStore.IsRecord linkedWorld 0 ⟨"/l/A"⟩ "a".toUTF8 t ∧
      singleStore.Calm ["s"] linkedWorld [] 1 (linkedIndex.add t) w) ?_
  · rcases hrun : (singleStore.create ⟨"/A/../l/A"⟩).apply linkedWorld with ⟨r, w⟩
    obtain ⟨t, rfl, ht, hcalm⟩ := hcreate.of_apply hrun
    refine ⟨t, w, rfl, ht.source, hcalm.isAt, hcalm.since.pinned, ?_⟩
    have hindex : indexSnapshot.source.same ⟨"/l/A"⟩ = false := by decide
    have hlink : linkSnapshot.source.same ⟨"/l/A"⟩ = true := by decide
    have hnew : t.source.same ⟨"/l/A"⟩ = true := by
      rw [ht.source]
      exact hlink
    rw [ht.source, SnapshotIndex.ofFile, Snapshot.newestFirst, List.length_mergeSort]
    simp [linkedIndex, SnapshotIndex.add, SnapshotIndex.empty, hindex, hlink, hnew, singleStore]
  · intro t w₁ ht h₁
    rw [hidentity] at ht ⊢
    -- retention finds the file, of which there is no snapshot
    have hfile : w₁.identity ⟨"/l/A"⟩ = ⟨"/A"⟩ := by
      have hthere := (h₁.since.frame.locate hlocate (fun m hm => ?_) (Or.inl rfl)).1
      · rw [← h₁.since.absolute] at hthere
        rw [World.identity_of_entry (by decide) hthere
          (h₁.since.frame.eq_of_some (by decide) hat)]
        decide +kernel
      · obtain ⟨target, hlink⟩ := Disk.mem_linksTo hm
        rw [eq_of_link_linkedWorld hlink]
        decide
    have hnone : (linkedIndex.add t).ofFile ⟨"/A"⟩ = [] := by
      have hindex : indexSnapshot.source.same ⟨"/A"⟩ = false := by decide
      have hlink : linkSnapshot.source.same ⟨"/A"⟩ = false := by decide
      have hnew : t.source.same ⟨"/A"⟩ = false := by
        rw [ht.source]
        decide
      simp [linkedIndex, SnapshotIndex.ofFile, SnapshotIndex.add, SnapshotIndex.empty, hindex,
        hlink, hnew, Snapshot.newestFirst]
    refine (h₁.retain ⟨"/l/A"⟩ ?_).mono fun _ _ hcalm => ⟨ht, hcalm⟩
    rw [hfile, hnone]
    exact Nat.zero_le _

/-- A store in order may lose the copy of another file by retention when an index was put back, and
may be left with more snapshots of a file than it keeps when the file is named through a link. -/
theorem retention_goes_astray : singleStore.InOrder ["s"] linkedWorld linkedIndex ∧
    (∃ w w' j, (singleStore.restore indexSnapshot).apply linkedWorld = (.ok (), w) ∧
      linkSnapshot.source.same ⟨"/d/A"⟩ = false ∧
      w.disk.read (w.absolute linkSnapshot.location) = .ok "a".toUTF8 ∧
      (singleStore.retain ⟨"/d/A"⟩ 0).apply w = (.ok [crossedSnapshot.id], w') ∧
      j.IsAt ["s"] w'.disk ∧ linkSnapshot ∈ SnapshotIndex.snapshots j ∧
      ∀ content, w'.disk.read (w'.absolute linkSnapshot.location) ≠ .ok content) ∧
    ∃ t w j, (singleStore.create ⟨"/A/../l/A"⟩).apply linkedWorld = (.ok t, w) ∧
      t.source = linkSnapshot.source ∧ j.IsAt ["s"] w.disk ∧ w.pinned = [] ∧
      singleStore.kept < (SnapshotIndex.ofFile j t.source).length := by
  obtain ⟨w, w', hrestored, -, hread, hretained, hindex, hlost⟩ := retain_crossed
  obtain ⟨t, v, hcreated, hsource, hindex', hpinned, hmany⟩ := create_through_link
  refine ⟨inOrder_linkedWorld, ⟨w, w', _, hrestored, by decide, hread, hretained, hindex, ?_,
    hlost⟩, t, v, _, hcreated, hsource, hindex', hpinned, hmany⟩
  have hdropped : (crossedIndex.drop crossedSnapshot.id).snapshots = [linkSnapshot] := by
    change List.eraseP (fun t => decide (t.id = crossedSnapshot.id)) [crossedSnapshot, linkSnapshot]
      = [linkSnapshot]
    simp
  rw [hdropped]
  exact List.mem_singleton_self _

end SnapshotStore

end Amend
