import Amend.Proofs.Snapshot.Protection

/-!
# What is left of a set that could not be taken

The snapshots that were taken for a set are dropped again when one of its files fails, but those that
retention dropped on the way are gone.  Where there is room for a snapshot of every file of the set,
retention has nothing to drop: then every snapshot of before is there with its copy, whatever fails
and wherever, and nothing else is but snapshots that were taken for the set.
-/

namespace Amend

open World (Within)
open FileLocks (Region)

/-- An index that has all snapshots of another one, in their order, and behind them some new ones. -/
structure SnapshotIndex.Grows (i : SnapshotIndex) (new : List Snapshot) (j : SnapshotIndex) :
    Prop where
  old : i.snapshots.Sublist j.snapshots
  back : j.snapshots.Sublist (i.snapshots ++ new)

namespace SnapshotIndex

variable {i j : SnapshotIndex} {new : List Snapshot} {t : Snapshot} {id : Uid}

theorem grows_self (i : SnapshotIndex) : i.Grows [] i :=
  ⟨.refl _, by rw [List.append_nil]⟩

theorem Grows.add (h : i.Grows new j) (t : Snapshot) : i.Grows (new ++ [t]) (j.add t) where
  old := h.old.trans (List.sublist_append_left _ _)
  back := by
    rw [← List.append_assoc]
    exact h.back.append_right [t]

/-- A snapshot that was not there before may be dropped again. -/
theorem Grows.drop (h : i.Grows new j) (hid : ∀ t ∈ i.snapshots, t.id ≠ id) :
    i.Grows new (j.drop id) where
  old := by
    have hsame : (i.snapshots.eraseP fun t => t.id = id) = i.snapshots :=
      List.eraseP_of_forall_not fun t ht => by simpa using hid t ht
    rw [← hsame]
    exact h.old.eraseP
  back := List.eraseP_sublist.trans h.back

/-- No file has more snapshots than it had, but for the new ones. -/
theorem Grows.length_ofFile_le (h : i.Grows new j) (key : Path) :
    (j.ofFile key).length ≤ (i.ofFile key).length + new.length := by
  simp only [ofFile, Snapshot.newestFirst, List.length_mergeSort]
  refine (h.back.filter _).length_le.trans ?_
  rw [List.filter_append, List.length_append]
  exact Nat.add_le_add_left (List.length_filter_le _ _) _

end SnapshotIndex

namespace Custody

variable {c : Custody} {w w' : World} {i j : SnapshotIndex} {new taken : List Snapshot}

/-- Where a world leads in which all snapshots of an index are left, and beside them only such as
have identifiers that were drawn since. -/
def LeavesOld (c : Custody) (w : World) (i : SnapshotIndex) (w' : World) : Prop :=
  ∃ j new, c.Kept w' j ∧ i.Grows new j ∧ ∀ t ∈ new, Drawn w w' t.id

/-- Retention drops nothing of a file that has no more snapshots than are kept. -/
theorem Kept.retain_of_room (h : c.Kept w j) (file : Path) {keep : Nat}
    (hroom : ∀ key, (j.ofFile key).length ≤ keep) :
    (c.store.retain file keep).Ends w fun _ w' => Within c.Below w w' ∧ c.Kept w' j := by
  refine (h.retain file keep).mono ?_
  rintro r w' ⟨hw, gone, rest, heq, hkept, -⟩
  have hnone : SnapshotStore.expired w.pinned keep (j.ofFile (w.identity file)) = [] := by
    rw [SnapshotStore.expired, List.drop_eq_nil_of_le (hroom _), List.map_nil, List.filter_nil]
  rw [hnone] at heq
  obtain ⟨rfl, -⟩ := List.append_eq_nil_iff.mp heq.symm
  exact ⟨hw, hkept⟩

/-- A snapshot that is taken where there is room is the only change, and if it fails the only one
that there may be. -/
theorem Kept.create_of_room (h : c.Kept w j) (htrue : c.Truthful w) (file : Path)
    (hroom : ∀ key, (j.ofFile key).length < c.store.kept) :
    (c.store.create file).Ends w fun r w' => Within c.Below w w' ∧
      match r with
      | .ok t => c.Kept w' (j.add t) ∧ Drawn w w' t.id
      | .error _ => c.Kept w' j ∨ ∃ t, c.Kept w' (j.add t) ∧ Drawn w w' t.id := by
  rw [SnapshotStore.create]
  refine Act.ends_look_bind (Act.ends_look_bind ?_)
  split
  case isTrue =>
    refine (h.record htrue).bind ?_ fun e w₁ h₁ => ⟨h₁.1, Or.inl h₁.2⟩
    intro t w₁ h₁
    have hmore (key : Path) : ((j.add t).ofFile key).length ≤ c.store.kept := by
      have hgrows := (j.grows_self.add t).length_ofFile_le key
      rw [List.nil_append, List.length_singleton] at hgrows
      exact hgrows.trans (hroom key)
    refine (h₁.kept.retain_of_room (w.identity file) hmore).bind ?_ ?_
    · rintro _ w₂ ⟨hw, hkept⟩
      exact Act.ends_pure ⟨h₁.within.trans hw, hkept, h₁.drawn.later hw.drawn⟩
    · rintro e w₂ ⟨hw, hkept⟩
      exact ⟨h₁.within.trans hw, Or.inr ⟨t, hkept, h₁.drawn.later hw.drawn⟩⟩
  case isFalse => exact Act.ends_throw ⟨.refl w, Or.inl h⟩

/-- Giving up what was taken leaves the snapshots of before alone. -/
theorem Kept.giveUp_of_grows (h : c.Kept w j) (hfree : ∀ t content, ¬ c.guarded t content)
    (hgrows : i.Grows new j) (htaken : ∀ u ∈ taken, ∀ t ∈ i.snapshots, t.id ≠ u.id) :
    (taken.forM fun t => do
      let _ ← (c.store.delete t.id).outcome : Act SnapshotError Unit).Ends w fun _ w' =>
        Within c.Below w w' ∧ ∃ k, c.Kept w' k ∧ i.Grows new k := by
  induction taken generalizing w j with
  | nil => exact Act.ends_pure ⟨.refl w, j, h, hgrows⟩
  | cons u taken ih =>
    have hdelete : (do let _ ← (c.store.delete u.id).outcome : Act SnapshotError Unit).Ends w
        fun r w₁ => Within c.Below w w₁ ∧ ∃ k, c.Kept w₁ k ∧ i.Grows new k := by
      refine (h.delete fun t content hg => (hfree t content hg).elim).outcome.bind
        (fun r w₁ h₁ => Act.ends_pure ?_) fun e w₁ h₁ => h₁.elim
      obtain ⟨hw, gone, rest, heq, hkept, -⟩ := h₁
      refine ⟨hw, _, hkept, ?_⟩
      rcases List.singleton_eq_append_iff.mp heq with ⟨rfl, -⟩ | ⟨rfl, -⟩
      · exact hgrows
      · exact hgrows.drop (htaken u List.mem_cons_self)
    refine hdelete.bind ?_ fun e w₁ h₁ => h₁
    rintro _ w₁ ⟨hw, k, hkept, hgrows₁⟩
    refine (ih hkept hgrows₁ fun v hv => htaken v (List.mem_cons_of_mem u hv)).mono ?_
    rintro r w₂ ⟨hw', hrest⟩
    exact ⟨hw.trans hw', hrest⟩

/-- A set that is given up when something was taken for it leaves the snapshots of before. -/
theorem Kept.giveUp_leaves_old {start : World} {e : SnapshotError} (h : c.Kept w j)
    (hfree : ∀ t content, ¬ c.guarded t content) (hearlier : Within c.Below start w)
    (hgrows : i.Grows new j) (htaken : ∀ u ∈ taken, ∀ t ∈ i.snapshots, t.id ≠ u.id)
    (hdrawn : ∀ t ∈ new, Drawn start w t.id) :
    (do
      taken.forM fun t => do
        let _ ← (c.store.delete t.id).outcome
      throw e : Act SnapshotError (List Snapshot)).Ends w fun _ w' =>
        Within c.Below start w' ∧ c.LeavesOld start i w' := by
  have hundone (w' : World) (h' : Within c.Below w w' ∧ ∃ k, c.Kept w' k ∧ i.Grows new k) :
      Within c.Below start w' ∧ c.LeavesOld start i w' := by
    obtain ⟨hw, k, hkept, hgrown⟩ := h'
    exact ⟨hearlier.trans hw, k, new, hkept, hgrown, fun t ht => (hdrawn t ht).later hw.drawn⟩
  exact (h.giveUp_of_grows hfree hgrows htaken).bind
    (fun _ w' h' => Act.ends_throw (hundone w' h')) fun _ w' h' => hundone w' h'

theorem drawn_concat {start : World} {t : Snapshot} (hnew : ∀ u ∈ new, Drawn start w u.id)
    (hearlier : Within c.Below start w) (hw : Within c.Below w w') (ht : Drawn w w' t.id) :
    ∀ u ∈ new ++ [t], Drawn start w' u.id := by
  intro u hu
  rcases List.mem_append.mp hu with hu | hu
  · exact (hnew u hu).later hw.drawn
  · rw [List.mem_singleton.mp hu]
    exact ht.earlier hearlier

/-- The members of a set are taken where there is room for all of them.  The last condition says how
many of them were taken already. -/
theorem Kept.createMembers_of_room {files seen : List Path} {start : World} (h : c.Kept w j)
    (htrue : c.Truthful w) (hfree : ∀ t content, ¬ c.guarded t content)
    (hearlier : Within c.Below start w) (hgrows : i.Grows new j)
    (hnew : ∀ t ∈ i.snapshots, ∀ n, start.drawn ≤ n → start.ids n ≠ t.id)
    (htaken : ∀ u ∈ taken, u ∈ new) (hdrawn : ∀ t ∈ new, Drawn start w t.id)
    (hroom : ∀ key, (i.ofFile key).length + new.length + files.length ≤ c.store.kept) :
    (c.store.createMembers seen taken files).Ends w fun _ w' => Within c.Below start w' ∧
      c.LeavesOld start i w' := by
  induction files generalizing w j seen taken new with
  | nil => exact Act.ends_pure ⟨hearlier, j, new, h, hgrows, hdrawn⟩
  | cons file files ih =>
    rw [SnapshotStore.createMembers]
    refine Act.ends_look_bind ?_
    split
    case isTrue =>
      exact ih h htrue hearlier hgrows htaken hdrawn fun key =>
        (Nat.add_le_add_left (Nat.le_succ _) _).trans (hroom key)
    case isFalse =>
      have hplace (key : Path) : (j.ofFile key).length < c.store.kept := by
        have hlength := hgrows.length_ofFile_le key
        have hbound := hroom key
        rw [List.length_cons] at hbound
        omega
      refine (h.create_of_room htrue file hplace).outcome.bind (fun r w₁ h₁ => ?_)
        fun e w₁ h₁ => h₁.elim
      obtain ⟨hw, hcreated⟩ := h₁
      cases r with
      | ok t =>
        obtain ⟨hkept, ht⟩ := hcreated
        refine ih hkept (htrue.within hw) (hearlier.trans hw) (hgrows.add t) (fun u hu => ?_)
          (drawn_concat hdrawn hearlier hw ht) fun key => ?_
        · exact (List.mem_append.mp hu).elim
            (fun hu => List.mem_append_left _ (htaken u hu)) fun hu => List.mem_append_right _ hu
        · have hbound := hroom key
          rw [List.length_cons] at hbound
          rw [List.length_append, List.length_singleton]
          omega
      | error e =>
        have hgone : ∀ u ∈ taken, ∀ t ∈ i.snapshots, t.id ≠ u.id := by
          intro u hu t ht heq
          obtain ⟨n, hn, -, hid⟩ := hdrawn u (htaken u hu)
          exact hnew t ht n hn (hid.symm.trans heq.symm)
        rcases hcreated with hkept | ⟨t, hkept, ht⟩
        · exact hkept.giveUp_leaves_old hfree (hearlier.trans hw) hgrows hgone
            fun t ht => (hdrawn t ht).later hw.drawn
        · exact hkept.giveUp_leaves_old hfree (hearlier.trans hw) (hgrows.add t) hgone
            (drawn_concat hdrawn hearlier hw ht)

/-- The same of the whole set, which comes into the index last. -/
theorem Kept.createSet_of_room {files : List Path} (h : c.Kept w i) (htrue : c.Truthful w)
    (hfree : ∀ t content, ¬ c.guarded t content) (hsets : ∀ u, c.setFact u)
    (hnew : ∀ t ∈ i.snapshots, ∀ n, w.drawn ≤ n → w.ids n ≠ t.id)
    (hroom : ∀ key, (i.ofFile key).length + files.length ≤ c.store.kept) :
    (c.store.createSet files).Ends w fun _ w' => c.LeavesOld w i w' := by
  rw [SnapshotStore.createSet]
  refine (h.createMembers_of_room htrue hfree (.refl w) i.grows_self hnew
    (fun _ hu => absurd hu List.not_mem_nil) (fun _ ht => absurd ht List.not_mem_nil) hroom).bind ?_
      fun e w₁ h₁ => h₁.2
  rintro members w₁ ⟨-, j, new, hkept, hgrows, hdrawn⟩
  refine World.ends_drawId_bind (World.ends_readClock_bind ?_)
  generalize hset : SnapshotSet.mk (w₁.ids w₁.drawn) (w₁.clock w₁.readings) _ = set
  have h₂ : Within (Region c.base) w₁
      { w₁ with drawn := w₁.drawn + 1, readings := w₁.readings + 1 } :=
    ⟨Disk.Frame.refl _, rfl, rfl, rfl, Nat.le_succ _, rfl⟩
  refine ((hkept.within_region h₂).updateIndex (P := fun _ k _ => k = j.addSet set)
    fun w₃ h₃ => Act.ends_pure ⟨h₃, fun _ k heq => (Prod.mk.inj (Except.ok.inj heq)).2.symm⟩).bind
      ?_ fun e w₃ h₃ => ?_
  · rintro _ w₃ ⟨_, w₄, rfl, h₄, hreindexed⟩
    have hlater := h₂.trans h₄
    have hcreated : set.createdAt.IsReading := by
      rw [← hset]
      exact hkept.clock _
    have hadded := (hkept.within_region hlater).addSet hreindexed hcreated (hsets set)
    refine Act.ends_change_bind (Act.ends_pure ⟨j.addSet set, new, hadded.repin fun t b ht =>
      (hfree t b ht).elim, ⟨hgrows.old, hgrows.back⟩, fun t ht => ?_⟩)
    exact (hdrawn t ht).later (Nat.le_trans hlater.drawn hreindexed.within.drawn)
  · exact ⟨j, new, hkept.within_region (h₂.trans h₃), hgrows, fun t ht =>
      (hdrawn t ht).later (h₂.trans h₃).drawn⟩

end Custody

namespace SnapshotStore

variable {s : SnapshotStore} {base : Location} {w : World} {i : SnapshotIndex}

/-- The custody of a store whose snapshots of some time have the copies that they had then. -/
def lastingCustody (s : SnapshotStore) (base : Location) (w : World) (i : SnapshotIndex) : Custody :=
  { s.custody base with
    fact := fun t content => t ∈ i.snapshots → Digest.blake3 content = t.checksum ∧
      t.HasCopy s.dir base content w.disk }

theorem kept_lasting (h : s.InOrder base w i) : (s.lastingCustody base w i).Kept w i where
  under := h.under
  clock := h.clock
  isAt := h.isAt
  valid := h.valid
  copies := by
    intro t ht
    obtain ⟨content, hcopy, hchecksum⟩ := h.copies t ht
    exact ⟨content, hcopy, fun _ => ⟨hchecksum, hcopy⟩⟩
  apart := h.apart
  sets := h.sets
  found := nofun
  guards := nofun
  pinned := nofun
  unused := nofun

theorem truthful_lasting (hnew : ∀ t ∈ i.snapshots, ∀ n, w.drawn ≤ n → w.ids n ≠ t.id) :
    (s.lastingCustody base w i).Truthful w := by
  intro t content d _ hrecorded _ ht
  obtain ⟨n, hn, hid⟩ := hrecorded.drawn
  exact absurd hid.symm (hnew t ht n hn)

/-- Where there is room for a snapshot of each of its files, taking a set loses nothing, whether it
succeeds or fails and wherever: every snapshot of before is there with its copy, and every other one
was taken for the set.  Without room the snapshots that retention drops stay lost when the set
fails. -/
theorem createSet_leaves_old (h : s.InOrder base w i) {files : List Path}
    (hnew : ∀ t ∈ i.snapshots, ∀ n, w.drawn ≤ n → w.ids n ≠ t.id)
    (hroom : ∀ key, (i.ofFile key).length + files.length ≤ s.kept) :
    (s.createSet files).Ends w fun _ w' => ∃ j : SnapshotIndex, j.IsAt base w'.disk ∧
      (∀ t ∈ i.snapshots, t ∈ j.snapshots ∧ ∃ content, Digest.blake3 content = t.checksum ∧
        w.disk.read (w.absolute t.location) = .ok content ∧
        w'.disk.read (w'.absolute t.location) = .ok content) ∧
      ∀ t ∈ j.snapshots, t ∈ i.snapshots ∨ Custody.Drawn w w' t.id := by
  refine ((kept_lasting h).createSet_of_room (truthful_lasting hnew) (fun _ _ hg => hg)
    (fun _ => trivial) hnew hroom).mono ?_
  rintro r w' ⟨j, new, hkept, hgrows, hdrawn⟩
  refine ⟨j, hkept.isAt, fun t ht => ?_, fun t ht => ?_⟩
  · have hstays := hgrows.old.subset ht
    obtain ⟨content, hcopy, hfact⟩ := hkept.copies t hstays
    obtain ⟨hchecksum, hbefore⟩ := hfact ht
    exact ⟨hstays, content, hchecksum, hbefore.read h.under, hcopy.read hkept.under⟩
  · exact (List.mem_append.mp (hgrows.back.subset ht)).imp_right (hdrawn t)

end SnapshotStore

end Amend
