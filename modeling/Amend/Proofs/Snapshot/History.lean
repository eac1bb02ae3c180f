import Amend.Proofs.Snapshot.Rank
import Amend.Proofs.Snapshot.RoundTrip

/-!
# Names and numbers in the course of time

Whatever a store goes through, its snapshots have identifiers that were drawn and numbers that go
up.  So as long as no identifier is drawn twice, no two snapshots have the same one, and as long as
the numbers are not used up, a new snapshot has the highest.
-/

namespace Amend

open Disk (Frame)
open World (Within)
open FileLocks (Region)

/-- A world in which no identifier was drawn twice. -/
def World.DrawsApart (w : World) : Prop := ∀ m n, m < n → n < w.drawn → w.ids m ≠ w.ids n

theorem World.DrawsApart.earlier {w w' : World} (h : w'.DrawsApart) (hw : w.DrawsOn w') :
    w.DrawsApart := by
  intro m n hmn hn
  rw [← hw.ids]
  exact h m n hmn (Nat.lt_of_lt_of_le hn hw.drawn)

theorem World.DrawsOn.trans {w₁ w₂ w₃ : World} (h : w₁.DrawsOn w₂) (h' : w₂.DrawsOn w₃) :
    w₁.DrawsOn w₃ :=
  ⟨h'.ids.trans h.ids, Nat.le_trans h.drawn h'.drawn⟩

namespace SnapshotStore

/-- A store in order whose snapshots have drawn identifiers, each its own, and are numbered. -/
structure Orderly (s : SnapshotStore) (base : Location) (w : World) (i : SnapshotIndex) :
    Prop where
  inOrder : s.InOrder base w i
  drawn : ∀ t ∈ i.snapshots, ∃ n, n < w.drawn ∧ t.id = w.ids n
  distinct : w.DrawsApart → i.snapshots.Pairwise fun a b => a.id ≠ b.id
  numbered : w.drawn < MachineWord.card → i.nextSequence ≤ w.drawn ∧ i.IsNumbered

variable {s : SnapshotStore} {base : Location} {w w' : World} {i j : SnapshotIndex} {t : Snapshot}

theorem orderly_empty (h : s.InOrder base w .empty) : s.Orderly base w .empty where
  inOrder := h
  drawn := nofun
  distinct := fun _ => .nil
  numbered := fun _ => ⟨Nat.zero_le _, SnapshotIndex.isNumbered_empty⟩

/-! ## Changes of the index -/

/-- Snapshots may go. -/
theorem Orderly.sublist (h : s.Orderly base w i) (hw : w.DrawsOn w') (hinOrder : s.InOrder base w' j)
    (hsnapshots : j.snapshots.Sublist i.snapshots) (hnext : j.nextSequence = i.nextSequence) :
    s.Orderly base w' j where
  inOrder := hinOrder
  drawn := by
    intro t ht
    obtain ⟨n, hn, hid⟩ := h.drawn t (hsnapshots.subset ht)
    exact ⟨n, Nat.lt_of_lt_of_le hn hw.drawn, by rw [hw.ids, hid]⟩
  distinct := fun hapart => (h.distinct (hapart.earlier hw)).sublist hsnapshots
  numbered := by
    intro hroom
    obtain ⟨hle, hnumbered⟩ := h.numbered (Nat.lt_of_le_of_lt hw.drawn hroom)
    rw [hnext]
    refine ⟨Nat.le_trans hle hw.drawn, hnumbered.ascending.sublist hsnapshots, fun t ht => ?_⟩
    rw [hnext]
    exact hnumbered.below t (hsnapshots.subset ht)

theorem Orderly.same (h : s.Orderly base w i) (hw : w.DrawsOn w') (hinOrder : s.InOrder base w' i) :
    s.Orderly base w' i :=
  h.sublist hw hinOrder (List.Sublist.refl _) rfl

theorem sublist_foldl_drop (ids : List Uid) (i : SnapshotIndex) :
    (ids.foldl SnapshotIndex.drop i).snapshots.Sublist i.snapshots ∧
      (ids.foldl SnapshotIndex.drop i).nextSequence = i.nextSequence := by
  induction ids generalizing i with
  | nil => exact ⟨List.Sublist.refl _, rfl⟩
  | cons id ids ih => exact ⟨(ih (i.drop id)).1.trans List.eraseP_sublist, (ih (i.drop id)).2⟩

theorem Orderly.dropped {α : Type} {ids : List Uid} {r : Except SnapshotError α}
    (h : s.Orderly base w i) (hw : (s.custody base).Dropped w i ids r w') :
    ∃ j, s.Orderly base w' j := by
  obtain ⟨gone, -, -, hkept, -⟩ := hw.kept
  obtain ⟨hsub, hnext⟩ := sublist_foldl_drop gone i
  exact ⟨_, h.sublist ⟨hw.within.ids, hw.within.drawn⟩ hkept hsub hnext⟩

/-- A new snapshot has an identifier that none of the others has, and the highest number. -/
theorem Orderly.entered {source : Path} (h : s.Orderly base w i)
    (hw : (s.custody base).Entered w i source t w') : s.Orderly base w' (i.add t) where
  inOrder := hw.kept
  drawn := by
    intro u hu
    rw [hw.within.ids]
    rcases List.mem_append.mp hu with hu | hu
    · obtain ⟨n, hn, hid⟩ := h.drawn u hu
      exact ⟨n, Nat.lt_of_lt_of_le hn hw.within.drawn, hid⟩
    · rw [List.mem_singleton.mp hu]
      obtain ⟨n, -, hn, hid⟩ := hw.drawn
      exact ⟨n, hn, hid⟩
  distinct := by
    intro hapart
    have hearlier := hapart.earlier ⟨hw.within.ids, hw.within.drawn⟩
    refine List.pairwise_append.mpr ⟨h.distinct hearlier, List.pairwise_singleton _ t, ?_⟩
    intro u hu v hv heq
    rw [List.mem_singleton.mp hv] at heq
    obtain ⟨m, hm, hid⟩ := h.drawn u hu
    obtain ⟨n, hn, hn', hid'⟩ := hw.drawn
    refine hapart m n (Nat.lt_of_lt_of_le hm hn) hn' ?_
    rw [hw.within.ids, ← hid, heq, hid']
  numbered := by
    intro hroom
    obtain ⟨n, hn, hn', -⟩ := hw.drawn
    obtain ⟨hle, hnumbered⟩ := h.numbered (by omega)
    have hnext : i.nextSequence + 1 < MachineWord.card := by omega
    rw [SnapshotIndex.nextSequence_add hnext]
    exact ⟨by omega, hnumbered.add hw.sequence hnext⟩

/-! ## Whole operations -/

/-- A world in which a store is orderly. -/
def IsOrderly (s : SnapshotStore) (base : Location) (w : World) : Prop := ∃ i, s.Orderly base w i

section Keeps

variable {ε α : Type}

theorem Orderly.region (h : s.Orderly base w i) (hw : Within (Region base) w w') :
    s.Orderly base w' i :=
  h.same ⟨hw.ids, hw.drawn⟩ (h.inOrder.within_region hw)

/-- What touches no more than lock files leaves a store orderly. -/
theorem keeps_of_region {a : Act ε α} (ha : ∀ w i, s.InOrder base w i →
    a.Ends w fun _ w' => Within (Region base) w w') : a.Keeps (s.IsOrderly base) := by
  rintro w ⟨i, h⟩
  exact (ha w i h.inOrder).mono fun _ w' hw => ⟨i, h.region hw⟩

/-- A change of the index that leaves the snapshots as they are. -/
theorem keeps_updateIndex {f : SnapshotIndex → Act SnapshotError (α × SnapshotIndex)}
    (hf : ∀ i w, i.IsValid → (∀ n, (w.clock n).IsReading) → (f i).Ends w fun r w' =>
      Within (Region base) w w' ∧ ∀ a j, r = .ok (a, j) →
        j.IsValid ∧ j.snapshots = i.snapshots ∧ j.nextSequence = i.nextSequence) :
    (s.updateIndex f).Keeps (s.IsOrderly base) := by
  rintro w ⟨i, h⟩
  refine (h.inOrder.updateIndex (P := fun _ j _ => j.IsValid ∧ j.snapshots = i.snapshots ∧
    j.nextSequence = i.nextSequence) fun w₁ h₁ => ?_).mono ?_
  · refine (hf i w₁ h.inOrder.valid (h.inOrder.within_region h₁).clock).mono ?_
    rintro r w₂ ⟨h₂, hj⟩
    exact ⟨h₁.trans h₂, hj⟩
  · rintro (e | a) w' hw'
    · exact ⟨i, h.region hw'⟩
    · obtain ⟨j, w₂, ⟨hvalid, hsnapshots, hnext⟩, h₂, hreindexed⟩ := hw'
      have hkept := h.inOrder.within_region h₂
      have hdone : s.InOrder base w' j := hkept.reindexed hreindexed hvalid
        (hsnapshots ▸ hkept.copies) (hsnapshots ▸ hkept.apart) (fun _ _ => trivial)
        fun _ _ hg => hg.elim
      have hbelow := hreindexed.below
      exact ⟨j, (h.region h₂).sublist ⟨hbelow.ids, hbelow.drawn⟩ hdone
        (hsnapshots ▸ List.Sublist.refl _) hnext⟩

theorem keeps_delete (id : Uid) : (s.delete id).Keeps (s.IsOrderly base) := by
  rintro w ⟨i, h⟩
  exact (h.inOrder.delete fun _ _ hg => hg.elim).mono fun _ _ hw => h.dropped hw

theorem keeps_retain (file : Path) (keep : Nat) :
    (s.retain file keep).Keeps (s.IsOrderly base) := by
  rintro w ⟨i, h⟩
  exact (h.inOrder.retain file keep).mono fun _ _ hw => h.dropped hw

theorem keeps_record (source : Path) : (s.record source).Keeps (s.IsOrderly base) := by
  rintro w ⟨i, h⟩
  refine (h.inOrder.record (truthful_custody s base w)).mono ?_
  rintro (e | t) w' hw'
  · exact ⟨i, h.same ⟨hw'.1.ids, hw'.1.drawn⟩ hw'.2⟩
  · exact ⟨_, h.entered hw'⟩

theorem keeps_create (file : Path) : (s.create file).Keeps (s.IsOrderly base) := by
  refine (Act.keeps_look _).bind fun source => (Act.keeps_look _).bind fun there => ?_
  split
  · exact (keeps_record source).bind fun t =>
      (keeps_retain source s.kept).bind fun _ => Act.keeps_pure t
  · exact Act.keeps_throw _

theorem keeps_createMembers {seen : List Path} {taken : List Snapshot} (files : List Path) :
    (s.createMembers seen taken files).Keeps (s.IsOrderly base) := by
  induction files generalizing seen taken with
  | nil => exact Act.keeps_pure taken
  | cons file files ih =>
    refine (Act.keeps_look _).bind fun key => ?_
    split
    · exact ih
    · refine (keeps_create file).outcome.bind fun r => ?_
      cases r with
      | ok t => exact ih
      | error e =>
        refine Act.Keeps.bind (Act.Keeps.forM (fun t => ?_) taken) fun _ => Act.keeps_throw e
        exact (keeps_delete t.id).outcome.bind fun _ => Act.keeps_pure ()

/-- Pins are in the memory of the process only. -/
theorem Orderly.repin (h : s.Orderly base w i) (pinned : List Uid) :
    s.Orderly base { w with pinned } i :=
  h.same ⟨rfl, Nat.le_refl _⟩ (h.inOrder.repin fun _ _ hg => hg.elim)

theorem keeps_repin (f : World → List Uid) :
    (Act.change fun w => { w with pinned := f w } : Act ε Unit).Keeps (s.IsOrderly base) :=
  Act.keeps_change fun w ⟨i, h⟩ => ⟨i, h.repin (f w)⟩

theorem keeps_createSet (files : List Path) :
    (s.createSet files).Keeps (s.IsOrderly base) := by
  refine (keeps_createMembers files).bind fun members => ?_
  rintro w ⟨i, h⟩
  refine World.ends_drawId_bind (World.ends_readClock_bind ?_)
  have hread : Within (Region base) w
      { w with drawn := w.drawn + 1, readings := w.readings + 1 } :=
    ⟨Frame.refl _, rfl, rfl, rfl, Nat.le_succ _, rfl⟩
  refine (keeps_updateIndex fun i w₁ hi _ => ?_).bind
    (fun _ => (keeps_repin _).bind fun _ => Act.keeps_pure _) _ ⟨i, h.region hread⟩
  refine Act.ends_pure ⟨.refl w₁, ?_⟩
  rintro _ _ ⟨⟩
  exact ⟨hi.addSet (h.inOrder.clock _), rfl, rfl⟩

theorem keeps_markRestored (id : Uid) :
    (s.markRestored id).Keeps (s.IsOrderly base) := by
  refine keeps_updateIndex fun i w hi hclock => ?_
  cases i.find? id with
  | none => exact Act.ends_throw ⟨.refl w, nofun⟩
  | some t =>
    refine World.ends_readClock_bind (Act.ends_pure ⟨⟨Frame.refl _, rfl, rfl, rfl, Nat.le_refl _,
      rfl⟩, ?_⟩)
    rintro _ _ ⟨⟩
    exact ⟨hi.mark id (hclock _), rfl, rfl⟩

theorem keeps_releaseSet (id : Uid) :
    (s.releaseSet id : Act ε Unit).Keeps (s.IsOrderly base) := by
  have hget : (s.getSet id).Keeps (s.IsOrderly base) := keeps_of_region fun w i h =>
    (h.getSet id).mono fun _ _ hw => hw.1
  refine hget.outcome.bind fun r => ?_
  cases r with
  | ok set => exact keeps_repin _
  | error e => exact Act.keeps_pure ()

end Keeps

/-! ## Any sequence of moves -/

/-- One operation leaves a store orderly. -/
theorem Orderly.run (h : s.Orderly base w i) {op : Op} (hop : op.Clears s base w) :
    s.IsOrderly base (op.run s w) := by
  cases op with
  | create file => exact Act.ends_iff.mp (keeps_create file w ⟨i, h⟩)
  | createSet files => exact Act.ends_iff.mp (keeps_createSet files w ⟨i, h⟩)
  | retain file keep => exact Act.ends_iff.mp (keeps_retain file keep w ⟨i, h⟩)
  | restore t =>
    have hback := Act.ends_iff.mp (h.inOrder.restore (t := t) hop)
    exact ⟨i, h.same ⟨hback.within.ids, hback.within.drawn⟩ hback.kept⟩
  | markRestored id => exact Act.ends_iff.mp (keeps_markRestored id w ⟨i, h⟩)
  | releaseSet id => exact Act.ends_iff.mp (keeps_releaseSet id w ⟨i, h⟩)
  | delete id => exact Act.ends_iff.mp (keeps_delete id w ⟨i, h⟩)

/-- What may become of a store: its own moves, also in the process of a later run, which begins with
nothing pinned. -/
inductive Passes (s : SnapshotStore) (base : Location) : World → World → Prop
  | move {w w' : World} (h : s.Moves base w w') : Passes s base w w'
  | process (w : World) : Passes s base w { w with pinned := [] }

theorem Orderly.passes (h : s.Orderly base w i) (hpass : s.Passes base w w') :
    s.IsOrderly base w' := by
  cases hpass with
  | move hmove =>
    cases hmove with
    | op op hop => exact h.run hop
    | locks hw => exact ⟨i, h.region hw⟩
    | elsewhere hw => exact ⟨i, h.same ⟨hw.ids, hw.drawn⟩ (h.inOrder.elsewhere hw)⟩
  | process => exact ⟨i, h.repin []⟩

theorem Orderly.history (h : s.Orderly base w i)
    (hpasses : Relation.ReflTransGen (s.Passes base) w w') : s.IsOrderly base w' := by
  induction hpasses with
  | refl => exact ⟨i, h⟩
  | tail _ hpass ih =>
    obtain ⟨j, hj⟩ := ih
    exact hj.passes hpass

end SnapshotStore

end Amend
