import Amend.Proofs.Snapshot.Member
import Amend.Proofs.Snapshot.Retention

/-!
# The snapshot that was just taken

Taking a snapshot ends with retention, which goes by the times of the snapshots.  So the snapshot
that was just taken is dropped again where the clock has gone back behind enough others of its file,
and it stays where fewer of them than are kept have a later time.  It is the latest of its file just
if none of them has.
-/

namespace Amend

open Disk (Plain)
open World (Within)

/-- The snapshots of a file that have a later time than a snapshot. -/
def SnapshotIndex.laterThan (i : SnapshotIndex) (t : Snapshot) (key : Path) : List Snapshot :=
  (i.ofFile key).filter t.isLaterThan

theorem SnapshotIndex.laterThan_eq_nil_iff {i : SnapshotIndex} {t : Snapshot} {key : Path} :
    i.laterThan t key = [] ↔ ∀ u ∈ i.ofFile key, Timestamp.order u.createdAt t.createdAt ≠ .gt := by
  simp [laterThan, List.filter_eq_nil_iff, Snapshot.isLaterThan]

/-- What stands once in a list is among the first few just if fewer stand before it. -/
theorem mem_take_append_cons_iff {α : Type} {xs ys : List α} {x : α} (hx : x ∉ xs) (n : Nat) :
    x ∈ (xs ++ x :: ys).take n ↔ xs.length < n := by
  rw [List.take_append, List.mem_append]
  constructor
  · rintro (h | h)
    · exact absurd (List.mem_of_mem_take h) hx
    · by_contra hle
      rw [Nat.sub_eq_zero_of_le (Nat.le_of_not_lt hle), List.take_zero] at h
      exact List.not_mem_nil h
  · intro h
    obtain ⟨m, hm⟩ := Nat.exists_eq_succ_of_ne_zero (Nat.sub_ne_zero_of_lt h)
    rw [hm, List.take_succ_cons]
    exact Or.inr List.mem_cons_self

namespace SnapshotStore

variable {s : SnapshotStore} {base : Location} {v w : World} {i j : SnapshotIndex} {t : Snapshot}
  {key : Path} {gone : List Uid}

/-- A snapshot that was entered is listed behind those of its file that have a later time. -/
theorem Orderly.ofFile_entered (h : s.Orderly base w (i.add t)) (hroom : w.drawn < MachineWord.card)
    (hkey : t.source.same key = true) :
    (i.add t).ofFile key = i.laterThan t key ++
      t :: (i.ofFile key).filter fun u => !t.isLaterThan u := by
  have hnumbers : (i.snapshots ++ [t]).Pairwise fun a b => a.sequence < b.sequence :=
    (h.numbered hroom).2.ascending
  rw [SnapshotIndex.ofFile, SnapshotIndex.add, List.filter_append,
    List.filter_cons_of_pos (by simpa using hkey), List.filter_nil]
  refine Snapshot.newestFirst_concat_eq (hnumbers.sublist ?_)
  exact List.Sublist.append List.filter_sublist (List.Sublist.refl _)

/-- The snapshots that retention drops are listed behind the first few and not pinned. -/
theorem Retained.mem_gone_iff {ranked : List Snapshot} {keep : Nat}
    (h : s.Retained base v i ranked keep gone w j)
    (hdistinct : ranked.Pairwise fun a b => a.id ≠ b.id) (ht : t ∈ ranked) :
    t.id ∈ gone ↔ t ∉ ranked.take keep ∧ t.id ∉ v.pinned := by
  have hparts : ∀ a ∈ ranked.take keep, ∀ b ∈ ranked.drop keep, a.id ≠ b.id :=
    (List.pairwise_append.mp (by rwa [List.take_append_drop])).2.2
  rw [h.gone_eq, List.mem_filter, List.mem_map]
  simp only [Bool.not_eq_true', List.contains_eq_mem, decide_eq_false_iff_not]
  refine and_congr_left fun _ => ⟨?_, fun hnot => ⟨t, ?_, rfl⟩⟩
  · rintro ⟨u, hu, hid⟩ hfirst
    exact hparts t hfirst u hu hid.symm
  · rw [← List.take_append_drop keep ranked, List.mem_append] at ht
    exact ht.resolve_left hnot

/-- When a snapshot of a file was taken, retention found it behind those with a later time. -/
theorem Took.ranked (h : s.Took base v i key t w gone j) (hapart : w.DrawsApart)
    (hroom : w.drawn < MachineWord.card) : ∃ w₁ earlier, w₁.pinned = v.pinned ∧
      (i.add t).ofFile key = i.laterThan t key ++ t :: earlier ∧
      (i.laterThan t key ++ t :: earlier).Pairwise (fun a b => a.id ≠ b.id) ∧
      s.Retained base w₁ (i.add t) (i.laterThan t key ++ t :: earlier) s.kept gone w j := by
  obtain ⟨w₁, hentered, hon, hpinned, hdone⟩ := h.entered
  have hkey : t.source.same key = true := by rw [h.source, Path.same, beq_self_eq_true]
  have hlist := hentered.ofFile_entered (Nat.lt_of_le_of_lt hon.drawn hroom) hkey
  have hdistinct : ((i.add t).ofFile key).Pairwise fun a b => a.id ≠ b.id :=
    ((ranks_ofFile _ key).perm.pairwise_iff fun hne => hne.symm).mpr
      ((hentered.distinct (hapart.earlier hon)).sublist List.filter_sublist)
  exact ⟨w₁, _, hpinned, hlist, hlist ▸ hdistinct, hlist ▸ hdone⟩

/-- The snapshot that was taken stays just if fewer snapshots of its file than are kept have a later
time, or if its identifier was pinned before. -/
theorem Took.find?_iff (h : s.Took base v i key t w gone j) (hapart : w.DrawsApart)
    (hroom : w.drawn < MachineWord.card) :
    j.find? t.id = some t ↔ (i.laterThan t key).length < s.kept ∨ t.id ∈ v.pinned := by
  obtain ⟨w₁, earlier, hpinned, -, hdistinct, hdone⟩ := h.ranked hapart hroom
  have hstays : t ∈ j.snapshots ↔ t.id ∉ gone := by
    rw [hdone.snapshots, List.mem_filter, decide_eq_true_iff]
    exact and_iff_right (List.mem_append_right _ (List.mem_singleton_self t))
  have hfound : j.find? t.id = some t ↔ t ∈ j.snapshots :=
    ⟨fun hfound => (SnapshotIndex.mem_of_find? hfound).1,
      fun ht => SnapshotIndex.find?_of_distinct (h.orderly.distinct hapart) ht rfl⟩
  have hbehind : t ∉ i.laterThan t key := fun hlater =>
    (List.pairwise_append.mp hdistinct).2.2 t hlater t List.mem_cons_self rfl
  rw [hfound, hstays, hdone.mem_gone_iff hdistinct (List.mem_append_right _ List.mem_cons_self),
    mem_take_append_cons_iff hbehind, hpinned, not_and_or, not_not, not_not]

/-- Where any are kept, the snapshot that was taken is the latest of its file just if no other one
has a later time. -/
theorem Took.head?_iff (h : s.Took base v i key t w gone j) (hapart : w.DrawsApart)
    (hroom : w.drawn < MachineWord.card) (hkept : 1 ≤ s.kept) :
    (j.ofFile key).head? = some t ↔ i.laterThan t key = [] := by
  obtain ⟨w₁, earlier, -, hlist, hdistinct, hdone⟩ := h.ranked hapart hroom
  obtain ⟨n, hn⟩ := Nat.exists_eq_succ_of_ne_zero (Nat.ne_zero_of_lt hkept)
  -- the first one of all is kept
  have hhead (u : Snapshot) (us : List Snapshot) (hu : i.laterThan t key ++ t :: earlier = u :: us) :
      (j.ofFile key).head? = some u := by
    have hstays : u.id ∉ gone := by
      rw [hdone.mem_gone_iff hdistinct (hu ▸ List.mem_cons_self), hu, hn, List.take_succ_cons]
      exact fun hgone => hgone.1 List.mem_cons_self
    rw [hdone.listed, hlist, hu, List.filter_cons_of_pos (by simpa using hstays), List.head?_cons]
  cases hlater : i.laterThan t key with
  | nil => exact iff_of_true (hhead t earlier (by rw [hlater, List.nil_append])) rfl
  | cons u us =>
    refine iff_of_false (fun heq => ?_) (List.cons_ne_nil u us)
    have hfirst := hhead u (us ++ t :: earlier) (by rw [hlater, List.cons_append])
    have hut : u = t := Option.some.inj (hfirst.symm.trans heq)
    rw [hlater] at hdistinct
    exact (List.pairwise_append.mp hdistinct).2.2 u List.mem_cons_self t List.mem_cons_self
      (congrArg Snapshot.id hut)

/-- Whatever a store without an index has gone through: a snapshot that was taken of a file is found
again, with its copy, just if fewer snapshots of the file than are kept have a later time or its
identifier was pinned before.  It is the latest of its file just if no other one has a later time.
So both hold as long as the clock has not gone back. -/
theorem snapshot_just_taken {w₀ : World} (h : s.InOrder base w₀ .empty)
    (hpasses : Relation.ReflTransGen (s.Passes base) w₀ v) (hi : i.IsAt base v.disk) {file : Path}
    {l : Location} (hplain : Plain v.disk (v.identity file) l) :
    (s.create file).Ends v fun r w => ∀ t, r = .ok t → w.DrawsApart →
      w.drawn < MachineWord.card → ∃ j : SnapshotIndex, j.IsAt base w.disk ∧
        (j.find? t.id = some t ↔
          (i.laterThan t (v.identity file)).length < s.kept ∨ t.id ∈ v.pinned) ∧
        (t ∈ j.snapshots → ∃ content, Digest.blake3 content = t.checksum ∧
          w.disk.read (w.absolute t.location) = .ok content) ∧
        (1 ≤ s.kept → ((j.ofFile (v.identity file)).head? = some t ↔
          i.laterThan t (v.identity file) = [])) ∧
        (s.get t.id).Ends w fun r _ => ∀ u, r = .ok u → j.find? t.id = some u := by
  obtain ⟨_, hv⟩ := (orderly_empty h).history hpasses
  obtain rfl := hv.inOrder.isAt.unique hi
  refine (hv.create hplain).mono fun r w hcreate t hr hapart hroom => ?_
  obtain ⟨gone, j, htook⟩ := hcreate t hr hapart
  refine ⟨j, htook.orderly.inOrder.isAt, htook.find?_iff hapart hroom, fun ht => ?_,
    htook.head?_iff hapart hroom, ?_⟩
  · obtain ⟨content, hcopy, hchecksum⟩ := htook.orderly.inOrder.copies t ht
    exact ⟨content, hchecksum, hcopy.read htook.orderly.inOrder.under⟩
  · exact (htook.orderly.inOrder.indexed.get t.id).mono fun _ _ hget => hget.2

end SnapshotStore

end Amend
