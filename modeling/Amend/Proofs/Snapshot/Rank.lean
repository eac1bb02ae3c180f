import Mathlib.Data.List.Sort
import Amend.Proofs.Snapshot.Index

/-!
# The order in which snapshots are listed

Snapshots of a file are listed by their times and, at one time, by their numbers, the newest first.
That order is kept when snapshots are left out, and one that is newer than all others comes before
them.
-/

namespace Amend

/-- Times are compared as their fields are, from the first on. -/
theorem Timestamp.order_eq_compare (a b : Timestamp) : order a b = compare a.fields b.fields := by
  simp only [order, fields, List.compare_eq_compareLex, List.compareLex_cons_cons,
    List.compareLex_nil_nil, List.zipWith_cons_cons, List.zipWith_nil_left, List.foldl_cons,
    List.foldl_nil, Ordering.then_assoc, Ordering.then_eq, Ordering.eq_then]

namespace Snapshot

/-! ## Newer and older -/

/-- Snapshots are compared by their times, then by their numbers. -/
def byAge : Snapshot → Snapshot → Ordering :=
  compareLex (compareOn fun s => s.createdAt.fields) (compareOn Snapshot.sequence)

instance : Std.TransCmp byAge :=
  inferInstanceAs (Std.TransCmp (compareLex (compareOn fun s : Snapshot => s.createdAt.fields)
    (compareOn Snapshot.sequence)))

variable {a b t : Snapshot} {ss : List Snapshot}

theorem newerOrEqual_eq (a b : Snapshot) : a.newerOrEqual b = (byAge a b).isGE := by
  rw [newerOrEqual, byAge, Timestamp.order_eq_compare, compareLex, compareOn, compareOn]
  cases compare a.createdAt.fields b.createdAt.fields with
  | lt => rfl
  | gt => rfl
  | eq => rw [Ordering.eq_then, Bool.eq_iff_iff, Nat.isGE_compare, decide_eq_true_iff]

theorem newerOrEqual_trans (a b c : Snapshot) (h : a.newerOrEqual b = true)
    (h' : b.newerOrEqual c = true) : a.newerOrEqual c = true := by
  rw [newerOrEqual_eq] at h h' ⊢
  exact Std.TransCmp.isGE_trans h h'

theorem newerOrEqual_total (a b : Snapshot) : (a.newerOrEqual b || b.newerOrEqual a) = true := by
  have hswap : byAge b a = (byAge a b).swap := Std.OrientedCmp.eq_swap
  rw [newerOrEqual_eq, newerOrEqual_eq, hswap]
  cases byAge a b <;> rfl

/-- A snapshot that was not taken earlier and has the higher number is the newer one. -/
theorem newerOrEqual_of_later (htime : Timestamp.order a.createdAt b.createdAt ≠ .gt)
    (hnumber : a.sequence < b.sequence) : b.newerOrEqual a = true := by
  rw [Timestamp.order_eq_compare] at htime
  have hswap : compare b.createdAt.fields a.createdAt.fields =
      (compare a.createdAt.fields b.createdAt.fields).swap := Std.OrientedCmp.eq_swap
  rw [newerOrEqual, Timestamp.order_eq_compare, hswap]
  cases hcompare : compare a.createdAt.fields b.createdAt.fields with
  | lt => rfl
  | eq => exact decide_eq_true (Nat.le_of_lt hnumber)
  | gt => exact absurd hcompare htime

/-- Snapshots of which each is newer than the other have one number. -/
theorem sequence_eq_of_newerOrEqual (h : a.newerOrEqual b = true) (h' : b.newerOrEqual a = true) :
    a.sequence = b.sequence := by
  rw [newerOrEqual_eq] at h h'
  have heq : byAge a b = .eq := Std.OrientedCmp.isGE_antisymm h h'
  rw [byAge, compareLex, Ordering.then_eq_eq] at heq
  exact Nat.compare_eq_eq.mp heq.2

/-! ## Lists of snapshots -/

theorem newestFirst_pairwise (ss : List Snapshot) :
    (newestFirst ss).Pairwise fun a b => a.newerOrEqual b = true :=
  List.pairwise_mergeSort newerOrEqual_trans newerOrEqual_total ss

theorem newestFirst_perm (ss : List Snapshot) : (newestFirst ss).Perm ss := List.mergeSort_perm ss _

theorem mem_newestFirst : a ∈ newestFirst ss ↔ a ∈ ss := (newestFirst_perm ss).mem_iff

/-- There is one place in a list behind which a property holds and before which it does not. -/
theorem append_inj_of_split {α : Type} {p : α → Bool} {l₁ l₂ m₁ m₂ : List α}
    (heq : l₁ ++ l₂ = m₁ ++ m₂) (hl₁ : ∀ x ∈ l₁, p x = false) (hl₂ : ∀ x ∈ l₂, p x = true)
    (hm₁ : ∀ x ∈ m₁, p x = false) (hm₂ : ∀ x ∈ m₂, p x = true) : l₁ = m₁ ∧ l₂ = m₂ := by
  have hsplit {k₁ k₂ : List α} (h₁ : ∀ x ∈ k₁, p x = false) (h₂ : ∀ x ∈ k₂, p x = true) :
      (k₁ ++ k₂).filter p = k₂ := by
    rw [List.filter_append, List.filter_eq_self.mpr h₂, List.filter_eq_nil_iff.mpr, List.nil_append]
    intro x hx
    rw [h₁ x hx]
    exact Bool.false_ne_true
  have hback : l₂ = m₂ := by
    rw [← hsplit hl₁ hl₂, heq, hsplit hm₁ hm₂]
  rw [hback] at heq
  exact ⟨List.append_cancel_right heq, hback⟩

/-- A list with one more snapshot in front has it behind those that are strictly newer. -/
theorem newestFirst_cons (a : Snapshot) (ss : List Snapshot) :
    ∃ newer older, newestFirst (a :: ss) = newer ++ a :: older ∧ newestFirst ss = newer ++ older ∧
      (∀ b ∈ newer, a.newerOrEqual b = false) ∧ ∀ b ∈ older, a.newerOrEqual b = true := by
  obtain ⟨newer, older, hcons, hrest, hnewer⟩ :=
    List.mergeSort_cons newerOrEqual_trans newerOrEqual_total a ss
  refine ⟨newer, older, hcons, hrest, fun b hb => by simpa using hnewer b hb, fun b hb => ?_⟩
  have hordered : (newer ++ a :: older).Pairwise fun a b => a.newerOrEqual b = true := by
    rw [← hcons]
    exact newestFirst_pairwise (a :: ss)
  exact (List.pairwise_cons.mp (List.pairwise_append.mp hordered).2.1).1 b hb

/-- Leaving snapshots out does not change the order of the rest. -/
theorem newestFirst_filter (p : Snapshot → Bool) (ss : List Snapshot) :
    newestFirst (ss.filter p) = (newestFirst ss).filter p := by
  induction ss with
  | nil => simp [newestFirst]
  | cons a ss ih =>
    obtain ⟨newer, older, hcons, hrest, hnewer, holder⟩ := newestFirst_cons a ss
    rw [hcons, List.filter_append]
    rw [hrest, List.filter_append] at ih
    cases hp : p a with
    | false =>
      rw [List.filter_cons_of_neg (by simp [hp]), List.filter_cons_of_neg (by simp [hp]), ih]
    | true =>
      obtain ⟨newer', older', hcons', hrest', hnewer', holder'⟩ := newestFirst_cons a (ss.filter p)
      obtain ⟨rfl, rfl⟩ := append_inj_of_split (hrest'.symm.trans ih) hnewer' holder'
        (fun b hb => hnewer b (List.mem_of_mem_filter hb))
        fun b hb => holder b (List.mem_of_mem_filter hb)
      rw [List.filter_cons_of_pos hp, List.filter_cons_of_pos hp, hcons']

/-- The time of a snapshot is later than that of another one. -/
def isLaterThan (t u : Snapshot) : Bool := Timestamp.order u.createdAt t.createdAt = .gt

theorem newerOrEqual_of_isLaterThan (h : t.isLaterThan a = true) : a.newerOrEqual t = true := by
  rw [newerOrEqual, of_decide_eq_true h]

/-- The snapshot that was taken last comes behind those with a later time and before all others. -/
theorem newestFirst_concat_eq
    (hnumbers : (ss ++ [t]).Pairwise fun a b => a.sequence < b.sequence) :
    newestFirst (ss ++ [t]) = (newestFirst ss).filter t.isLaterThan ++
      t :: (newestFirst ss).filter fun u => !t.isLaterThan u := by
  have hbefore : ∀ u ∈ (newestFirst ss).filter fun u => !t.isLaterThan u,
      t.newerOrEqual u = true := by
    intro u hu
    obtain ⟨hu, hlater⟩ := List.mem_filter.mp hu
    refine newerOrEqual_of_later (by simpa [isLaterThan] using hlater) ?_
    exact (List.pairwise_append.mp hnumbers).2.2 u (mem_newestFirst.mp hu) t
      (List.mem_singleton_self t)
  have hbehind : ∀ u ∈ (newestFirst ss).filter t.isLaterThan, u.newerOrEqual t = true :=
    fun u hu => newerOrEqual_of_isLaterThan (List.mem_filter.mp hu).2
  have hordered : ((newestFirst ss).filter t.isLaterThan ++
      t :: (newestFirst ss).filter fun u => !t.isLaterThan u).Pairwise
        fun a b => a.newerOrEqual b = true := by
    refine List.pairwise_append.mpr ⟨(newestFirst_pairwise ss).filter _,
      List.pairwise_cons.mpr ⟨hbefore, (newestFirst_pairwise ss).filter _⟩, fun u hu v hv => ?_⟩
    rcases List.mem_cons.mp hv with rfl | hv
    · exact hbehind u hu
    · exact newerOrEqual_trans u t v (hbehind u hu) (hbefore v hv)
  have hperm : (newestFirst (ss ++ [t])).Perm ((newestFirst ss).filter t.isLaterThan ++
      t :: (newestFirst ss).filter fun u => !t.isLaterThan u) := by
    refine (newestFirst_perm _).trans ((List.perm_append_singleton t ss).trans ?_)
    refine (List.Perm.cons t ?_).trans List.perm_middle.symm
    exact (newestFirst_perm ss).symm.trans (List.filter_append_perm _ _).symm
  -- with different numbers no two snapshots are equally new, so there is one order
  refine hperm.eq_of_pairwise (fun a b ha hb h h' => ?_) (newestFirst_pairwise _) hordered
  have hsame := sequence_eq_of_newerOrEqual h h'
  have hsymm : Std.Symm fun a b : Snapshot => a.sequence ≠ b.sequence := ⟨fun _ _ => Ne.symm⟩
  by_contra hne
  exact (hnumbers.imp fun h => Nat.ne_of_lt h).forall (mem_newestFirst.mp ha)
    (mem_newestFirst.mp (hperm.mem_iff.mpr hb)) hne hsame

/-- The snapshot that was taken last and not at an earlier time than the others is the newest. -/
theorem newestFirst_concat (hnumbers : (ss ++ [t]).Pairwise fun a b => a.sequence < b.sequence)
    (htimes : ∀ u ∈ ss, Timestamp.order u.createdAt t.createdAt ≠ .gt) :
    newestFirst (ss ++ [t]) = t :: newestFirst ss := by
  have hnone : ∀ u ∈ newestFirst ss, t.isLaterThan u = false := fun u hu =>
    decide_eq_false (htimes u (mem_newestFirst.mp hu))
  rw [newestFirst_concat_eq hnumbers, List.filter_eq_nil_iff.mpr fun u hu => by simp [hnone u hu],
    List.filter_eq_self.mpr fun u hu => by simp [hnone u hu], List.nil_append]

end Snapshot

namespace SnapshotIndex

variable {i : SnapshotIndex} {ids : List Uid} {t : Snapshot} {file : Path}

/-! ## Dropping several snapshots -/

/-- Where all identifiers differ, only one snapshot is erased with an identifier. -/
theorem eraseP_of_distinct {ss : List Snapshot} (h : ss.Pairwise fun a b => a.id ≠ b.id)
    (id : Uid) : (ss.eraseP fun t => t.id = id) = ss.filter fun t => t.id ≠ id := by
  induction ss with
  | nil => rfl
  | cons s ss ih =>
    obtain ⟨hfirst, hrest⟩ := List.pairwise_cons.mp h
    by_cases heq : s.id = id
    · rw [List.eraseP_cons_of_pos (by simpa using heq), List.filter_cons_of_neg (by simpa using heq),
        List.filter_eq_self.mpr]
      intro u hu
      have hne : u.id ≠ id := fun hu' => hfirst u hu (heq.trans hu'.symm)
      simpa using hne
    · rw [List.eraseP_cons_of_neg (by simpa using heq), List.filter_cons_of_pos (by simpa using heq),
        ih hrest]

theorem snapshots_drop (h : i.snapshots.Pairwise fun a b => a.id ≠ b.id) (id : Uid) :
    (i.drop id).snapshots = i.snapshots.filter fun t => t.id ≠ id := eraseP_of_distinct h id

/-- Where all identifiers differ, a snapshot is found by its own. -/
theorem find?_of_distinct (h : i.snapshots.Pairwise fun a b => a.id ≠ b.id) (ht : t ∈ i.snapshots)
    {id : Uid} (hid : t.id = id) : i.find? id = some t := by
  cases hfound : i.find? id with
  | none =>
    have hnot := List.find?_eq_none.mp hfound t ht
    exact absurd hid (by simpa using hnot)
  | some u =>
    obtain ⟨hu, hid'⟩ := mem_of_find? hfound
    have hsymm : Std.Symm fun a b : Snapshot => a.id ≠ b.id := ⟨fun _ _ => Ne.symm⟩
    by_contra hne
    exact h.forall hu ht (fun heq => hne (congrArg some heq)) (hid'.trans hid.symm)

theorem snapshots_foldl_drop (h : i.snapshots.Pairwise fun a b => a.id ≠ b.id) (ids : List Uid) :
    (ids.foldl drop i).snapshots = i.snapshots.filter fun t => t.id ∉ ids := by
  induction ids generalizing i with
  | nil => simp
  | cons id ids ih =>
    have hdistinct : (i.drop id).snapshots.Pairwise fun a b => a.id ≠ b.id :=
      h.sublist List.eraseP_sublist
    rw [List.foldl_cons, ih hdistinct, snapshots_drop h, List.filter_filter]
    refine List.filter_congr fun t _ => ?_
    simp [Bool.and_comm]

theorem restored_foldl_drop (ids : List Uid) :
    (ids.foldl drop i).restored = i.restored.filter fun m => m.1 ∉ ids := by
  induction ids generalizing i with
  | nil => simp
  | cons id ids ih =>
    rw [List.foldl_cons, ih, drop, List.filter_filter]
    refine List.filter_congr fun m _ => ?_
    simp [Bool.and_comm]

theorem sets_foldl_drop (ids : List Uid) : (ids.foldl drop i).sets = i.sets := by
  induction ids generalizing i with
  | nil => rfl
  | cons id ids ih => exact ih

theorem ofFile_foldl_drop (h : i.snapshots.Pairwise fun a b => a.id ≠ b.id) (ids : List Uid)
    (file : Path) :
    (ids.foldl drop i).ofFile file = (i.ofFile file).filter fun t => t.id ∉ ids := by
  rw [ofFile, ofFile, snapshots_foldl_drop h, ← Snapshot.newestFirst_filter, List.filter_filter,
    List.filter_filter]
  refine congrArg _ (List.filter_congr fun t _ => Bool.and_comm _ _)

theorem mem_ofFile : t ∈ i.ofFile file ↔ t ∈ i.snapshots ∧ t.source.same file = true := by
  rw [ofFile, Snapshot.mem_newestFirst, List.mem_filter]

end SnapshotIndex

end Amend
