import Amend.Extraction.Names
import Mathlib.Data.List.Induction
import Mathlib.Data.String.Basic

/-!
# Members of sets of names

What each operation on a set of names does to its members, and how the list of first occurrences
keeps the order of a list.
-/

namespace Amend.Extraction

namespace Names

variable {s t : Names} {x y : String}

theorem has_iff : s.has x = true ↔ x ∈ s.members := by
  rw [has, List.contains_iff_mem]

@[simp] theorem has_empty : empty.has x = false := rfl

theorem mem_insertSorted {l : List String} : y ∈ insertSorted x l ↔ y = x ∨ y ∈ l := by
  induction l with
  | nil => simp [insertSorted]
  | cons z l ih =>
    by_cases hxz : x = z
    · simp [insertSorted, hxz]
    · by_cases hlt : x < z
      · simp [insertSorted, hxz, hlt]
      · simp only [insertSorted, hxz, hlt, if_false, List.mem_cons, ih]
        tauto

@[simp] theorem has_insert : (s.insert x).has y = true ↔ y = x ∨ s.has y = true := by
  rw [has_iff, has_iff, insert, mem_insertSorted]

theorem has_foldl_insert {l : List String} :
    (l.foldl insert s).has x = true ↔ s.has x = true ∨ x ∈ l := by
  induction l generalizing s with
  | nil => simp
  | cons z l ih =>
    rw [List.foldl_cons, ih, has_insert, List.mem_cons]
    tauto

@[simp] theorem has_ofList {l : List String} : (ofList l).has x = true ↔ x ∈ l := by
  simp [ofList, has_foldl_insert]

@[simp] theorem has_union : (s.union t).has x = true ↔ s.has x = true ∨ t.has x = true := by
  rw [union, has_foldl_insert, has_iff (s := t)]

@[simp] theorem has_unionOf {α : Type} {f : α → Names} {l : List α} :
    (unionOf f l).has x = true ↔ ∃ a ∈ l, (f a).has x = true := by
  suffices h : ∀ s : Names, (l.foldl (fun s a => s.union (f a)) s).has x = true ↔
      s.has x = true ∨ ∃ a ∈ l, (f a).has x = true by
    simpa [unionOf] using h empty
  induction l with
  | nil => simp
  | cons a l ih =>
    intro s
    rw [List.foldl_cons, ih, has_union, List.exists_mem_cons_iff, or_assoc]

@[simp] theorem has_diff : (s.diff t).has x = true ↔ s.has x = true ∧ t.has x = false := by
  rw [has_iff, diff, List.mem_filter, has_iff, Bool.not_eq_true']

theorem isEmpty_iff : s.isEmpty = true ↔ ∀ x, s.has x = false := by
  rw [isEmpty, List.isEmpty_iff, List.eq_nil_iff_forall_not_mem]
  refine forall_congr' fun x => ?_
  rw [← has_iff, Bool.not_eq_true]

theorem disjoint_iff : s.disjoint t = true ↔ ∀ x, s.has x = true → t.has x = false := by
  rw [disjoint, List.all_eq_true]
  simp only [has_iff, Bool.not_eq_true']

/-! ## Order -/

/-- The members stand in increasing order, so each of them once. -/
def Sorted (s : Names) : Prop := s.members.Pairwise (· < ·)

theorem sorted_insert (h : s.Sorted) : (s.insert x).Sorted := by
  obtain ⟨l⟩ := s
  change l.Pairwise (· < ·) at h
  change (insertSorted x l).Pairwise (· < ·)
  induction l with
  | nil => exact List.pairwise_singleton _ x
  | cons z l ih =>
    obtain ⟨hz, hl⟩ := List.pairwise_cons.mp h
    rw [insertSorted]
    split
    · exact h
    · rename_i hne
      split
      · rename_i hlt
        refine List.pairwise_cons.mpr ⟨fun y hy => ?_, h⟩
        rcases List.mem_cons.mp hy with rfl | hy
        · exact hlt
        · exact lt_trans hlt (hz y hy)
      · rename_i hlt
        refine List.pairwise_cons.mpr ⟨fun y hy => ?_, ih hl⟩
        rcases mem_insertSorted.mp hy with rfl | hy
        · exact lt_of_le_of_ne (not_lt.mp hlt) (Ne.symm hne)
        · exact hz y hy

theorem sorted_ofList (l : List String) : (ofList l).Sorted := by
  suffices h : ∀ s : Names, s.Sorted → (l.foldl insert s).Sorted from h empty List.Pairwise.nil
  induction l with
  | nil => exact fun s hs => hs
  | cons x l ih => exact fun s hs => ih (s.insert x) (sorted_insert hs)

theorem Sorted.nodup (h : s.Sorted) : s.members.Nodup := h.imp fun hlt => ne_of_lt hlt

end Names

/-! ## First occurrences -/

section FirstOccurrences

variable {α : Type} [BEq α] [LawfulBEq α] {x : α}

theorem mem_firstOccurrences {xs : List α} : x ∈ firstOccurrences xs ↔ x ∈ xs := by
  suffices h : ∀ seen : List α,
      x ∈ xs.foldl (fun seen x => if seen.contains x then seen else x :: seen) seen ↔
        x ∈ seen ∨ x ∈ xs by
    simpa [firstOccurrences] using h []
  induction xs with
  | nil => simp
  | cons y xs ih =>
    intro seen
    rw [List.foldl_cons, ih, List.mem_cons]
    split
    · rename_i hy
      have hy := List.contains_iff_mem.mp hy
      constructor
      · rintro (h | h)
        · exact Or.inl h
        · exact Or.inr (Or.inr h)
      · rintro (h | rfl | h)
        · exact Or.inl h
        · exact Or.inl hy
        · exact Or.inr h
    · rw [List.mem_cons]
      tauto

/-- One more element at the end counts if it has not occurred. -/
theorem firstOccurrences_concat (xs : List α) (x : α) :
    firstOccurrences (xs ++ [x]) =
      if xs.contains x then firstOccurrences xs else firstOccurrences xs ++ [x] := by
  have hseen : (xs.foldl (fun seen x => if seen.contains x then seen else x :: seen) []).contains x
      = xs.contains x := by
    rw [Bool.eq_iff_iff, List.contains_iff_mem, List.contains_iff_mem, ← List.mem_reverse]
    exact mem_firstOccurrences
  rw [firstOccurrences, List.foldl_append, List.foldl_cons, List.foldl_nil, hseen]
  split
  · rfl
  · rw [List.reverse_cons]
    rfl

/-- First occurrences stand in the order in which they occur. -/
theorem pairwise_firstOccurrences (xs : List α) :
    (firstOccurrences xs).Pairwise fun a b => xs.idxOf a < xs.idxOf b := by
  induction xs using List.reverseRecOn with
  | nil => exact List.Pairwise.nil
  | append_singleton xs x ih =>
    have hold : (firstOccurrences xs).Pairwise fun a b =>
        (xs ++ [x]).idxOf a < (xs ++ [x]).idxOf b := by
      refine ih.imp_of_mem fun {a b} ha hb hab => ?_
      rw [List.idxOf_append_of_mem (mem_firstOccurrences.mp ha),
        List.idxOf_append_of_mem (mem_firstOccurrences.mp hb)]
      exact hab
    rw [firstOccurrences_concat]
    split
    · exact hold
    · rename_i hx
      rw [List.contains_iff_mem] at hx
      refine List.pairwise_append.mpr ⟨hold, List.pairwise_singleton _ x, fun a ha b hb => ?_⟩
      have ha := mem_firstOccurrences.mp ha
      rw [List.mem_singleton.mp hb, List.idxOf_append_of_mem ha,
        List.idxOf_append_of_notMem hx]
      exact Nat.lt_of_lt_of_le (List.idxOf_lt_length_of_mem ha) (Nat.le_add_right _ _)

/-- What comes first in two lists is the same when the same elements come first in each. -/
theorem firstOccurrences_append_congr {xs xs' ys ys' : List α}
    (hxs : firstOccurrences xs = firstOccurrences xs')
    (hys : firstOccurrences ys = firstOccurrences ys') :
    firstOccurrences (xs ++ ys) = firstOccurrences (xs' ++ ys') := by
  have hsplit (us vs : List α) : firstOccurrences (us ++ vs) = firstOccurrences us ++
      (firstOccurrences vs).filter fun v => !(firstOccurrences us).contains v := by
    induction vs using List.reverseRecOn with
    | nil => rw [List.append_nil]; exact (List.append_nil _).symm
    | append_singleton vs v ih =>
      have hmem : (us ++ vs).contains v = ((firstOccurrences us).contains v || vs.contains v) := by
        rw [Bool.eq_iff_iff, Bool.or_eq_true, List.contains_iff_mem, List.contains_iff_mem,
          List.contains_iff_mem, List.mem_append, mem_firstOccurrences]
      rw [← List.append_assoc, firstOccurrences_concat, firstOccurrences_concat, hmem, ih]
      by_cases hus : v ∈ firstOccurrences us <;> by_cases hvs : v ∈ vs <;> simp [hus, hvs]
  rw [hsplit, hsplit, hxs, hys]

theorem firstOccurrences_firstOccurrences (xs : List α) :
    firstOccurrences (firstOccurrences xs) = firstOccurrences xs := by
  induction xs using List.reverseRecOn with
  | nil => rfl
  | append_singleton xs x ih =>
    rw [firstOccurrences_concat]
    split
    · exact ih
    · rename_i hx
      rw [firstOccurrences_concat, ih, if_neg]
      rw [List.contains_iff_mem, mem_firstOccurrences]
      rwa [List.contains_iff_mem] at hx

theorem firstOccurrences_flatMap {β : Type} (f : β → List α) (bs : List β) :
    firstOccurrences (bs.flatMap fun b => firstOccurrences (f b)) =
      firstOccurrences (bs.flatMap f) := by
  induction bs with
  | nil => rfl
  | cons b bs ih =>
    rw [List.flatMap_cons, List.flatMap_cons]
    exact firstOccurrences_append_congr (firstOccurrences_firstOccurrences (f b)) ih

end FirstOccurrences

end Amend.Extraction
