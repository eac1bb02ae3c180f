import Mathlib.Data.List.Nodup
import Mathlib.Data.List.Perm.Subperm
import Amend.Proofs.Snapshot.Custody

/-!
# The name of a new copy

A copy is named after its file and the time, with a number behind if that name is taken.  The names
that are tried are all different and more than there are entries on the disk, so the name that is
chosen in the end is free.
-/

namespace Amend

open Path (IsName)
open FileLocks (Under)

namespace SnapshotStore

/-- The names that are tried for a copy, by the number of those before. -/
def candidate (base : String) (n : Nat) : String :=
  if n = 0 then base else base ++ "-" ++ toString n

theorem candidate_injective {base : String} {m n : Nat} (h : candidate base m = candidate base n) :
    m = n := by
  have hlonger (k : Nat) : base ≠ base ++ "-" ++ toString k := by
    intro heq
    have hlength := congrArg (·.toList.length) heq
    simp only [String.toList_append, List.length_append] at hlength
    have hdash : "-".toList.length = 1 := rfl
    omega
  unfold candidate at h
  split at h
  · split at h
    · omega
    · exact absurd h (hlonger n)
  · split at h
    · exact absurd h.symm (hlonger m)
    · exact Text.toString_injective ((String.append_right_inj _).mp h)

/-- The first free name is a candidate, and it is free unless all candidates before were taken. -/
theorem freeName_eq (w : World) (dir : Path) (base : String) {fuel n : Nat} (hn : 0 < n + fuel) :
    ∃ m, n ≤ m ∧ freeName w dir base fuel n = dir ++ candidate base m ∧
      (w.pathExists (dir ++ candidate base m) = false ∨
        ∀ k, n ≤ k → k < n + fuel → w.pathExists (dir ++ candidate base k) = true) := by
  induction fuel generalizing n with
  | zero =>
    refine ⟨n, Nat.le_refl n, ?_, Or.inr fun k hk hlt => absurd hlt (by omega)⟩
    rw [freeName, candidate, if_neg (by omega)]
  | succ fuel ih =>
    rw [freeName]
    change ∃ m, n ≤ m ∧ (if w.pathExists (dir ++ candidate base n) = true
      then freeName w dir base fuel (n + 1) else dir ++ candidate base n) = _ ∧ _
    cases hthere : w.pathExists (dir ++ candidate base n) with
    | false => exact ⟨n, Nat.le_refl n, rfl, Or.inl hthere⟩
    | true =>
      obtain ⟨m, hm, heq, hfree⟩ := ih (n := n + 1) (by omega)
      refine ⟨m, by omega, heq, hfree.imp_right fun hall k hk hlt => ?_⟩
      rcases Nat.eq_or_lt_of_le hk with rfl | hk
      · exact hthere
      · exact hall k hk (by omega)

/-! ## Copy names -/

theorem noSlash_stamp (t : Timestamp) : '/' ∉ t.stamp.toList := by
  have hpadded (width n : Nat) : '/' ∉ (Timestamp.padded width n).toList := fun h =>
    absurd (Timestamp.isDigit_of_mem_padded h) (by decide)
  simp only [Timestamp.stamp, String.toList_append, List.mem_append, hpadded]
  decide

theorem noSlash_fileName (source : Path) : '/' ∉ (source.fileName?.getD "file").toList := by
  rw [Path.fileName?]
  cases hlast : source.components.getLast? with
  | none => decide
  | some part =>
    cases part with
    | normal name =>
      exact (Path.isName_of_mem_components (List.mem_of_getLast? hlast)).noSlash
    | _ => decide

/-- A copy is never named like the index, whose name has only one point. -/
theorem isCopyName_candidate (source : Path) (t : Timestamp) (n : Nat) :
    IsCopyName (candidate (copyName source t) n) := by
  have hdigits : '/' ∉ (toString n).toList := fun h =>
    absurd (Text.isDigit_of_mem_toDigits (n := n) (by simpa using h)) (by decide)
  obtain ⟨back, hback, hparts⟩ : ∃ back, '/' ∉ back ∧ (candidate (copyName source t) n).toList =
      (source.fileName?.getD "file").toList ++ (".backup.".toList ++ back) := by
    rw [candidate, copyName]
    split
    · exact ⟨t.stamp.toList, noSlash_stamp t, by
        rw [String.toList_append, String.toList_append, List.append_assoc]⟩
    · refine ⟨t.stamp.toList ++ ("-".toList ++ (toString n).toList), ?_, ?_⟩
      · rw [List.mem_append, List.mem_append]
        rintro (h | h | h)
        · exact noSlash_stamp t h
        · exact absurd h (by decide)
        · exact hdigits h
      · simp only [String.toList_append, List.append_assoc]
  refine ⟨Path.isName_of_two_lt ?_ ?_, fun heq => ?_⟩
  · have hlength : ".backup.".toList.length = 8 := by decide
    rw [hparts, List.length_append, List.length_append]
    omega
  · rw [hparts, List.mem_append, List.mem_append]
    rintro (h | h | h)
    · exact noSlash_fileName source h
    · exact absurd h (by decide)
    · exact hback h
  · have hcount : ".backup.".toList.count '.' = 2 := by decide
    have hindex : "index.json".toList.count '.' = 1 := by decide
    rw [← heq, hparts, List.count_append, List.count_append] at hindex
    omega

/-! ## Free names -/

/-- Wherever a new copy goes, it goes under one of the names that are tried. -/
theorem locationFor_candidate (s : SnapshotStore) (source : Path) (t : Timestamp) (w : World) :
    ∃ n, s.locationFor source t w = s.dir ++ candidate (copyName source t) n := by
  obtain ⟨n, -, hn, -⟩ := freeName_eq w s.dir (copyName source t)
    (show 0 < 0 + (w.disk.entries.length + 1) by omega)
  exact ⟨n, hn⟩

/-- The name of a new copy is not the name of anything that is there. -/
theorem locationFor_eq {s : SnapshotStore} {base : Location} {w : World}
    (h : s.locks.Under s.dir base w) (source : Path) (t : Timestamp) :
    ∃ name, IsCopyName name ∧ s.locationFor source t w = s.dir ++ name ∧
      w.pathExists (s.dir ++ name) = false := by
  have hfuel : 0 < 0 + (w.disk.entries.length + 1) := by omega
  obtain ⟨m, -, heq, hfree⟩ := freeName_eq w s.dir (copyName source t) hfuel
  refine ⟨_, isCopyName_candidate source t m, heq, hfree.resolve_right fun hall => ?_⟩
  -- otherwise there are more entries than there are
  let taken := (List.range (w.disk.entries.length + 1)).map fun k =>
    base ++ [candidate (copyName source t) k]
  have hnodup : taken.Nodup := by
    have hinjective : Function.Injective fun k => base ++ [candidate (copyName source t) k] := by
      intro k k' hkk'
      have hnames : [candidate (copyName source t) k] = [candidate (copyName source t) k'] :=
        List.append_cancel_left hkk'
      exact candidate_injective (List.cons.inj hnames).1
    exact List.Nodup.map hinjective List.nodup_range
  have hsub : taken ⊆ w.disk.entries.map (·.1) := by
    intro l hl
    obtain ⟨k, hk, rfl⟩ := List.mem_map.mp hl
    have hthere := hall k (Nat.zero_le k) (by simpa using hk)
    rw [World.pathExists, Disk.pathExists] at hthere
    cases hstat : w.disk.stat (w.absolute (s.dir ++ candidate (copyName source t) k)) with
    | error e =>
      rw [hstat] at hthere
      cases hthere
    | ok e =>
      obtain ⟨l, hl, hat⟩ := Disk.stat_eq_ok_iff.mp hstat
      obtain ⟨rfl, -⟩ := (h.locate_name (isCopyName_candidate source t k).isName).mp hl
      exact List.mem_map_of_mem (Disk.mem_entries_of_at? (by simp) hat)
  have hle := (hnodup.subperm hsub).length_le
  simp only [taken, List.length_map, List.length_range] at hle
  omega

end SnapshotStore

end Amend
