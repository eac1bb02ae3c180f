import Amend.Text.Lines
import Mathlib.Tactic.Common

/-!
# Cutting a text in pieces

Boundaries, slices and replacements are described by the pieces that a text is made of: an offset is
a boundary exactly when it is the size of a beginning of the text, and a slice is the middle one of
three pieces.  The bytes of a text are the bytes of its pieces, one piece after the other.
-/

namespace Amend.Text

/-- A boundary is the size of a beginning of the text. -/
theorem isBoundary_iff {s : String} {i : Nat} :
    isBoundary s i = true ↔ ∃ a b : String, s = a ++ b ∧ a.utf8ByteSize = i := by
  rw [isBoundary, String.Pos.Raw.isValid_eq_true_iff, String.Pos.Raw.isValid_iff_exists_append]
  constructor
  · rintro ⟨a, b, hs, hi⟩
    exact ⟨a, b, hs, by simpa using (congrArg String.Pos.Raw.byteIdx hi).symm⟩
  · rintro ⟨a, b, hs, hi⟩
    exact ⟨a, b, hs, String.Pos.Raw.ext (by simpa using hi.symm)⟩

theorem isBoundary_append (a b : String) : isBoundary (a ++ b) a.utf8ByteSize = true :=
  isBoundary_iff.mpr ⟨a, b, rfl, rfl⟩

theorem isBoundary_zero (s : String) : isBoundary s 0 = true := by
  simpa using isBoundary_append "" s

theorem isBoundary_size (s : String) : isBoundary s s.utf8ByteSize = true := by
  simpa using isBoundary_append s ""

theorem le_of_isBoundary {s : String} {i : Nat} (h : isBoundary s i = true) :
    i ≤ s.utf8ByteSize := by
  obtain ⟨a, b, rfl, rfl⟩ := isBoundary_iff.mp h
  simp

/-- Two ways of cutting one text in two at the same offset are the same. -/
theorem append_inj_of_size_eq {a b c d : String}
    (h : a ++ b = c ++ d) (hsize : a.utf8ByteSize = c.utf8ByteSize) : a = c ∧ b = d := by
  have hbytes : a.toByteArray ++ b.toByteArray = c.toByteArray ++ d.toByteArray := by
    simpa using congrArg String.toByteArray h
  have ha : a = c :=
    String.toByteArray_inj.mp (ByteArray.append_inj_left hbytes hsize)
  subst ha
  exact ⟨rfl, String.append_right_inj a |>.mp h⟩

/-- A boundary at or behind the end of a beginning cuts what follows that beginning. -/
theorem exists_append_of_isBoundary {a b : String} {i : Nat}
    (h : isBoundary (a ++ b) i = true) (hi : a.utf8ByteSize ≤ i) :
    ∃ m c : String, b = m ++ c ∧ a.utf8ByteSize + m.utf8ByteSize = i := by
  rw [isBoundary, String.Pos.Raw.isValid_eq_true_iff, String.Pos.Raw.isValid_append] at h
  have hcut : isBoundary b (i - a.utf8ByteSize) = true := by
    rcases h with h | ⟨-, h⟩
    · have hle : i ≤ a.utf8ByteSize := by
        simpa [String.Pos.Raw.le_iff] using h.le_rawEndPos
      have hzero : i - a.utf8ByteSize = 0 := by omega
      rw [hzero]
      exact isBoundary_iff.mpr ⟨"", b, by simp, rfl⟩
    · rw [isBoundary, String.Pos.Raw.isValid_eq_true_iff]
      exact h
  obtain ⟨m, c, hb, hm⟩ := isBoundary_iff.mp hcut
  exact ⟨m, c, hb, by omega⟩

theorem extract_middle (a b c : String) :
    (a.toByteArray ++ b.toByteArray ++ c.toByteArray).extract a.utf8ByteSize
      (a.utf8ByteSize + b.utf8ByteSize) = b.toByteArray := by
  have hskip := ByteArray.extract_append_size_add' (a := a.toByteArray)
    (b := b.toByteArray ++ c.toByteArray) (i := 0) (j := b.utf8ByteSize)
    (k := a.utf8ByteSize) (by simp)
  rw [Nat.add_zero] at hskip
  rw [ByteArray.append_assoc, hskip]
  exact ByteArray.extract_append_eq_left (by simp)

/-- A slice is the middle one of three pieces. -/
@[simp] theorem slice?_append (a b c : String) :
    slice? (a ++ b ++ c) a.utf8ByteSize (a.utf8ByteSize + b.utf8ByteSize) = some b := by
  have hstart : isBoundary (a ++ b ++ c) a.utf8ByteSize = true := by
    rw [String.append_assoc]
    exact isBoundary_append a (b ++ c)
  have hstop : isBoundary (a ++ b ++ c) (a.utf8ByteSize + b.utf8ByteSize) = true := by
    simpa using isBoundary_append (a ++ b) c
  rw [slice?, dif_pos ⟨Nat.le_add_right _ _, hstart, hstop⟩]
  congr 1
  apply String.toByteArray_inj.mp
  simpa using extract_middle a b c

theorem slice?_eq_some_iff {s t : String} {i j : Nat} :
    slice? s i j = some t ↔
      ∃ a c : String, s = a ++ t ++ c ∧ a.utf8ByteSize = i ∧ i + t.utf8ByteSize = j := by
  constructor
  · intro h
    have hcond : i ≤ j ∧ isBoundary s i = true ∧ isBoundary s j = true := by
      by_contra hno
      rw [slice?, dif_neg hno] at h
      cases h
    obtain ⟨hij, hi, hj⟩ := hcond
    obtain ⟨a, b, rfl, ha⟩ := isBoundary_iff.mp hi
    obtain ⟨m, c, rfl, hm⟩ := exists_append_of_isBoundary hj (by omega)
    have hslice : slice? (a ++ (m ++ c)) i j = some m := by
      rw [← String.append_assoc, ← ha, ← hm]
      exact slice?_append a m c
    rw [hslice] at h
    cases h
    exact ⟨a, c, by rw [String.append_assoc], ha, by omega⟩
  · rintro ⟨a, c, rfl, rfl, rfl⟩
    exact slice?_append a t c

@[simp] theorem sliceD_append (a b c : String) :
    sliceD (a ++ b ++ c) a.utf8ByteSize (a.utf8ByteSize + b.utf8ByteSize) = b := by
  rw [sliceD, slice?_append, Option.getD_some]

/-- What follows a beginning of a text. -/
theorem sliceD_rest (a b : String) :
    sliceD (a ++ b) a.utf8ByteSize (a ++ b).utf8ByteSize = b := by
  simpa using sliceD_append a b ""

@[simp] theorem sliceD_self (s : String) (i : Nat) : sliceD s i i = "" := by
  rw [sliceD]
  cases h : slice? s i i with
  | none => rfl
  | some t =>
    obtain ⟨-, -, -, -, hsize⟩ := slice?_eq_some_iff.mp h
    rw [Option.getD_some]
    exact String.utf8ByteSize_eq_zero_iff.mp (by omega)

theorem utf8ByteSize_sliceD {s : String} {i j : Nat} (hij : i ≤ j) (hi : isBoundary s i = true)
    (hj : isBoundary s j = true) : (sliceD s i j).utf8ByteSize = j - i := by
  obtain ⟨a, b, rfl, rfl⟩ := isBoundary_iff.mp hi
  obtain ⟨m, c, rfl, rfl⟩ := exists_append_of_isBoundary hj hij
  rw [← String.append_assoc, sliceD_append]
  omega

theorem sliceD_whole (s : String) : sliceD s 0 s.utf8ByteSize = s := by
  simpa using sliceD_append "" s ""

/-- Slices that meet at a boundary make up one slice. -/
theorem sliceD_append_sliceD {s : String} {i j k : Nat} (hij : i ≤ j) (hjk : j ≤ k)
    (hi : isBoundary s i = true) (hj : isBoundary s j = true) (hk : isBoundary s k = true) :
    sliceD s i j ++ sliceD s j k = sliceD s i k := by
  obtain ⟨a, b, rfl, rfl⟩ := isBoundary_iff.mp hi
  obtain ⟨m, c, rfl, rfl⟩ := exists_append_of_isBoundary hj hij
  rw [← String.append_assoc] at hk
  rw [← String.utf8ByteSize_append] at hjk
  obtain ⟨n, d, rfl, rfl⟩ := exists_append_of_isBoundary hk hjk
  have hleft := sliceD_append a m (n ++ d)
  have hright := sliceD_append (a ++ m) n d
  have hwhole := sliceD_append a (m ++ n) d
  simp only [String.append_assoc, String.utf8ByteSize_append, Nat.add_assoc]
    at hleft hright hwhole ⊢
  rw [hleft, hright, hwhole]

/-- A replacement changes the middle one of three pieces. -/
theorem splice?_append (a b c r : String) :
    splice? (a ++ b ++ c) a.utf8ByteSize (a.utf8ByteSize + b.utf8ByteSize) r =
      some (a ++ r ++ c) := by
  have hbefore : upTo? (a ++ b ++ c) a.utf8ByteSize = some a :=
    slice?_eq_some_iff.mpr ⟨"", b ++ c, by simp [String.append_assoc], rfl, by simp⟩
  have hafter : from? (a ++ b ++ c) (a.utf8ByteSize + b.utf8ByteSize) = some c :=
    slice?_eq_some_iff.mpr ⟨a ++ b, "", by simp, by simp, by simp⟩
  simp [splice?, hbefore, hafter]

end Amend.Text
