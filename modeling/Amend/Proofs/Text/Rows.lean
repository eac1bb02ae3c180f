import Amend.Proofs.Text.Cut
import Mathlib.Order.Defs.LinearOrder
import Mathlib.Order.Nat
import Mathlib.Tactic.Common

/-!
# Rows of a text

The row of an offset counts the line feeds among the bytes before it.  At the end of a beginning of
the text it is the number of line feeds that this beginning holds, because in UTF-8 the byte of a
line feed stands for nothing else.
-/

namespace Amend.Text

/-- The bytes of a text. -/
def bytes (s : String) : List UInt8 := s.toByteArray.data.toList

@[simp] theorem bytes_append (a b : String) : bytes (a ++ b) = bytes a ++ bytes b := by
  simp [bytes]

@[simp] theorem length_bytes (s : String) : (bytes s).length = s.utf8ByteSize := rfl

theorem byte?_eq (s : String) (i : Nat) : byte? s i = (bytes s)[i]? := by
  rw [byte?]
  split
  case isTrue h =>
    have hi : i < (bytes s).length := by simpa [String.Pos.Raw.lt_iff] using h
    rw [List.getElem?_eq_getElem hi]
    rfl
  case isFalse h =>
    have hi : (bytes s).length ≤ i := by simpa [String.Pos.Raw.lt_iff] using h
    rw [List.getElem?_eq_none hi]

/-- A byte behind a beginning of the text is one of the rest. -/
theorem byte?_append (a b : String) (i : Nat) :
    byte? (a ++ b) (a.utf8ByteSize + i) = byte? b i := by
  rw [byte?_eq, byte?_eq, bytes_append, List.getElem?_append_right (by simp)]
  simp

/-! ## Counting line feeds -/

theorem ofNat_ne_lineFeed {n : Nat} (h : 128 ≤ n % 256) : UInt8.ofNat n ≠ 10 := by
  intro heq
  have hnat : n % 256 = 10 := by simpa using congrArg UInt8.toNat heq
  omega

/-- Only the character of a line feed is encoded with its byte: all bytes of a longer encoding are
at least 128. -/
theorem count_utf8EncodeChar (c : Char) :
    (String.utf8EncodeChar c).count 10 = if c = '\n' then 1 else 0 := by
  have hc : c = '\n' ↔ c.val.toNat = 10 := by
    rw [← Char.val_inj, ← UInt32.toNat_inj]
    rfl
  rw [String.utf8EncodeChar]
  simp only [hc]
  generalize c.val.toNat = v
  by_cases hone : v ≤ 0x7f
  · have hbyte : UInt8.ofNat v = 10 ↔ v = 10 := by
      rw [← UInt8.toNat_inj, UInt8.toNat_ofNat']
      change v % 256 = 10 ↔ v = 10
      omega
    rw [if_pos hone, List.count_singleton]
    simp only [beq_iff_eq, hbyte]
  · have hne : v ≠ 10 := by omega
    rw [if_neg hone, if_neg hne, List.count_eq_zero]
    intro hmem
    split at hmem
    · rcases List.mem_cons.mp hmem with h | hmem
      · exact ofNat_ne_lineFeed (by omega) h.symm
      · exact ofNat_ne_lineFeed (by omega) (List.mem_singleton.mp hmem).symm
    · split at hmem
      · simp only [List.mem_cons, List.not_mem_nil, or_false] at hmem
        rcases hmem with h | h | h <;> exact ofNat_ne_lineFeed (by omega) h.symm
      · simp only [List.mem_cons, List.not_mem_nil, or_false] at hmem
        rcases hmem with h | h | h | h <;> exact ofNat_ne_lineFeed (by omega) h.symm

theorem bytes_ofList (cs : List Char) : bytes (.ofList cs) = cs.flatMap String.utf8EncodeChar := by
  simp [bytes, List.utf8Encode]

theorem count_bytes (s : String) : (bytes s).count 10 = newlines s := by
  rw [← String.ofList_toList (s := s), bytes_ofList, newlines, String.toList_ofList]
  induction s.toList with
  | nil => rfl
  | cons c cs ih =>
    rw [List.flatMap_cons, List.count_append, count_utf8EncodeChar, ih, List.count_cons,
      Nat.add_comm]
    by_cases h : c = '\n' <;> simp [h]

@[simp] theorem newlines_append (a b : String) : newlines (a ++ b) = newlines a + newlines b := by
  simp [newlines]

theorem rowOf_eq_count (s : String) (i : Nat) : rowOf s i = ((bytes s).take i).count 10 := by
  induction i with
  | zero => rfl
  | succ i ih =>
    rw [rowOf, ih, byte?_eq, List.take_add_one, List.count_append]
    cases (bytes s)[i]? with
    | none => simp
    | some b => by_cases hb : b = 10 <;> simp [hb]

/-- The row at the end of a beginning of the text. -/
@[simp] theorem rowOf_append (a b : String) : rowOf (a ++ b) a.utf8ByteSize = newlines a := by
  rw [rowOf_eq_count, bytes_append, List.take_append_of_le_length (by simp),
    List.take_of_length_le (by simp), count_bytes]

theorem rowOf_mono (s : String) {i j : Nat} (h : i ≤ j) : rowOf s i ≤ rowOf s j := by
  induction j, h using Nat.le_induction with
  | base => exact le_rfl
  | succ j hij ih => exact ih.trans (Nat.le_add_right _ _)

theorem rowOf_le (s : String) (i : Nat) : rowOf s i ≤ i := by
  rw [rowOf_eq_count]
  exact List.count_le_length.trans (List.length_take_le i (bytes s))

/-! ## Starts of lines -/

theorem lineStart_le (s : String) (i : Nat) : lineStart s i ≤ i := by
  induction i with
  | zero => exact le_rfl
  | succ i ih =>
    rw [lineStart]
    split
    · exact le_rfl
    · omega

/-- What follows a line feed begins a line. -/
theorem lineStart_of_getLast? {above : String} (rest : String)
    (h : above.toList.getLast? = some '\n') :
    lineStart (above ++ rest) above.utf8ByteSize = above.utf8ByteSize := by
  obtain ⟨cs, hcs⟩ := List.getLast?_eq_some_iff.mp h
  have habove : above = .ofList cs ++ "\n" := by
    rw [← String.toList_inj, hcs, String.toList_append, String.toList_ofList]
    rfl
  have hbyte : byte? (above ++ rest) (String.ofList cs).utf8ByteSize = some 10 := by
    rw [habove, String.append_assoc]
    exact byte?_append (.ofList cs) ("\n" ++ rest) 0
  have hsize : above.utf8ByteSize = (String.ofList cs).utf8ByteSize + 1 := by
    rw [habove, String.utf8ByteSize_append]
    rfl
  rw [hsize, lineStart, if_pos hbyte]

/-- Between the start of its line and an offset there is no line feed. -/
theorem lineStart_eq_of_le (s : String) {i j : Nat} (hi : lineStart s j ≤ i) (hj : i ≤ j) :
    lineStart s i = lineStart s j ∧ rowOf s i = rowOf s j := by
  induction j with
  | zero =>
    have hzero : i = 0 := by omega
    subst hzero
    exact ⟨rfl, rfl⟩
  | succ j ih =>
    rcases Nat.lt_or_ge j i with hlt | hle
    · have heq : i = j + 1 := by omega
      subst heq
      exact ⟨rfl, rfl⟩
    · have hbyte : byte? s j ≠ some 10 := by
        intro hb
        rw [lineStart, if_pos hb] at hi
        omega
      rw [lineStart, if_neg hbyte] at hi ⊢
      rw [rowOf, if_neg hbyte, Nat.add_zero]
      exact ih hi hle

/-- An offset ahead of the start of a line is in an earlier row. -/
theorem rowOf_lt_of_lt_lineStart (s : String) {i j : Nat} (h : i < lineStart s j) :
    rowOf s i < rowOf s j := by
  induction j with
  | zero => exact (Nat.not_lt_zero i h).elim
  | succ j ih =>
    rw [lineStart] at h
    rw [rowOf]
    split at h
    case isTrue hb =>
      have hle : rowOf s i ≤ rowOf s j := rowOf_mono s (by omega)
      rw [if_pos hb]
      omega
    case isFalse hb => exact Nat.lt_of_lt_of_le (ih h) (Nat.le_add_right _ _)

/-- A text is whole lines and a beginning of a line. -/
theorem exists_lines_append (s : String) : ∃ above line : String,
    s = above ++ line ∧ '\n' ∉ line.toList ∧
      (above = "" ∨ above.toList.getLast? = some '\n') := by
  by_cases hmem : '\n' ∈ s.toList
  · -- Read backwards, the first line feed is the last one of the text.
    obtain ⟨line, above, hsplit, hno⟩ :=
      List.eq_append_cons_of_mem (List.mem_reverse.mpr hmem)
    refine ⟨.ofList (above.reverse ++ ['\n']), .ofList line.reverse, ?_, ?_, .inr ?_⟩
    · rw [← String.toList_inj, ← List.reverse_inj, hsplit]
      simp
    · simpa using hno
    · simp
  · exact ⟨"", s, by simp, hmem, .inl rfl⟩

/-- What stands in front of an offset is whole lines and the beginning of its line. -/
theorem exists_lineStart_append (before after : String) : ∃ above line : String,
    before = above ++ line ∧ lineStart (before ++ after) before.utf8ByteSize = above.utf8ByteSize ∧
      (above = "" ∨ above.toList.getLast? = some '\n') := by
  obtain ⟨above, line, rfl, hno, habove⟩ := exists_lines_append before
  refine ⟨above, line, rfl, ?_, habove⟩
  have hself : lineStart (above ++ line ++ after) above.utf8ByteSize = above.utf8ByteSize := by
    rw [String.append_assoc]
    rcases habove with rfl | hlast
    · rfl
    · exact lineStart_of_getLast? _ hlast
  have hrow : rowOf (above ++ line ++ after) above.utf8ByteSize =
      rowOf (above ++ line ++ after) (above ++ line).utf8ByteSize := by
    have hline : newlines line = 0 := List.count_eq_zero.mpr hno
    rw [rowOf_append, newlines_append, hline, String.append_assoc, rowOf_append, Nat.add_zero]
  have hle : lineStart (above ++ line ++ after) (above ++ line).utf8ByteSize ≤
      above.utf8ByteSize := by
    by_contra hlt
    exact absurd hrow (rowOf_lt_of_lt_lineStart _ (Nat.lt_of_not_le hlt)).ne
  rw [← (lineStart_eq_of_le _ hle (by simp)).1, hself]

/-- The start of the line of a boundary is a boundary. -/
theorem isBoundary_lineStart {s : String} {i : Nat} (h : isBoundary s i = true) :
    isBoundary s (lineStart s i) = true := by
  obtain ⟨before, after, rfl, rfl⟩ := isBoundary_iff.mp h
  obtain ⟨above, line, rfl, hstart, -⟩ := exists_lineStart_append before after
  rw [hstart, String.append_assoc]
  exact isBoundary_append above _

end Amend.Text
