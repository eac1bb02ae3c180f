import Amend.Timestamp
import Amend.Proofs.Text.Numeral
import Mathlib

/-!
# Written times are read back

The fields of a reading of the clock are written with fixed numbers of digits, and the fraction of
a second with as many groups of three as it needs.
-/

namespace Amend.Timestamp

/-- What a clock can show: a day of the calendar and a time of day, in a year of four digits, with
less than a second behind it. -/
structure IsReading (t : Timestamp) : Prop where
  valid : t.isValid = true
  year : t.year < 10000
  nano : t.nano < 1000000000

/-! ## Numbers of fixed width -/

theorem toList_padded (width n : Nat) :
    (padded width n).toList =
      List.replicate (width - (Nat.toDigits 10 n).length) '0' ++ Nat.toDigits 10 n := by
  simp [padded, String.length]

theorem isDigit_of_mem_padded {width n : Nat} {c : Char} (h : c ∈ (padded width n).toList) :
    Text.IsDigit c := by
  rw [toList_padded] at h
  rcases List.mem_append.mp h with h | h
  · rw [(List.mem_replicate.mp h).2]
    decide
  · exact Text.isDigit_of_mem_toDigits h

theorem length_padded {width n : Nat} (hwidth : 0 < width) (h : n < 10 ^ width) :
    (padded width n).toList.length = width := by
  have hle := (Nat.length_toDigits_le_iff (n := n) (b := 10) (by decide) hwidth).mpr h
  rw [toList_padded, List.length_append, List.length_replicate]
  omega

theorem foldl_padded (width n : Nat) :
    (padded width n).toList.foldl (fun m c => 10 * m + (c.toNat - 48)) 0 = n := by
  rw [toList_padded, Text.foldl_replicate_zero, Text.foldl_toDigits]

/-- Digits in the right number are read as their value. -/
theorem number?_append {ds : List Char} (hds : ∀ c ∈ ds, Text.IsDigit c) (rest : List Char) :
    number? ds.length (ds ++ rest) =
      some (ds.foldl (fun m c => 10 * m + (c.toNat - 48)) 0, rest) := by
  have hall : (ds.all fun c => '0' ≤ c && c ≤ '9') = true := List.all_eq_true.mpr hds
  simp [number?, hall]

theorem number?_padded {width n : Nat} (hwidth : 0 < width) (h : n < 10 ^ width)
    (rest : List Char) : number? width ((padded width n).toList ++ rest) = some (n, rest) := by
  have hdigits : ∀ c ∈ (padded width n).toList, Text.IsDigit c := fun c => isDigit_of_mem_padded
  have hread := number?_append hdigits rest
  rwa [length_padded hwidth h, foldl_padded] at hread

/-! ## The fraction -/

/-- A fraction of `width` digits counts in units of the matching power of ten. -/
theorem nanos?_padded {width n : Nat} (hwidth : 0 < width) (hnine : width ≤ 9)
    (h : n < 10 ^ width) :
    nanos? ('.' :: ((padded width n).toList ++ ['Z'])) = some (10 ^ (9 - width) * n, ['Z']) := by
  have hlength := length_padded hwidth h
  have hvalue := foldl_padded width n
  have hdigits : ∀ c ∈ (padded width n).toList, Text.IsDigit c := fun c hc =>
    isDigit_of_mem_padded hc
  generalize (padded width n).toList = ds at hlength hvalue hdigits
  have htake : (ds ++ ['Z']).takeWhile (fun c => '0' ≤ c && c ≤ '9') = ds := by
    rw [List.takeWhile_append_of_pos hdigits]
    exact List.append_nil ds
  have hdrop : (ds ++ ['Z']).dropWhile (fun c => '0' ≤ c && c ≤ '9') = ['Z'] := by
    rw [List.dropWhile_append_of_pos hdigits]
    rfl
  have hne : ds.isEmpty = false := by
    cases ds with
    | nil => simp at hlength; omega
    | cons d ds => rfl
  have hnine' : (ds.take 9 ++ List.replicate (9 - ds.length) '0').length = 9 := by
    rw [List.length_append, List.length_take, List.length_replicate]
    omega
  have hall : ∀ c ∈ ds.take 9 ++ List.replicate (9 - ds.length) '0', Text.IsDigit c := by
    intro c hc
    rcases List.mem_append.mp hc with hc | hc
    · exact hdigits c (List.mem_of_mem_take hc)
    · rw [(List.mem_replicate.mp hc).2]
      decide
  have hread := number?_append hall []
  rw [hnine', List.append_nil, List.take_of_length_le (by omega), List.foldl_append, hvalue,
    hlength] at hread
  have hzeros : (List.replicate (9 - width) '0').foldl (fun m c => 10 * m + (c.toNat - 48)) n =
      10 ^ (9 - width) * n := Nat.ofDigitChars_replicate_zero
  rw [hzeros] at hread
  simp only [nanos?, htake, hdrop, hne]
  rw [List.take_of_length_le (by omega), hlength]
  simp [hread]

theorem nanos?_fraction {nano : Nat} (h : nano < 1000000000) :
    nanos? ((fraction nano).toList ++ ['Z']) = some (nano, ['Z']) := by
  have hpoint (width n : Nat) : ("." ++ padded width n).toList ++ ['Z'] =
      '.' :: ((padded width n).toList ++ ['Z']) := by
    rw [String.toList_append]
    rfl
  rw [fraction]
  split
  · rename_i hzero
    rw [hzero]
    rfl
  · split
    · rename_i hmillis
      rw [hpoint, nanos?_padded (by decide) (by decide) (by omega)]
      have : 10 ^ (9 - 3) * (nano / 1000000) = nano := by omega
      rw [this]
    · split
      · rename_i hmicros
        rw [hpoint, nanos?_padded (by decide) (by decide) (by omega)]
        have : 10 ^ (9 - 6) * (nano / 1000) = nano := by omega
        rw [this]
      · rw [hpoint, nanos?_padded (by decide) (by decide) (by omega)]
        simp

/-- The fields of a reading other than the year have at most two digits. -/
theorem IsReading.lt_hundred {t : Timestamp} (h : t.IsReading) :
    t.month < 10 ^ 2 ∧ t.day < 10 ^ 2 ∧ t.hour < 10 ^ 2 ∧ t.minute < 10 ^ 2 ∧
      t.second < 10 ^ 2 := by
  have hvalid := h.valid
  have hdays : monthDays t.year t.month ≤ 31 := by
    rw [monthDays]
    split <;> split <;> omega
  simp only [isValid, Bool.and_eq_true, decide_eq_true_eq] at hvalid
  omega

theorem toList_render (t : Timestamp) :
    t.render.toList = (padded 4 t.year).toList ++ '-' :: ((padded 2 t.month).toList ++
      '-' :: ((padded 2 t.day).toList ++ 'T' :: ((padded 2 t.hour).toList ++ ':' ::
        ((padded 2 t.minute).toList ++ ':' :: ((padded 2 t.second).toList ++
          ((fraction t.nano).toList ++ ['Z'])))))) := by
  simp [render]

theorem number?_bind {β : Type} {width n : Nat} (hwidth : 0 < width) (hn : n < 10 ^ width)
    (rest : List Char) (f : Nat × List Char → Option β) :
    (number? width ((padded width n).toList ++ rest) >>= f) = f (n, rest) := by
  rw [number?_padded hwidth hn, Option.bind_eq_bind, Option.bind_some]

/-- A number behind a mark is read. -/
theorem mark?_bind_number? {β : Type} {marks : List Char} {c : Char} {width n : Nat}
    (hc : marks.contains c = true) (hwidth : 0 < width) (hn : n < 10 ^ width) (rest : List Char)
    (f : Nat × List Char → Option β) :
    (mark? marks (c :: ((padded width n).toList ++ rest)) >>= fun cs => number? width cs >>= f) =
      f (n, rest) := by
  rw [mark?, if_pos hc]
  exact number?_bind hwidth hn rest f

/-- A written reading is read back. -/
theorem ofText?_render {t : Timestamp} (h : t.IsReading) : ofText? t.render = some t := by
  have hwidth : 0 < 2 := Nat.two_pos
  obtain ⟨hmonth, hday, hhour, hminute, hsecond⟩ := h.lt_hundred
  rw [ofText?, toList_render, number?_bind (by decide : 0 < 4) h.year]
  dsimp only
  rw [mark?_bind_number? rfl hwidth hmonth]
  dsimp only
  rw [mark?_bind_number? rfl hwidth hday]
  dsimp only
  rw [mark?_bind_number? rfl hwidth hhour]
  dsimp only
  rw [mark?_bind_number? rfl hwidth hminute]
  dsimp only
  rw [mark?_bind_number? rfl hwidth hsecond, nanos?_fraction h.nano]
  simp [zone?, h.valid]

end Amend.Timestamp
