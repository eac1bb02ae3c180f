import Amend.Proofs.LineMap

/-!
# Lines at the ends of their range

A line number is any word, but a line map adds movements to it as to a signed word, and no batch
gives a line ahead of the first.  Where signed words hold the exact number after every batch, that
number is what the map gives, and a line from 1 on that no movement applies to stays where it is.

The ends of the range fare differently.  Once a file has been edited, all its lines are taken to lie
between 1 and the greatest signed word: line 0 becomes line 1, and so does every line that a signed
word does not hold, whether a movement applies to it or not.  In a file that was never edited they
all stay.
-/

namespace Amend.LineMap

variable {m : LineMap} {file : Path} {line : Nat} {batch : List LineShift}
  {batches : List (List LineShift)}

/-! ## One batch -/

/-- The number of a line after one batch, in whole numbers. -/
def exactBatch (line : Nat) (batch : List LineShift) : Nat :=
  (max (line + batchDelta batch line) 1).toNat

/-- No movement of a batch applies to a line. -/
def Skips (batch : List LineShift) (line : Nat) : Prop := ∀ s ∈ batch, line ≤ s.afterLine

theorem batchDelta_of_skips (h : Skips batch line) : batchDelta batch line = 0 := by
  have hnone : batch.filter (fun s => line > s.afterLine) = [] := by
    rw [List.filter_eq_nil_iff]
    intro s hs
    have := h s hs
    simpa using this
  rw [batchDelta, hnone]
  rfl

/-- A batch gives a line from 1 on that a signed word holds, whatever line it is given. -/
theorem remapBatch_range (line : Nat) (batch : List LineShift) :
    1 ≤ remapBatch line batch ∧ remapBatch line batch < signedRange := by
  have hlt : MachineWord.wrapSigned (line + batchDelta batch line) < (signedRange : Int) :=
    Int.bmod_lt (by decide)
  have hrange : (signedRange : Int) = 0x8000000000000000 := rfl
  rw [remapBatch]
  omega

/-- A batch gives the exact number just where a signed word holds it. -/
theorem remapBatch_eq_exactBatch_iff (hlow : -(signedRange : Int) ≤ line + batchDelta batch line) :
    remapBatch line batch = exactBatch line batch ↔
      line + batchDelta batch line < (signedRange : Int) := by
  constructor
  · intro h
    have hlt := (remapBatch_range line batch).2
    rw [h, exactBatch] at hlt
    omega
  · intro hhigh
    have hmoved := remapBatch_of_signed hlow hhigh
    rw [exactBatch]
    omega

/-- A number that is a word but no signed one becomes 1. -/
theorem remapBatch_of_beyond (hbeyond : (signedRange : Int) ≤ line + batchDelta batch line)
    (hword : line + batchDelta batch line < (MachineWord.card : Int)) :
    remapBatch line batch = 1 := by
  have hrange : (signedRange : Int) = 0x8000000000000000 := rfl
  have hcard : (MachineWord.card : Int) = 0x10000000000000000 := rfl
  have hnegative : MachineWord.wrapSigned (line + batchDelta batch line) =
      line + batchDelta batch line - MachineWord.card := by
    rw [MachineWord.wrapSigned, ← Int.sub_bmod_right]
    apply Int.bmod_eq_of_le_mul_two <;> simp only [MachineWord.card] <;> omega
  rw [remapBatch, hnegative]
  omega

/-! ## All batches -/

/-- Signed words hold the exact number of the line after each of the batches. -/
inductive Held : List (List LineShift) → Nat → Prop
  | nil (line : Nat) : Held [] line
  | cons {line : Nat} {batch : List LineShift} {rest : List (List LineShift)}
    (hlow : -(signedRange : Int) ≤ line + batchDelta batch line)
    (hhigh : line + batchDelta batch line < (signedRange : Int))
    (hrest : Held rest (exactBatch line batch)) : Held (batch :: rest) line

/-- Where signed words hold them, the map gives the exact numbers. -/
theorem remap_eq_exact (h : Held (m.batchesOf file) line) :
    m.remap file line = (m.batchesOf file).foldl exactBatch line := by
  rw [remap]
  generalize m.batchesOf file = batches at h
  induction h with
  | nil line => rfl
  | @cons line batch rest hlow hhigh _ ih =>
    rw [List.foldl_cons, List.foldl_cons, (remapBatch_eq_exactBatch_iff hlow).mpr hhigh, ih]

theorem foldl_remapBatch_of_skips (hfirst : 1 ≤ line) (hlast : line < signedRange)
    (hskips : ∀ batch ∈ batches, Skips batch line) : batches.foldl remapBatch line = line := by
  induction batches with
  | nil => rfl
  | cons batch rest ih =>
    have hdelta := batchDelta_of_skips (hskips batch List.mem_cons_self)
    have hhere : remapBatch line batch = line :=
      remapBatch_eq (by rw [hdelta, Int.add_zero]) hfirst hlast
    rw [List.foldl_cons, hhere]
    exact ih fun later hlater => hskips later (List.mem_cons_of_mem batch hlater)

/-- The lines of an edited file lie between 1 and the greatest signed word. -/
theorem remap_range (hedited : m.batchesOf file ≠ []) (line : Nat) :
    1 ≤ m.remap file line ∧ m.remap file line < signedRange := by
  obtain ⟨past, last, hsplit⟩ := (List.eq_nil_or_concat _).resolve_left hedited
  rw [remap, hsplit, List.concat_eq_append, List.foldl_append]
  exact remapBatch_range _ last

/-- In an edited file, a line that no movement applies to stays where it is just if it lies between
1 and the greatest signed word. -/
theorem remap_eq_self_iff (hedited : m.batchesOf file ≠ [])
    (hskips : ∀ batch ∈ m.batchesOf file, Skips batch line) :
    m.remap file line = line ↔ 1 ≤ line ∧ line < signedRange := by
  constructor
  · intro h
    have hrange := remap_range hedited line
    rwa [h] at hrange
  · rintro ⟨hfirst, hlast⟩
    exact foldl_remapBatch_of_skips hfirst hlast hskips

/-- In an edited file, a line that no movement applies to and no signed word holds becomes the
first. -/
theorem remap_of_beyond (hedited : m.batchesOf file ≠ [])
    (hskips : ∀ batch ∈ m.batchesOf file, Skips batch line) (hbeyond : signedRange ≤ line)
    (hword : line < MachineWord.card) : m.remap file line = 1 := by
  have hpos : 1 < signedRange := by decide
  rw [remap]
  cases hbatches : m.batchesOf file with
  | nil => exact absurd hbatches hedited
  | cons batch rest =>
    rw [hbatches] at hskips
    have hdelta := batchDelta_of_skips (hskips batch List.mem_cons_self)
    have hhere : remapBatch line batch = 1 := by
      apply remapBatch_of_beyond <;> rw [hdelta] <;> omega
    rw [List.foldl_cons, hhere]
    refine foldl_remapBatch_of_skips le_rfl hpos fun later hlater s hs => ?_
    have := hskips later (List.mem_cons_of_mem batch hlater) s hs
    omega

/-- Two lines are inserted after the third.  Lines 2 and 5 are carried along exactly; line 0, the
first line that no signed word holds and one of the last words all become line 1. -/
theorem ends_become_first_line :
    [0, 2, 5, 0x8000000000000000, 0xFFFFFFFFFFFFFFFD].map
      ((empty.record ⟨"/p/A.java"⟩ [⟨3, 2⟩]).remap ⟨"/p/A.java"⟩) = [1, 2, 7, 1, 1] := by
  decide +kernel

/-! ## Records -/

/-- A record stays as it is if its lines lie in order between 1 and the greatest signed word and no
movement applies to them. -/
theorem remapDefect_of_skips {d : Defect} (hfirst : 1 ≤ d.startLine)
    (hordered : ∀ e ∈ d.endLine, d.startLine ≤ e) (hlast : d.lastLine < signedRange)
    (hskips : ∀ batch ∈ m.batchesOf file, Skips batch d.lastLine) : m.remapDefect file d = d := by
  have hstays {line : Nat} (hstart : d.startLine ≤ line) (hstop : line ≤ d.lastLine) :
      m.remap file line = line := by
    refine foldl_remapBatch_of_skips (hfirst.trans hstart) (Nat.lt_of_le_of_lt hstop hlast) ?_
    exact fun batch hbatch s hs => hstop.trans (hskips batch hbatch s hs)
  have hstart : m.remap file d.startLine = d.startLine := hstays le_rfl (Nat.le_max_right _ _)
  have hend : d.endLine.map (fun e => max (m.remap file e) d.startLine) = d.endLine := by
    cases hgiven : d.endLine with
    | none => rfl
    | some e =>
      have hle : d.startLine ≤ e := hordered e hgiven
      have hstop : e ≤ d.lastLine := by
        rw [Defect.lastLine, hgiven]
        exact Nat.le_max_left e _
      rw [Option.map_some, hstays hle hstop, Nat.max_eq_left hle]
  rw [remapDefect, hstart, hend]

/-- A record of a line that no signed word holds is carried to the first line. -/
theorem remapDefect_of_beyond {d : Defect} (hedited : m.batchesOf file ≠ [])
    (hskips : ∀ batch ∈ m.batchesOf file, Skips batch d.startLine)
    (hbeyond : signedRange ≤ d.startLine) (hword : d.startLine < MachineWord.card) :
    (m.remapDefect file d).startLine = 1 :=
  remap_of_beyond hedited hskips hbeyond hword

end Amend.LineMap
