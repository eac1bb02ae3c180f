import Amend.Defect
import Amend.Edit

/-!
# Line numbers through earlier edits

Records give line numbers of a file as it was before any edit. A line map keeps, for each file,
the line movements of the edits made so far, and carries a line of the first state of the file to
the state it is in now.
-/

namespace Amend

/-- For each file, by its identity, the batches of line movements of its edits, oldest first. Each
batch is in the numbering of the file just before its edit. -/
structure LineMap where
  batches : List (Path × List LineShift) := []

namespace LineMap

/-- The map of files that were never edited. -/
def empty : LineMap := {}

/-- Adds the movements of one edit of a file. -/
def record (m : LineMap) (file : Path) (shifts : List LineShift) : LineMap :=
  if shifts.isEmpty then m else ⟨m.batches ++ [(file, shifts)]⟩

/-- The batches of one file, oldest first. -/
def batchesOf (m : LineMap) (file : Path) : List (List LineShift) :=
  (m.batches.filter (·.1 = file)).map (·.2)

/-- How far one batch moves a line. -/
def batchDelta (batch : List LineShift) (line : Nat) : Int :=
  ((batch.filter fun s => line > s.afterLine).map (·.delta)).foldr (· + ·) 0

/-- The line after one batch, never below 1. Line numbers are 64-bit words, and one past the
greatest signed word counts as negative. -/
def remapBatch (line : Nat) (batch : List LineShift) : Nat :=
  (max (MachineWord.wrapSigned (line + batchDelta batch line)) 1).toNat

/-- The current number of a line of the file's first state. -/
def remap (m : LineMap) (file : Path) (line : Nat) : Nat :=
  (m.batchesOf file).foldl remapBatch line

/-- The record with its lines carried to the current state of its file, whose identity is given;
the last line stays at or after the first. -/
def remapDefect (m : LineMap) (file : Path) (d : Defect) : Defect :=
  let startLine := m.remap file d.startLine
  { d with startLine, endLine := d.endLine.map fun e => max (m.remap file e) startLine }

end LineMap

end Amend
