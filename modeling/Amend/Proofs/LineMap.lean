import Amend.LineMap
import Amend.Proofs.EditSet
import Amend.Proofs.Text.Rows
import Mathlib.Algebra.BigOperators.Group.List.Basic
import Mathlib.Algebra.GroupWithZero.Nat
import Mathlib.Algebra.Ring.Int.Defs
import Mathlib.Data.List.Induction
import Mathlib.Data.List.Infix

/-!
# Line numbers follow surviving bytes

A line map knows of every edit only behind which line it moves lines and by how many.  This module
compares that with the byte that began a line before the first set of edits: each set that leaves
the byte moves it by what the edits ahead of it insert and remove, and its row by the line feeds
among that.  The map agrees as long as the edits of one set that end inside the byte's own line,
ahead of it, leave the number of lines alone.  At the start of a line there are no such edits, so
the first set always agrees; a set that joins the line to the one above it makes room for them.
-/

namespace Amend

namespace Text

/-- Of two ways of cutting one text in two, the longer beginning starts with the shorter one. -/
theorem exists_append_of_size_le {a b c d : String} (h : a ++ b = c ++ d)
    (hle : a.utf8ByteSize ≤ c.utf8ByteSize) : ∃ m, c = a ++ m ∧ b = m ++ d := by
  have hcut : isBoundary (a ++ b) c.utf8ByteSize = true := by
    rw [h]
    exact isBoundary_append c d
  obtain ⟨m, d', rfl, hm⟩ := exists_append_of_isBoundary hcut hle
  rw [← String.append_assoc] at h
  obtain ⟨hc, rfl⟩ := append_inj_of_size_eq h (by rw [String.utf8ByteSize_append, hm])
  exact ⟨m, hc.symm, rfl⟩

end Text

namespace EditSet

open TextEdit

/-! ## What one set does to an offset -/

/-- Where an offset is after the edits: moved by what those that end at or before it insert and
remove. -/
def movedOffset (set : EditSet) (offset : Nat) : Nat :=
  let ahead := set.edits.filter (·.stop ≤ offset)
  offset + (ahead.map (·.replacement.utf8ByteSize)).sum - (ahead.map fun e => e.stop - e.start).sum

/-- Whether some edit removes the byte at an offset. -/
def removes (set : EditSet) (offset : Nat) : Bool :=
  set.edits.any fun e => e.start ≤ offset && offset < e.stop

/-- By how many lines an edit makes its source longer. -/
def lineDelta (source : String) (e : TextEdit) : Int :=
  (Text.newlines e.replacement : Int) - Text.newlines (Text.sliceD source e.start e.stop)

/-- By how many lines the edits that end inside the line of an offset, ahead of the offset, make
the source longer. -/
def growthInLine (source : String) (offset : Nat) (edits : List TextEdit) : Int :=
  ((edits.filter fun e => Text.lineStart source offset < e.stop && e.stop ≤ offset).map
    (lineDelta source)).sum

namespace Rewrites

variable {start : Nat} {a y z out : String} {edits : List TextEdit}

theorem start_le (h : Rewrites start z edits out) :
    ∀ e ∈ edits, start ≤ e.start ∧ e.start ≤ e.stop := by
  induction h with
  | done start z => simp
  | @edit start gap removed after out e rest hstart hstop hrest ih =>
    intro f hf
    rcases List.mem_cons.mp hf with rfl | hf
    · omega
    · have := ih f hf
      omega

/-- Edits that spare an offset fall into those that rewrite what is ahead of it and those that
start behind it. -/
theorem split (h : Rewrites start (y ++ z) edits out)
    (hcut : ∀ e ∈ edits, e.stop ≤ start + y.utf8ByteSize ∨ start + y.utf8ByteSize < e.start) :
    ∃ outy outz behind, out = outy ++ outz ∧
      Rewrites start y (edits.filter (·.stop ≤ start + y.utf8ByteSize)) outy ∧
      Rewrites (start + y.utf8ByteSize) z behind outz ∧
      ∀ e ∈ behind, start + y.utf8ByteSize < e.start := by
  generalize hx : y ++ z = x at h
  induction h generalizing y with
  | done start x => exact ⟨y, z, [], hx.symm, .done start y, .done _ z, by simp⟩
  | @edit start gap removed after out e rest hstart hstop hrest ih =>
    rcases hcut e List.mem_cons_self with hahead | hbehind
    · have hle : (gap ++ removed).utf8ByteSize ≤ y.utf8ByteSize := by
        rw [String.utf8ByteSize_append]
        omega
      obtain ⟨y', rfl, rfl⟩ := Text.exists_append_of_size_le hx.symm hle
      have hoffset : start + (gap ++ removed ++ y').utf8ByteSize = e.stop + y'.utf8ByteSize := by
        simp only [String.utf8ByteSize_append]
        omega
      rw [hoffset] at hcut ⊢
      obtain ⟨outy, outz, behind, rfl, hy, hz, hout⟩ :=
        ih (fun f hf => hcut f (List.mem_cons_of_mem e hf)) rfl
      refine ⟨gap ++ e.replacement ++ outy, outz, behind, ?_, ?_, hz, hout⟩
      · simp only [String.append_assoc]
      · rw [List.filter_cons_of_pos (by simp)]
        exact .edit hstart hstop hy
    · have hle : y.utf8ByteSize ≤ gap.utf8ByteSize := by omega
      rw [@String.append_assoc gap] at hx
      obtain ⟨gap', rfl, rfl⟩ := Text.exists_append_of_size_le hx hle
      have hrestStart := hrest.start_le
      have hlater : ∀ f ∈ e :: rest, start + y.utf8ByteSize < f.start := by
        intro f hf
        rcases List.mem_cons.mp hf with rfl | hf
        · exact hbehind
        · have := hrestStart f hf
          omega
      have hnone : (e :: rest).filter (·.stop ≤ start + y.utf8ByteSize) = [] := by
        rw [List.filter_eq_nil_iff]
        intro f hf
        have hfStart := hlater f hf
        rcases List.mem_cons.mp hf with rfl | hf
        · simp
          omega
        · have := hrestStart f hf
          simp
          omega
      refine ⟨y, gap' ++ e.replacement ++ out, e :: rest, ?_, ?_, ?_, hlater⟩
      · simp only [String.append_assoc]
      · rw [hnone]
        exact .done start y
      · rw [← String.append_assoc]
        refine .edit ?_ hstop hrest
        rw [String.utf8ByteSize_append] at hstart
        omega

theorem size_eq (h : Rewrites start z edits out) :
    out.utf8ByteSize + (edits.map fun e => e.stop - e.start).sum =
      z.utf8ByteSize + (edits.map (·.replacement.utf8ByteSize)).sum := by
  induction h with
  | done start z => simp
  | @edit start gap removed after out e rest hstart hstop hrest ih =>
    simp only [String.utf8ByteSize_append, List.map_cons, List.sum_cons]
    omega

/-- The rewritten piece has as many line feeds more as its edits make it longer. -/
theorem newlines_eq (h : Rewrites start z edits out) (ha : a.utf8ByteSize = start) (c : String) :
    (Text.newlines out : Int) =
      Text.newlines z + (edits.map (lineDelta (a ++ z ++ c))).sum := by
  induction h generalizing a with
  | done start z => simp
  | @edit start gap removed after out e rest hstart hstop hrest ih =>
    have hspan := span ha hstart hstop
    have hsource : a ++ (gap ++ removed ++ after) ++ c = a ++ gap ++ removed ++ after ++ c := by
      simp only [String.append_assoc]
    have hremoved : Text.sliceD (a ++ gap ++ removed ++ after ++ c) e.start e.stop = removed := by
      rw [hspan.1, hspan.2, @String.append_assoc (a ++ gap ++ removed)]
      exact Text.sliceD_append (a ++ gap) removed (after ++ c)
    have hbehind : (a ++ gap ++ removed).utf8ByteSize = e.stop := by
      rw [String.utf8ByteSize_append, hspan.2]
    rw [hsource, List.map_cons, List.sum_cons, lineDelta, hremoved]
    have hout := ih hbehind
    simp only [Text.newlines_append]
    omega

/-- The first byte of a piece stays in front of the edits behind it. -/
theorem byte?_zero (h : Rewrites start z edits out) (hbehind : ∀ e ∈ edits, start < e.start) :
    Text.byte? out 0 = Text.byte? z 0 := by
  cases h with
  | done => rfl
  | @edit _ gap removed after out e rest hstart hstop hrest =>
    have hgap : 0 < (Text.bytes gap).length := by
      have := hbehind e List.mem_cons_self
      simp
      omega
    simp only [Text.byte?_eq, Text.bytes_append, List.append_assoc]
    rw [List.getElem?_append_left hgap, List.getElem?_append_left hgap]

end Rewrites

/-! ## What one set's movements say -/

/-- An edit moves the row of an offset by its movement exactly when it ends at or before the start
of the offset's line. -/
theorem lastFixedLine_le_rowOf_iff (source : String) (e : TextEdit) (offset : Nat) :
    lastFixedLine source e ≤ Text.rowOf source offset ↔
      e.stop ≤ Text.lineStart source offset := by
  have hle := Text.lineStart_le source offset
  have hrow := (Text.lineStart_eq_of_le source le_rfl hle).2
  have hself := (Text.lineStart_eq_of_le source le_rfl hle).1
  rw [lastFixedLine]
  rcases Nat.lt_trichotomy e.stop (Text.lineStart source offset) with hlt | heq | hgt
  · have hearlier := Text.rowOf_lt_of_lt_lineStart source hlt
    split <;> omega
  · rw [heq, if_pos hself, hrow]
    simp
  · rcases Nat.lt_or_ge offset e.stop with hbehind | hahead
    · have hmono := Text.rowOf_mono source hbehind.le
      split
      case isTrue hstarts =>
        have hlater : Text.rowOf source offset < Text.rowOf source e.stop :=
          Text.rowOf_lt_of_lt_lineStart source (by rw [hstarts]; exact hbehind)
        omega
      case isFalse hstarts => omega
    · obtain ⟨hline, hsame⟩ := Text.lineStart_eq_of_le source hgt.le hahead
      rw [hline, hsame, if_neg (by omega)]
      omega

theorem mapM_eq_some {α β : Type} {f : α → Option β} {xs : List α} {ys : List β}
    (h : xs.mapM f = some ys) : ∀ x ∈ xs, ∃ y, f x = some y := by
  induction xs generalizing ys with
  | nil => simp
  | cons x xs ih =>
    rw [List.mapM_cons] at h
    obtain ⟨y, hy, h⟩ := Option.bind_eq_some_iff.mp h
    obtain ⟨ys', hys, -⟩ := Option.bind_eq_some_iff.mp h
    exact List.forall_mem_cons.mpr ⟨⟨y, hy⟩, ih hys⟩

theorem mapM_of_forall {α β : Type} {f : α → Option β} {g : α → β} {xs : List α}
    (h : ∀ x ∈ xs, f x = some (g x)) : xs.mapM f = some (xs.map g) := by
  induction xs with
  | nil => rfl
  | cons x xs ih =>
    rw [List.mapM_cons, h x List.mem_cons_self, ih fun y hy => h y (List.mem_cons_of_mem x hy)]
    rfl

theorem delta?_eq_some {source : String} {e : TextEdit} {d : Int}
    (h : delta? source e = some d) : d = lineDelta source e ∧ OnBoundaries source e := by
  rw [delta?] at h
  obtain ⟨removed, hslice, hd⟩ := Option.bind_eq_some_iff.mp h
  have hremoved : Text.sliceD source e.start e.stop = removed := by
    rw [Text.sliceD, hslice, Option.getD_some]
  have hd' : (Text.newlines e.replacement : Int) - Text.newlines removed = d := by
    simpa using hd
  refine ⟨by rw [← hd', lineDelta, hremoved], ?_⟩
  obtain ⟨a, c, rfl, ha, hc⟩ := Text.slice?_eq_some_iff.mp hslice
  constructor
  · rw [← ha, String.append_assoc]
    exact Text.isBoundary_append a (removed ++ c)
  · have hstop := Text.isBoundary_append (a ++ removed) c
    rwa [String.utf8ByteSize_append, ha, hc] at hstop

/-- The movements of a set are those of its edits that change the number of lines. -/
theorem lineShifts?_eq_some {set : EditSet} {source : String} {shifts : List LineShift}
    (h : set.lineShifts? source = some shifts) :
    shifts = (set.edits.map fun e =>
        (⟨lastFixedLine source e, lineDelta source e⟩ : LineShift)).filter (·.delta ≠ 0) ∧
      ∀ e ∈ set.edits, OnBoundaries source e := by
  rw [lineShifts?] at h
  obtain ⟨all, hall, hshifts⟩ := Option.bind_eq_some_iff.mp h
  have hdelta : ∀ e ∈ set.edits, ∃ d, delta? source e = some d := by
    intro e he
    obtain ⟨s, hs⟩ := mapM_eq_some hall e he
    obtain ⟨d, hd, -⟩ := Option.bind_eq_some_iff.mp hs
    exact ⟨d, hd⟩
  rw [mapM_of_forall (g := fun e => ⟨lastFixedLine source e, lineDelta source e⟩) fun e he => by
    obtain ⟨d, hd⟩ := hdelta e he
    rw [hd, (delta?_eq_some hd).1]
    rfl] at hall
  refine ⟨?_, fun e he => ?_⟩
  · rw [← Option.some.inj hall] at hshifts
    simpa using hshifts.symm
  · obtain ⟨d, hd⟩ := hdelta e he
    exact (delta?_eq_some hd).2

theorem sum_map_filter {α : Type} (p : α → Bool) (f : α → Int) (xs : List α) :
    ((xs.filter p).map f).sum = (xs.map fun x => if p x then f x else 0).sum := by
  induction xs with
  | nil => rfl
  | cons x xs ih => by_cases hx : p x <;> simp [hx, ih]

theorem sum_map_congr {α : Type} {f g : α → Int} {xs : List α} (h : ∀ x ∈ xs, f x = g x) :
    (xs.map f).sum = (xs.map g).sum := by
  rw [List.map_congr_left h]

/-- The movements of a set move the line of an offset by what the edits ahead of the start of that
line make the source longer. -/
theorem batchDelta_lineShifts {set : EditSet} {source : String} {shifts : List LineShift}
    (h : set.lineShifts? source = some shifts) (offset : Nat) :
    LineMap.batchDelta shifts (Text.rowOf source offset + 1) =
      ((set.edits.filter (·.stop ≤ Text.lineStart source offset)).map (lineDelta source)).sum := by
  rw [(lineShifts?_eq_some h).1, LineMap.batchDelta, ← List.sum_eq_foldr, List.filter_filter,
    sum_map_filter, List.map_map, sum_map_filter]
  refine sum_map_congr fun e _ => ?_
  simp only [Function.comp_apply, gt_iff_lt, Nat.lt_add_one_iff, lastFixedLine_le_rowOf_iff]
  by_cases hdelta : lineDelta source e = 0 <;> simp [hdelta]

/-- What edits ahead of an offset add is what they add ahead of its line and inside it. -/
theorem sum_lineDelta_ahead (source : String) (offset : Nat) (edits : List TextEdit) :
    ((edits.filter (·.stop ≤ offset)).map (lineDelta source)).sum =
      ((edits.filter (·.stop ≤ Text.lineStart source offset)).map (lineDelta source)).sum +
        growthInLine source offset edits := by
  have hle := Text.lineStart_le source offset
  rw [growthInLine, sum_map_filter, sum_map_filter, sum_map_filter, ← List.sum_map_add]
  refine sum_map_congr fun e _ => ?_
  by_cases hline : e.stop ≤ Text.lineStart source offset
  · have hoffset : e.stop ≤ offset := hline.trans hle
    simp [hline, hoffset]
  · by_cases hoffset : e.stop ≤ offset <;> simp [hline, hoffset]

/-- Nothing ends inside a line ahead of its start. -/
theorem growthInLine_of_lineStart {source : String} {offset : Nat}
    (h : Text.lineStart source offset = offset) (edits : List TextEdit) :
    growthInLine source offset edits = 0 := by
  have hnone : edits.filter (fun e =>
      Text.lineStart source offset < e.stop && e.stop ≤ offset) = [] := by
    rw [List.filter_eq_nil_iff]
    intro e _
    rw [h, Bool.and_eq_true, decide_eq_true_eq, decide_eq_true_eq]
    omega
  rw [growthInLine, hnone]
  rfl

end EditSet

/-! ## A byte through any number of sets -/

/-- A byte of a text that is edited again and again, by its offset, with the line map that is kept
meanwhile. -/
structure TrackedByte where
  text : String
  offset : Nat
  lines : LineMap

namespace TrackedByte

/-- The byte after one more list of edits of its text: none if the list is refused, if an offset
lies inside a character, or if the byte is removed. -/
def edit (file : Path) (t : TrackedByte) (edits : List TextEdit) : Option TrackedByte := do
  let set ← (EditSet.ofList edits t.text.utf8ByteSize).toOption
  let text ← set.applyTo? t.text
  let shifts ← set.lineShifts? t.text
  if set.removes t.offset then none
  else some ⟨text, set.movedOffset t.offset, t.lines.record file shifts⟩

/-- The byte after some lists of edits, each of the text that the one before it made. -/
def editAll (file : Path) (t : TrackedByte) (history : List (List TextEdit)) :
    Option TrackedByte :=
  history.foldlM (edit file) t

/-- The number of the byte's line, from 1. -/
def line (t : TrackedByte) : Nat := Text.rowOf t.text t.offset + 1

variable {file : Path} {t t' : TrackedByte} {edits : List TextEdit}

/-- What a successful list of edits is made of. -/
theorem edit_eq_some (h : t.edit file edits = some t') :
    ∃ set text shifts, EditSet.ofList edits t.text.utf8ByteSize = .ok set ∧
      set.applyTo? t.text = some text ∧ set.lineShifts? t.text = some shifts ∧
      set.removes t.offset = false ∧
      t' = ⟨text, set.movedOffset t.offset, t.lines.record file shifts⟩ := by
  rw [edit] at h
  obtain ⟨set, hset, h⟩ := Option.bind_eq_some_iff.mp h
  obtain ⟨text, htext, h⟩ := Option.bind_eq_some_iff.mp h
  obtain ⟨shifts, hshifts, h⟩ := Option.bind_eq_some_iff.mp h
  split at h
  case isTrue hremoves => cases h
  case isFalse hspared =>
    exact ⟨set, text, shifts, EditSet.toOption_eq_some_iff.mp hset, htext, hshifts,
      Bool.eq_false_of_not_eq_true hspared, (Option.some.inj h).symm⟩

/-- The text is cut in two at the byte. -/
def CutAt (t : TrackedByte) (above below : String) : Prop :=
  t.text = above ++ below ∧ above.utf8ByteSize = t.offset

theorem CutAt.line_eq {above below : String} (h : t.CutAt above below) :
    t.line = Text.newlines above + 1 := by
  rw [line, h.1, ← h.2, Text.rowOf_append]

/-- One list of edits cuts the new text at the byte it spares, and moves the byte's row by what the
edits ahead of the byte make the text longer. -/
theorem CutAt.edit {above below : String} (hcut : t.CutAt above below)
    (h : t.edit file edits = some t') :
    ∃ above' below', t'.CutAt above' below' ∧
      Text.byte? below' 0 = Text.byte? below 0 ∧
      ∃ set shifts, EditSet.ofList edits t.text.utf8ByteSize = .ok set ∧
        set.lineShifts? t.text = some shifts ∧ t'.lines = t.lines.record file shifts ∧
        (t'.line : Int) = t.line +
          ((set.edits.filter (·.stop ≤ t.offset)).map (EditSet.lineDelta t.text)).sum := by
  obtain ⟨set, text, shifts, hset, htext, hshifts, hspared, rfl⟩ := edit_eq_some h
  obtain ⟨htext₀, hoffset⟩ := hcut
  have ho := TextEdit.inReadingOrder_mergeSort edits
  obtain ⟨rfl, hfits, hapart⟩ := (EditSet.ofList_eq_ok_iff ho set).mp hset
  obtain ⟨out, hout⟩ := EditSet.exists_rewrites (a := "") (z := t.text)
    (fun e he => by
      rw [String.empty_append]
      exact hfits e ((ho.mem_iff e).mp he))
    hapart (by simp) (by simpa using (EditSet.lineShifts?_eq_some hshifts).2)
  have happly := hout.applyTo?_eq (a := "") rfl
  rw [String.empty_append, String.empty_append, htext] at happly
  cases happly
  have hsides : ∀ e ∈ edits.mergeSort TextEdit.before,
      e.stop ≤ 0 + above.utf8ByteSize ∨ 0 + above.utf8ByteSize < e.start := by
    intro e he
    have hkept := List.any_eq_false.mp hspared e he
    simp only [Bool.and_eq_true, decide_eq_true_eq] at hkept
    omega
  rw [String.utf8ByteSize_empty, htext₀] at hout
  obtain ⟨above', below', behind, rfl, habove, hbelow, hbehind⟩ := hout.split hsides
  rw [Nat.zero_add] at habove hbelow hbehind
  have hmoved : above'.utf8ByteSize =
      EditSet.movedOffset ⟨edits.mergeSort TextEdit.before⟩ t.offset := by
    have hsize := habove.size_eq
    rw [hoffset] at hsize
    simp only [EditSet.movedOffset]
    omega
  have hrows := habove.newlines_eq (a := "") rfl below
  rw [String.empty_append, ← htext₀, hoffset] at hrows
  have hcut' : CutAt ⟨above' ++ below',
      EditSet.movedOffset ⟨edits.mergeSort TextEdit.before⟩ t.offset,
      t.lines.record file shifts⟩ above' below' := ⟨rfl, hmoved⟩
  refine ⟨above', below', hcut', hbelow.byte?_zero hbehind, _, shifts, hset, hshifts, rfl, ?_⟩
  rw [hcut'.line_eq, CutAt.line_eq ⟨htext₀, hoffset⟩]
  push_cast
  omega

end TrackedByte

namespace LineMap

theorem remap_record (m : LineMap) (file : Path) (shifts : List LineShift) (line : Nat) :
    (m.record file shifts).remap file line =
      if shifts.isEmpty then m.remap file line else remapBatch (m.remap file line) shifts := by
  rw [record]
  split
  · rfl
  · simp [remap, batchesOf, List.filter_append]

/-- The number of values of a signed machine word that are not negative. A text has fewer bytes. -/
def signedRange : Nat := 0x8000000000000000

/-- A batch moves a line by what its movements say, but not ahead of line 1, where a signed word
holds the result. -/
theorem remapBatch_of_signed {line : Nat} {batch : List LineShift}
    (hlow : -(signedRange : Int) ≤ line + batchDelta batch line)
    (hhigh : line + batchDelta batch line < (signedRange : Int)) :
    (remapBatch line batch : Int) = max (line + batchDelta batch line) 1 := by
  have hrange : (signedRange : Int) = 0x8000000000000000 := rfl
  have hword : MachineWord.wrapSigned (line + batchDelta batch line) =
      line + batchDelta batch line := by
    apply Int.bmod_eq_of_le_mul_two <;> simp only [MachineWord.card] <;> omega
  rw [remapBatch, hword, Int.toNat_of_nonneg (by omega)]

/-- A line number below the range of signed words survives the arithmetic on words. -/
theorem remapBatch_eq {line : Nat} {batch : List LineShift} {n : Nat}
    (hn : (n : Int) = line + batchDelta batch line) (hpos : 1 ≤ n) (hlt : n < signedRange) :
    remapBatch line batch = n := by
  have hmoved : (remapBatch line batch : Int) = max (line + batchDelta batch line) 1 :=
    remapBatch_of_signed (by omega) (by omega)
  rw [← hn] at hmoved
  omega

end LineMap

namespace TrackedByte

variable {file : Path} {t t' : TrackedByte} {edits : List TextEdit}

/-- The line of a byte of a text is below the range of signed words. -/
theorem CutAt.line_lt {above below : String} (hcut : t.CutAt above below) (hbelow : below ≠ "")
    (hsize : t.text.utf8ByteSize < LineMap.signedRange) : t.line < LineMap.signedRange := by
  have hpos : 0 < below.utf8ByteSize :=
    Nat.pos_of_ne_zero fun h => hbelow (String.utf8ByteSize_eq_zero_iff.mp h)
  have hrow := Text.rowOf_le t.text t.offset
  rw [hcut.1, String.utf8ByteSize_append, hcut.2] at hsize
  rw [line]
  omega

/-- The line map follows the byte through one list of edits whose edits inside the byte's line,
ahead of it, leave the number of lines alone. -/
theorem CutAt.remap_edit {above below : String} {line : Nat} (hcut : t.CutAt above below)
    (hbelow : below ≠ "") (hline : t.lines.remap file line = t.line)
    (hgrowth : EditSet.growthInLine t.text t.offset edits = 0)
    (hsize : t'.text.utf8ByteSize < LineMap.signedRange) (h : t.edit file edits = some t') :
    ∃ above' below', t'.CutAt above' below' ∧ below' ≠ "" ∧
      Text.byte? below' 0 = Text.byte? below 0 ∧ t'.lines.remap file line = t'.line := by
  obtain ⟨above', below', hcut', hbyte, set, shifts, hset, hshifts, hlines, hmoved⟩ :=
    hcut.edit h
  have hbelow' : below' ≠ "" := by
    rintro rfl
    have hnone : Text.byte? below 0 = none := by rw [← hbyte]; rfl
    rw [Text.byte?_eq, List.getElem?_eq_none_iff, Text.length_bytes] at hnone
    exact hbelow (String.utf8ByteSize_eq_zero_iff.mp (Nat.le_zero.mp hnone))
  refine ⟨above', below', hcut', hbelow', hbyte, ?_⟩
  have hsame : EditSet.growthInLine t.text t.offset set.edits = 0 := by
    have hperm : set.edits.Perm edits := by
      obtain ⟨rfl, -⟩ :=
        (EditSet.ofList_eq_ok_iff (TextEdit.inReadingOrder_mergeSort edits) set).mp hset
      exact List.mergeSort_perm edits TextEdit.before
    rw [← hgrowth]
    exact ((hperm.filter _).map _).sum_eq
  have hdelta : (t'.line : Int) = t.line + LineMap.batchDelta shifts t.line := by
    rw [hmoved, EditSet.sum_lineDelta_ahead, hsame, add_zero, TrackedByte.line,
      EditSet.batchDelta_lineShifts hshifts]
  have hnew := LineMap.remapBatch_eq hdelta (Nat.le_add_left 1 _)
    (hcut'.line_lt hbelow' hsize)
  rw [hlines, LineMap.remap_record, hline]
  split
  case isTrue hempty =>
    rw [List.isEmpty_iff.mp hempty] at hdelta
    have hzero : LineMap.batchDelta [] t.line = 0 := rfl
    omega
  case isFalse => exact hnew

theorem editAll_append (past : List (List TextEdit)) (edits : List TextEdit) :
    t.editAll file (past ++ [edits]) = (t.editAll file past).bind (edit file · edits) := by
  rw [editAll, editAll, List.foldlM_append]
  simp

end TrackedByte

namespace LineMap

open TrackedByte

/-- What begins a line starts it. -/
theorem lineStart_of_line {above rest : String}
    (h : above = "" ∨ above.toList.getLast? = some '\n') :
    Text.lineStart (above ++ rest) above.utf8ByteSize = above.utf8ByteSize := by
  rcases h with rfl | h
  · rfl
  · exact Text.lineStart_of_getLast? rest h

/-- Line remapping follows surviving lines.  Take the byte that begins a line of a text, and any
number of lists of edits, each accepted for the text that the one before it made and recorded in a
line map; the byte is removed by none of them.  If, in every list but the first, the edits that end
inside the line which then holds the byte, ahead of the byte, leave the number of lines alone, then
the map carries the number of the line to that of the line that holds the byte in the last text. -/
theorem remap_follows_first_byte (file : Path) (m : LineMap) (hm : m.batchesOf file = [])
    (above rest : String) (hline : above = "" ∨ above.toList.getLast? = some '\n')
    (hrest : rest ≠ "") (history : List (List TextEdit)) (t : TrackedByte)
    (hrun : editAll file ⟨above ++ rest, above.utf8ByteSize, m⟩ history = some t)
    (hsize : ∀ past t', past <+: history →
      editAll file ⟨above ++ rest, above.utf8ByteSize, m⟩ past = some t' →
        t'.text.utf8ByteSize < signedRange)
    (hgrowth : ∀ past edits t', past ≠ [] → past ++ [edits] <+: history →
      editAll file ⟨above ++ rest, above.utf8ByteSize, m⟩ past = some t' →
        EditSet.growthInLine t'.text t'.offset edits = 0) :
    t.lines.remap file (Text.newlines above + 1) = t.line ∧
      Text.byte? t.text t.offset = Text.byte? rest 0 := by
  suffices hcut : ∃ above' below', t.CutAt above' below' ∧ below' ≠ "" ∧
      Text.byte? below' 0 = Text.byte? rest 0 ∧
      t.lines.remap file (Text.newlines above + 1) = t.line by
    obtain ⟨above', below', ⟨htext, hoffset⟩, -, hbyte, hremap⟩ := hcut
    refine ⟨hremap, ?_⟩
    rw [← hbyte, htext, ← hoffset]
    exact Text.byte?_append above' below' 0
  induction history using List.reverseRecOn generalizing t with
  | nil =>
    cases hrun
    have hstart : CutAt ⟨above ++ rest, above.utf8ByteSize, m⟩ above rest := ⟨rfl, rfl⟩
    refine ⟨above, rest, hstart, hrest, rfl, ?_⟩
    rw [hstart.line_eq, remap, hm]
    rfl
  | append_singleton past edits ih =>
    have hprefix : past <+: past ++ [edits] := List.prefix_append past [edits]
    rw [editAll_append] at hrun
    obtain ⟨t₀, hpast, hedit⟩ := Option.bind_eq_some_iff.mp hrun
    obtain ⟨above₀, below₀, hcut₀, hbelow₀, hbyte₀, hremap₀⟩ := ih t₀ hpast
      (fun past' t' h => hsize past' t' (h.trans hprefix))
      (fun past' edits' t' hne h => hgrowth past' edits' t' hne (h.trans hprefix))
    have hzero : EditSet.growthInLine t₀.text t₀.offset edits = 0 := by
      by_cases hne : past = []
      · subst hne
        cases hpast
        exact EditSet.growthInLine_of_lineStart (lineStart_of_line hline) edits
      · exact hgrowth past edits t₀ hne List.prefix_rfl hpast
    have hlast : t.text.utf8ByteSize < signedRange := by
      refine hsize (past ++ [edits]) t List.prefix_rfl ?_
      rw [editAll_append, hpast, Option.bind_some, hedit]
    obtain ⟨above', below', hcut', hbelow', hbyte', hremap'⟩ :=
      hcut₀.remap_edit hbelow₀ hremap₀ hzero hlast hedit
    exact ⟨above', below', hcut', hbelow', hbyte'.trans hbyte₀, hremap'⟩

/-- Three edits of `a\nb\nc`: the first joins `b` to the line above it, the second adds a line ahead
of that line and the third a letter inside it. -/
theorem remap_follows_joined_line :
    ∃ t, editAll ⟨"/p/A.java"⟩ ⟨"a\n" ++ "b\nc", "a\n".utf8ByteSize, empty⟩
        [[.delete 1 2 "join"], [.insert 0 "y\n" "line"], [.insert 3 "x" "letter"]] = some t ∧
      t.lines.remap ⟨"/p/A.java"⟩ (Text.newlines "a\n" + 1) = t.line ∧
      Text.byte? t.text t.offset = Text.byte? "b\nc" 0 := by
  generalize hhistory : [[TextEdit.delete 1 2 "join"], [.insert 0 "y\n" "line"],
    [.insert 3 "x" "letter"]] = history
  have hruns : (editAll ⟨"/p/A.java"⟩ ⟨"a\n" ++ "b\nc", "a\n".utf8ByteSize, empty⟩
      history).isSome := by
    subst hhistory
    decide +kernel
  obtain ⟨t, ht⟩ := Option.isSome_iff_exists.mp hruns
  refine ⟨t, ht, remap_follows_first_byte _ empty rfl "a\n" "b\nc" (by decide) (by decide) history
    t ht ?_ ?_⟩
  · intro past t' hpast ht'
    have hsmall : ∀ past ∈ history.inits,
        (editAll ⟨"/p/A.java"⟩ ⟨"a\n" ++ "b\nc", "a\n".utf8ByteSize, empty⟩ past).all
          (·.text.utf8ByteSize < signedRange) := by
      subst hhistory
      decide +kernel
    have hpastSmall := hsmall past ((List.mem_inits past history).mpr hpast)
    rw [ht'] at hpastSmall
    exact of_decide_eq_true hpastSmall
  · intro past edits t' hne hpast ht'
    have hlevel : ∀ all ∈ history.inits, ∀ edits ∈ all.getLast?, all.dropLast ≠ [] →
        (editAll ⟨"/p/A.java"⟩ ⟨"a\n" ++ "b\nc", "a\n".utf8ByteSize, empty⟩ all.dropLast).all
          fun t' => EditSet.growthInLine t'.text t'.offset edits = 0 := by
      subst hhistory
      decide +kernel
    have hpastLevel := hlevel (past ++ [edits]) ((List.mem_inits _ history).mpr hpast) edits
      (by simp) (by simpa using hne)
    rw [List.dropLast_concat, ht'] at hpastLevel
    exact of_decide_eq_true hpastLevel

/-- Without its last condition the rule fails: one edit joins the second line to the first, and the
next one splits them again ahead of the byte, which is on line 2 in the end while the map says 1. -/
theorem remap_loses_line_joined_and_split :
    ¬ ∀ (file : Path) (above rest : String) (history : List (List TextEdit)) (t : TrackedByte),
      (above = "" ∨ above.toList.getLast? = some '\n') → rest ≠ "" →
      editAll file ⟨above ++ rest, above.utf8ByteSize, empty⟩ history = some t →
      t.lines.remap file (Text.newlines above + 1) = t.line := by
  intro hrule
  have hend : (editAll ⟨"/p/A.java"⟩ ⟨"a\n" ++ "b", "a\n".utf8ByteSize, empty⟩
      [[.delete 1 2 "join"], [.insert 1 "\n" "split"]]).map
      (fun t => (t.lines.remap ⟨"/p/A.java"⟩ (Text.newlines "a\n" + 1), t.line)) =
      some (1, 2) := by
    decide +kernel
  obtain ⟨t, ht, hlines⟩ := Option.map_eq_some_iff.mp hend
  have hsame := hrule ⟨"/p/A.java"⟩ "a\n" "b" _ t (by decide) (by decide) ht
  obtain ⟨hmap, hline⟩ := Prod.mk.inj hlines
  omega

end LineMap

end Amend
