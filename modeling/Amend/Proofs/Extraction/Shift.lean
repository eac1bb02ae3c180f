import Amend.Proofs.Extraction.Run
import Amend.Proofs.LineMap
import Amend.Refactoring.LongMethod

/-!
# The lines of a method that blocks were lifted from

The extraction reports one movement: behind the last line of the method the lines move by what the
text has become longer.  This is right for the lines behind the method, and those down to its start
do not move at all.  The lines in it are left where they are, although a call is shorter than its
block and moves the lines behind it up.
-/

namespace Amend

namespace Text

/-- The row of an offset behind a beginning of the text. -/
theorem rowOf_append_add (a b : String) (k : Nat) :
    rowOf (a ++ b) (a.utf8ByteSize + k) = newlines a + rowOf b k := by
  rw [rowOf_eq_count, rowOf_eq_count, bytes_append, ← length_bytes, List.take_length_add_append,
    List.count_append, count_bytes]

/-- The row of an offset in a beginning of the text. -/
theorem rowOf_append_of_le (a b : String) {i : Nat} (hi : i ≤ a.utf8ByteSize) :
    rowOf (a ++ b) i = rowOf a i := by
  rw [rowOf_eq_count, rowOf_eq_count, bytes_append,
    List.take_append_of_le_length (by rwa [length_bytes])]

theorem rowOf_le_newlines (s : String) (i : Nat) : rowOf s i ≤ newlines s := by
  rw [rowOf_eq_count, ← count_bytes]
  exact (List.take_sublist i (bytes s)).count_le 10

theorem newlines_le (s : String) : newlines s ≤ s.utf8ByteSize := by
  rw [← count_bytes, ← length_bytes]
  exact List.count_le_length

theorem lineSegments_eq_nil_iff {cs : List Char} : lineSegments cs = [] ↔ cs = [] := by
  cases cs with
  | nil => simp [lineSegments]
  | cons c cs =>
    rw [lineSegments]
    split
    · simp
    · split <;> simp

theorem length_lineSegments_cons {cs : List Char} (hcs : cs ≠ []) (c : Char) :
    (lineSegments (c :: cs)).length =
      (if c = '\n' then 1 else 0) + (lineSegments cs).length := by
  rw [lineSegments]
  by_cases hc : c = '\n'
  · simp only [hc, beq_self_eq_true, if_true, List.length_cons]
    omega
  · cases hsegments : lineSegments cs with
    | nil => exact absurd (lineSegments_eq_nil_iff.mp hsegments) hcs
    | cons seg rest => simp [hc]

theorem length_lineSegments_append {ds : List Char} (hds : ds ≠ []) (cs : List Char) :
    (lineSegments (cs ++ ds)).length = cs.count '\n' + (lineSegments ds).length := by
  induction cs with
  | nil => simp
  | cons c cs ih =>
    have hrest : cs ++ ds ≠ [] := List.append_ne_nil_of_right_ne_nil cs hds
    rw [List.cons_append, length_lineSegments_cons hrest, ih, List.count_cons]
    simp only [beq_iff_eq]
    omega

/-- The lines of a text are those of its end, which is not empty, and one for each line feed ahead of
that. -/
theorem lineCount_append (a : String) {b : String} (hb : b ≠ "") :
    lineCount (a ++ b) = newlines a + lineCount b := by
  have hds : b.toList ≠ [] := fun h => hb (String.toList_inj.mp h)
  rw [lineCount, String.toList_append, length_lineSegments_append hds]
  rfl

end Text

namespace Extraction

open Syntax Syntax.Node

section Run

variable {parse : Parser} {start : Nat} {settings : BlockSettings} {source : String}
  {method method' : Node} {resume : Nat} {b : Block} {front inside inside' back : String}

/-- The pieces of a text and of another one that differs from it only inside a method. -/
structure DiffersInside (method : Node) (source content front inside inside' back : String) :
    Prop where
  source_eq : source = front ++ inside ++ back
  content_eq : content = front ++ inside' ++ back
  start : front.utf8ByteSize = method.start
  stop : (front ++ inside).utf8ByteSize = method.stop

namespace DiffersInside

variable {content : String}

theorem isBoundary_stop (h : DiffersInside method source content front inside inside' back) :
    Text.isBoundary source method.stop = true := by
  rw [h.source_eq, ← h.stop]
  exact Text.isBoundary_append _ back

theorem start_le_stop (h : DiffersInside method source content front inside inside' back) :
    method.start ≤ method.stop := by
  rw [← h.start, ← h.stop, String.utf8ByteSize_append]
  exact Nat.le_add_right _ _

end DiffersInside

/-! ## What is written outside of the method -/

/-- A line behind a lifted block, down to the end of the method, moves by as many lines as the call
is longer than the block. -/
theorem rowOf_behind_call {name content c d q u : String}
    (h : Pieces method source b name content c d q u) {k : Nat} (hk : k ≤ q.utf8ByteSize) :
    Text.rowOf content ((c ++ callText source b name).utf8ByteSize + k) + Text.newlines d =
      Text.rowOf source ((c ++ d).utf8ByteSize + k) + Text.newlines (callText source b name) := by
  have hcontent := Text.rowOf_append_add (c ++ callText source b name)
    (q ++ (declarationText method source b name ++ u)) k
  have hsource := Text.rowOf_append_add (c ++ d) (q ++ u) k
  rw [← h.content_eq, Text.rowOf_append_of_le _ _ hk, Text.newlines_append] at hcontent
  rw [← h.source_eq, Text.rowOf_append_of_le _ _ hk, Text.newlines_append] at hsource
  omega

theorem exists_differsInside_self (hfits : method.tree.fits source = true) :
    ∃ front inside back, DiffersInside method source source front inside inside back := by
  obtain ⟨hfirst, hlast, -⟩ := Tree.fits_iff.mp hfits
  obtain ⟨front, rest, rfl, hfront⟩ := Text.isBoundary_iff.mp hfirst
  obtain ⟨inside, back, rfl, hinside⟩ := Text.exists_append_of_isBoundary hlast
    (hfront ▸ Tree.start_le_stop method.tree hfits)
  have hsource : front ++ (inside ++ back) = front ++ inside ++ back := by
    rw [String.append_assoc]
  refine ⟨front, inside, back, hsource, hsource, hfront, ?_⟩
  rw [String.utf8ByteSize_append, hinside]
  rfl

/-- What differs inside the method after a step differs inside the method before it. -/
theorem DiffersInside.of_step {name content out c d q u : String}
    (hpieces : Pieces method source b name content c d q u)
    (hcontinues : Continues method source b name method' content)
    (hstart : method'.start = method.start) (hle : method.start ≤ b.start)
    (h : DiffersInside method' content out front inside inside' back) :
    ∃ gap, DiffersInside method source out front (gap ++ d ++ q)
      (inside' ++ declarationText method source b name) u := by
  obtain ⟨⟨hc, hd, hstop⟩, hsource, hcontent⟩ := hpieces
  obtain ⟨hthis, hout, hfront, hinside⟩ := h
  have hend := hcontinues.stop
  have hsize : (front ++ inside).utf8ByteSize =
      (c ++ callText source b name ++ q).utf8ByteSize := by
    simp only [String.utf8ByteSize_append] at hd hstop hinside ⊢
    omega
  have hcut : front ++ inside ++ back = c ++ callText source b name ++ q ++
      (declarationText method source b name ++ u) := by
    rw [← hthis, hcontent]
    simp only [String.append_assoc]
  obtain ⟨hleft, rfl⟩ := Text.append_inj_of_size_eq hcut hsize
  have hahead : front ++ inside = c ++ (callText source b name ++ q) := by
    rw [hleft, String.append_assoc]
  obtain ⟨gap, rfl, rfl⟩ := Text.exists_append_of_size_le hahead (by omega)
  refine ⟨gap, ?_, ?_, hfront.trans hstart, ?_⟩
  · simpa only [String.append_assoc] using hsource
  · simpa only [String.append_assoc] using hout
  · simp only [String.utf8ByteSize_append] at hstop ⊢
    omega

theorem FindsMethod.start_eq (h : FindsMethod parse start source method) : method.start = start := by
  obtain ⟨tree, -, hfind⟩ := h
  simpa using List.find?_some hfind

section Search

variable {text : String}
  (hgrammar : ∀ source tree, parse.verify source = .ok tree → Grammatical source tree)
  (hreparses : ∀ {text resume method b e content}, Reaches parse start settings source text resume →
    IsStep parse start settings text resume method b e content →
      Reparses parse method text b e.methodName content)

include hgrammar hreparses

/-- A run changes nothing outside of the method that it lifts blocks from. -/
theorem lift_differsInside (fuel : Nat) (hreach : Reaches parse start settings source text resume)
    (hmethod : FindsMethod parse start text method) {outcome : Outcome}
    (h : lift parse start settings fuel text resume = .ok outcome) :
    ∃ front inside inside' back,
      DiffersInside method text outcome.content front inside inside' back := by
  have hfits := (hmethod.leads hgrammar).2.1
  induction fuel generalizing text resume method outcome with
  | zero => cases h
  | succ fuel ih =>
    cases hblocks : findBlocksFrom method text settings resume with
    | nil =>
      rw [lift, next?_eq_none hmethod hblocks] at h
      cases h
      obtain ⟨front, inside, back, hself⟩ := exists_differsInside_self hfits
      exact ⟨front, inside, inside, back, hself⟩
    | cons b rest =>
      obtain ⟨e, content, c, d, q, u, hstep, hpieces, -⟩ :=
        exists_step hgrammar hmethod hblocks
      obtain ⟨method', hmethod', hcontinues, -⟩ :=
        exists_resumes hgrammar hmethod hblocks hpieces (hreparses hreach hstep)
      have hmem : b ∈ findBlocksFrom method text settings resume := by
        rw [hblocks]
        exact List.mem_cons_self
      obtain ⟨-, -, -, -, -, -, hle⟩ := exists_cut_of_mem hfits hmem
      have hstart : method'.start = method.start := hmethod'.start_eq.trans hmethod.start_eq.symm
      rw [lift_step hstep] at h
      cases hrest : lift parse start settings fuel content (b.firstIndex + 1) with
      | error e' =>
        rw [hrest] at h
        cases h
      | ok later =>
        rw [hrest] at h
        cases h
        obtain ⟨front, inside, inside', back, hlater⟩ :=
          ih (.next hreach hstep) hmethod' hrest (hmethod'.leads hgrammar).2.1
        obtain ⟨gap, hthis⟩ := hlater.of_step hpieces hcontinues hstart hle
        exact ⟨_, _, _, _, hthis⟩

end Search

/-! ## What the reported movement makes of it -/

/-- A map with one movement of one file. -/
theorem remap_of_shift (file : Path) (shift : LineShift) {line n : Nat}
    (hn : (n : Int) = if shift.afterLine < line then line + shift.delta else line) (hpos : 1 ≤ n)
    (hlt : n < LineMap.signedRange) :
    (LineMap.empty.record file [shift]).remap file line = n := by
  rw [LineMap.remap_record]
  change LineMap.remapBatch line [shift] = n
  refine LineMap.remapBatch_eq ?_ hpos hlt
  rw [hn, LineMap.batchDelta, List.filter_singleton]
  split
  · rename_i hbehind
    simp [hbehind]
  · rename_i hahead
    simp [hahead]

/-- Lifting blocks of a method moves the lines outside of it as reported: those down to its start
keep their numbers, and those behind its last line move by the reported movement.  A line in between
keeps its number in the map, wherever it has gone. -/
theorem reported_shift_outside
    (hgrammar : ∀ source tree, parse.verify source = .ok tree → Grammatical source tree)
    (hmethod : FindsMethod parse method.start source method)
    (hreparses : ∀ {text resume method' b e content},
      Reaches parse method.start settings source text resume →
        IsStep parse method.start settings text resume method' b e content →
          Reparses parse method' text b e.methodName content)
    {threshold : Nat} {d : Defect} {tree : Tree} {name content summary : String}
    {shifts : List LineShift}
    (htarget : Refactoring.LongMethod.target "extract-method" threshold d source tree =
      .ok (method, name))
    (h : Refactoring.LongMethod.extract threshold settings parse d source tree =
      .ok (.edit content shifts summary))
    (hsource : source.utf8ByteSize + 1 < LineMap.signedRange)
    (hcontent : content.utf8ByteSize + 1 < LineMap.signedRange) (file : Path) :
    ∃ front inside inside' back,
      DiffersInside method source content front inside inside' back ∧
      (∀ i ≤ method.start, (LineMap.empty.record file shifts).remap file
        (Text.rowOf source i + 1) = Text.rowOf content i + 1) ∧
      (∀ k, method.lastLine source < Text.rowOf source (method.stop + k) + 1 →
        (LineMap.empty.record file shifts).remap file
            (Text.rowOf source (method.stop + k) + 1) =
          Text.rowOf content ((front ++ inside').utf8ByteSize + k) + 1) ∧
      ∀ line, 1 ≤ line → line ≤ method.lastLine source →
        (LineMap.empty.record file shifts).remap file line = line := by
  have hextract : ∃ outcome, extractAll parse source method.start settings = .ok outcome ∧
      outcome.content = content ∧ shifts = [⟨method.lastLine source,
        (Text.lineCount content : Int) - Text.lineCount source⟩] := by
    simp only [Refactoring.LongMethod.extract, htarget, bind, Except.bind] at h
    split at h
    · cases h
    · rename_i outcome hlift
      split at h
      · cases h
      · cases h
        exact ⟨outcome, hlift, rfl, rfl⟩
  obtain ⟨outcome, hlift, rfl, rfl⟩ := hextract
  obtain ⟨front, inside, inside', back, hdiffers⟩ :=
    lift_differsInside hgrammar hreparses _ .here hmethod hlift
  have hlast : method.lastLine source = Text.newlines (front ++ inside) + 1 := by
    rw [lastLine, ← hdiffers.stop, hdiffers.source_eq, Text.rowOf_append]
  have hin {line : Nat} (hpos : 1 ≤ line) (hline : line ≤ method.lastLine source) :
      (LineMap.empty.record file [⟨method.lastLine source,
        (Text.lineCount outcome.content : Int) - Text.lineCount source⟩]).remap file line =
          line := by
    have hrows := Text.rowOf_le source method.stop
    have hin := Text.le_of_isBoundary (hdiffers.isBoundary_stop)
    refine remap_of_shift file _ ?_ hpos ?_
    · rw [if_neg (Nat.not_lt.mpr hline)]
    · rw [lastLine] at hline
      omega
  refine ⟨front, inside, inside', back, hdiffers, fun i hi => ?_, fun k hk => ?_, fun line => hin⟩
  · have hrow : Text.rowOf outcome.content i = Text.rowOf source i := by
      rw [hdiffers.content_eq, hdiffers.source_eq, String.append_assoc, String.append_assoc,
        Text.rowOf_append_of_le _ _ (hdiffers.start ▸ hi),
        Text.rowOf_append_of_le _ _ (hdiffers.start ▸ hi)]
    rw [hrow]
    refine hin (Nat.le_add_left 1 _) (Nat.succ_le_succ (Text.rowOf_mono source ?_))
    exact Nat.le_trans hi hdiffers.start_le_stop
  · have hrow : Text.rowOf source (method.stop + k) =
        Text.newlines (front ++ inside) + Text.rowOf back k := by
      rw [hdiffers.source_eq, ← hdiffers.stop, Text.rowOf_append_add]
    have hrow' : Text.rowOf outcome.content ((front ++ inside').utf8ByteSize + k) =
        Text.newlines (front ++ inside') + Text.rowOf back k := by
      rw [hdiffers.content_eq, Text.rowOf_append_add]
    have hback : back ≠ "" := by
      rintro rfl
      have hnone := Text.rowOf_le_newlines "" k
      have hzero : Text.newlines "" = 0 := rfl
      omega
    have hcount : (Text.lineCount outcome.content : Int) - Text.lineCount source =
        (Text.newlines (front ++ inside') : Int) - Text.newlines (front ++ inside) := by
      rw [hdiffers.content_eq, hdiffers.source_eq, Text.lineCount_append _ hback,
        Text.lineCount_append _ hback]
      omega
    have hlow := Text.rowOf_le_newlines outcome.content ((front ++ inside').utf8ByteSize + k)
    have hhigh := Text.newlines_le outcome.content
    refine remap_of_shift file _ ?_ (Nat.le_add_left 1 _) (by omega)
    rw [if_pos hk]
    dsimp only
    omega

end Run

end Extraction

end Amend
