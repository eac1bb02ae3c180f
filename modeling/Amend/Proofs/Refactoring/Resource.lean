import Amend.Proofs.Layout
import Amend.Proofs.Refactoring.Rewrite
import Amend.Refactoring.Resource
import Mathlib.Data.List.TakeWhile

/-!
# What becomes of a resource

The block of the new `try` holds the text from the line on where the first statement starts to the
end of the last one.  What the declaration and its statements have in front of that line, and what
follows the last statement up to the closing call, is not in it.  When the declaration reaches into
that line, a part of it is in the block once more.
-/

namespace Amend.Refactoring.Resource

open Syntax

section

variable {source resource : String} {following inside rest : List Node} {stop : Nat}

/-- A region ends with the closing call, which is not part of it, or with its last statement. -/
theorem region_eq_ok (h : region source resource following = .ok (inside, stop, rest)) :
    (∃ close, following = inside ++ close :: rest ∧ isCloseCall source resource close = true ∧
      close.stop = stop) ∨
    following = inside ++ rest ∧ ∃ last, inside.getLast? = some last ∧ last.stop = stop := by
  rw [region] at h
  split at h
  · next inside' close rest' hspan =>
    cases h
    rw [List.span_eq_takeWhile_dropWhile, Prod.mk.injEq] at hspan
    obtain ⟨htake, hdrop⟩ := hspan
    refine .inl ⟨close, ?_, ?_, rfl⟩
    · rw [← htake, ← hdrop, List.takeWhile_append_dropWhile]
    · have hhead := List.head?_dropWhile_not (!isCloseCall source resource ·) following
      rw [hdrop] at hhead
      simpa using hhead
  · dsimp only at h
    split at h
    · cases h
    · next last hlast =>
      cases h
      refine .inr ⟨?_, last, hlast, rfl⟩
      have hsuffix := List.reverse_suffix.mpr
        (List.takeWhile_prefix (l := following.reverse) (!mentions source resource ·))
      rw [List.reverse_reverse, List.suffix_iff_eq_drop, List.length_reverse] at hsuffix
      rw [hsuffix, List.take_append_drop]

end

/-- A resource that is wrapped: its declaration in a block, the statements that go into the new
block, the end of what is replaced, and the statements behind that. -/
structure Wrapping (d : Defect) (source : String) (t : Tree) where
  declaration : Node
  block : Node
  resource : String
  inside : List Node
  stop : Nat
  rest : List Node
  found : Resource.declaration (.root t) source d = .ok declaration
  inBlock : declaration.parent? = some block
  named : resourceName declaration source = .ok resource
  listed : ∃ m ∈ block.parts, m.same declaration = true
  cut : region source resource ((block.parts.dropWhile (!·.same declaration)).drop 1) =
    .ok (inside, stop, rest)

namespace Wrapping

variable {d : Defect} {source : String} {t : Tree} (w : Wrapping d source t)

/-- The declaration as the head of the `try`. -/
def header : String :=
  Text.trimEnd (.ofList (Text.dropEndWhile (· == ';') (w.declaration.text source).toList))

/-- What is put in the place of the declaration and the statements. -/
def replacement : String :=
  "try (" ++ w.header ++ ") \x7b\n" ++
    bodyText source (IndentStyle.infer source).unit w.inside ++
    (Text.lineIndent? source w.declaration.start).getD "" ++ "\x7d"

def description : String := "Wrapped " ++ w.resource ++ " in try-with-resources"

/-- The start of the line of the first statement. -/
def bodyStart : Nat :=
  match w.inside.head? with
  | some first => Text.lineStart source first.start
  | none => w.declaration.stop

/-- The end of the last statement. -/
def bodyStop : Nat :=
  match w.inside.getLast? with
  | some last => last.stop
  | none => w.declaration.stop

/-- Where the text starts that is behind the declaration and goes into the new block. -/
def keptStart : Nat := max w.declaration.stop w.bodyStart

/-- What stands in front of the declaration. -/
def front : String := Text.sliceD source 0 w.declaration.start

/-- What is lost between the declaration and the statements. -/
def gap : String := Text.sliceD source w.declaration.stop w.keptStart

/-- What the new block repeats. -/
def repeated : String := Text.sliceD source w.bodyStart w.keptStart

/-- The statements with what stands between them. -/
def kept : String := Text.sliceD source w.keptStart w.bodyStop

/-- What is lost behind the statements. -/
def closing : String := Text.sliceD source w.bodyStop w.stop

/-- What stands behind all that is replaced. -/
def back : String := Text.sliceD source w.stop source.utf8ByteSize

end Wrapping

section

variable {d : Defect} {source : String} {t : Tree} {r : Rewrite}

/-- A rewrite wraps a resource. -/
theorem exists_wrapping (h : rewrite d source t = .ok r) :
    ∃ w : Wrapping d source t, Rewrite.ofEdits source
      [.replace w.declaration.start w.stop w.replacement
        ("wrap " ++ w.resource ++ " in try-with-resources")] w.description = .ok r := by
  rw [rewrite] at h
  obtain ⟨declaration, hfound, h⟩ := exists_of_bind_eq_ok h
  split at h
  · next block hblock =>
    obtain ⟨resource, hnamed, h⟩ := exists_of_bind_eq_ok h
    split at h
    · next m hm =>
      obtain ⟨⟨inside, stop, rest⟩, hcut, h⟩ := exists_of_bind_eq_ok h
      obtain ⟨-, h⟩ := passed_of_eq_ok h
      split at h
      · cases h
      · obtain ⟨hparent, -⟩ := Option.filter_eq_some_iff.mp hblock
        have hsame := List.find?_some hm
        exact ⟨⟨declaration, block, resource, inside, stop, rest, hfound, hparent, hnamed,
          ⟨m, List.mem_of_find?_eq_some hm, hsame⟩, hcut⟩, h⟩
    · cases h
  · cases h

end

/-! ## Where the statements are -/

namespace Wrapping

variable {d : Defect} {source : String} {t : Tree} (w : Wrapping d source t)

/-- The statements behind the declaration. -/
def following : List Node := (w.block.parts.dropWhile (!·.same w.declaration)).drop 1

theorem holds_declaration : (Node.root t).Holds w.declaration := by
  have h := w.found
  rw [Resource.declaration] at h
  split at h
  · next n hn =>
    cases h
    have hmem := (List.mem_filter.mp (List.mem_filter.mp (List.mem_of_find?_eq_some hn)).1).1
    exact Node.holds_of_mem_visit (List.mem_filter.mp hmem).1
  · cases h

theorem holds_block : (Node.root t).Holds w.block := w.holds_declaration.parent w.inBlock

theorem holds_of_mem_parts {s : Node} (hs : s ∈ w.block.parts) : (Node.root t).Holds s :=
  .child w.holds_block (Node.mem_children_of_mem_parts hs)

/-- The declaration is a statement of its block, and `following` is what comes behind it. -/
theorem parts_eq : ∃ before, w.block.parts = before ++ w.declaration :: w.following := by
  have hsplit := List.takeWhile_append_dropWhile (p := (!·.same w.declaration))
    (l := w.block.parts)
  cases hdrop : w.block.parts.dropWhile (!·.same w.declaration) with
  | nil =>
    obtain ⟨m, hm, hsame⟩ := w.listed
    have hnot := List.dropWhile_eq_nil_iff.mp hdrop m hm
    rw [hsame] at hnot
    cases hnot
  | cons m ms =>
    have hhead := List.head?_dropWhile_not (!·.same w.declaration) w.block.parts
    rw [hdrop] at hhead hsplit
    have hsame : m.same w.declaration = true := by simpa using hhead
    have hmem : m ∈ w.block.parts := by
      rw [← hsplit]
      exact List.mem_append_right _ List.mem_cons_self
    obtain rfl := Node.eq_of_same (w.holds_of_mem_parts hmem) w.holds_declaration hsame
    refine ⟨w.block.parts.takeWhile (!·.same w.declaration), ?_⟩
    rw [following, hdrop, List.drop_succ_cons, List.drop_zero, hsplit]

/-- The statements that go into the block come first behind the declaration, and what is replaced
ends with the next one or with the last of them. -/
theorem following_eq :
    (∃ close, w.following = w.inside ++ close :: w.rest ∧
      isCloseCall source w.resource close = true ∧ close.stop = w.stop) ∨
    w.following = w.inside ++ w.rest ∧ ∃ last, w.inside.getLast? = some last ∧ last.stop = w.stop :=
  region_eq_ok w.cut

theorem mem_following {s : Node} (hs : s ∈ w.inside) : s ∈ w.following := by
  rcases w.following_eq with ⟨close, heq, -⟩ | ⟨heq, -⟩ <;>
    exact heq ▸ List.mem_append_left _ hs

section

variable (hfits : t.fits source = true)

include hfits

theorem fits_of_mem_parts {s : Node} (hs : s ∈ w.block.parts) : s.tree.fits source = true :=
  ((w.holds_of_mem_parts hs).spans hfits).1

/-- The declaration and the statements behind it stand in this order. -/
theorem pairwise_following :
    (w.declaration :: w.following).Pairwise fun a b => a.stop ≤ b.start := by
  obtain ⟨before, hparts⟩ := w.parts_eq
  have hpairs : w.block.parts.Pairwise fun a b => a.stop ≤ b.start :=
    ((Node.pairwise_children (w.holds_block.spans hfits).1).filter _).filter _
  rw [hparts] at hpairs
  exact (List.pairwise_append.mp hpairs).2.1

variable {s first last : Node}

theorem fits_of_mem_following (hs : s ∈ w.following) : s.tree.fits source = true := by
  obtain ⟨before, hparts⟩ := w.parts_eq
  refine w.fits_of_mem_parts hfits ?_
  rw [hparts]
  exact List.mem_append_right _ (List.mem_cons_of_mem _ hs)

theorem pairwise_inside : w.inside.Pairwise fun a b => a.stop ≤ b.start := by
  have hpairs := (List.pairwise_cons.mp (w.pairwise_following hfits)).2
  rcases w.following_eq with ⟨close, heq, -⟩ | ⟨heq, -⟩ <;>
    exact (List.pairwise_append.mp (heq ▸ hpairs)).1

/-- No statement starts ahead of the first one. -/
theorem first_start_le (hfirst : w.inside.head? = some first) (hs : s ∈ w.inside) :
    first.start ≤ s.start := by
  obtain ⟨tail, htail⟩ := List.head?_eq_some_iff.mp hfirst
  have hle : first.start ≤ first.stop := Tree.start_le_stop _
    (w.fits_of_mem_following hfits (w.mem_following (List.mem_of_head? hfirst)))
  have hpairs := w.pairwise_inside hfits
  rw [htail] at hs hpairs
  rcases List.mem_cons.mp hs with rfl | hs
  · exact Nat.le_refl _
  · exact Nat.le_trans hle ((List.pairwise_cons.mp hpairs).1 s hs)

/-- No statement ends behind the last one. -/
theorem stop_le_last (hlast : w.inside.getLast? = some last) (hs : s ∈ w.inside) :
    s.stop ≤ last.stop := by
  obtain ⟨init, hinit⟩ := List.getLast?_eq_some_iff.mp hlast
  have hle : last.start ≤ last.stop := Tree.start_le_stop _
    (w.fits_of_mem_following hfits (w.mem_following (List.mem_of_getLast? hlast)))
  have hpairs := w.pairwise_inside hfits
  rw [hinit] at hs hpairs
  rcases List.mem_append.mp hs with hs | hs
  · exact Nat.le_trans ((List.pairwise_append.mp hpairs).2.2 s hs last (List.mem_singleton_self _))
      hle
  · rw [List.mem_singleton.mp hs]

/-- The text that is kept covers all statements. -/
theorem keptStart_le (hs : s ∈ w.inside) : w.keptStart ≤ s.start := by
  obtain ⟨first, hfirst⟩ : ∃ first, w.inside.head? = some first :=
    Option.isSome_iff_exists.mp (List.isSome_head?.mpr (List.ne_nil_of_mem hs))
  have hahead := (List.pairwise_cons.mp (w.pairwise_following hfits)).1 s (w.mem_following hs)
  have hline := Text.lineStart_le source first.start
  have hstart := w.first_start_le hfits hfirst hs
  rw [keptStart, bodyStart, hfirst]
  exact Nat.max_le.mpr ⟨hahead, Nat.le_trans hline hstart⟩

theorem le_bodyStop (hs : s ∈ w.inside) : s.stop ≤ w.bodyStop := by
  obtain ⟨last, hlast⟩ : ∃ last, w.inside.getLast? = some last :=
    Option.isSome_iff_exists.mp (List.getLast?_isSome.mpr (List.ne_nil_of_mem hs))
  rw [bodyStop, hlast]
  exact w.stop_le_last hfits hlast hs

theorem keptStart_le_bodyStop : w.keptStart ≤ w.bodyStop := by
  cases hinside : w.inside with
  | nil =>
    rw [keptStart, bodyStart, bodyStop, hinside]
    exact Nat.max_le.mpr ⟨Nat.le_refl _, Nat.le_refl _⟩
  | cons s tail =>
    have hs : s ∈ w.inside := hinside ▸ List.mem_cons_self
    exact Nat.le_trans (w.keptStart_le hfits hs) (Nat.le_trans
      (Tree.start_le_stop _ (w.fits_of_mem_following hfits (w.mem_following hs)))
      (w.le_bodyStop hfits hs))

/-- A closing call stands behind the statements. -/
theorem bodyStop_le_start {close : Node} (h : w.following = w.inside ++ close :: w.rest) :
    w.bodyStop ≤ close.start := by
  have hpairs := w.pairwise_following hfits
  rw [h] at hpairs
  obtain ⟨hahead, hpairs⟩ := List.pairwise_cons.mp hpairs
  rw [bodyStop]
  split
  · next last hlast =>
    exact (List.pairwise_append.mp hpairs).2.2 last (List.mem_of_getLast? hlast) close
      List.mem_cons_self
  · exact hahead close (List.mem_append_right _ List.mem_cons_self)

theorem bodyStop_le_stop : w.bodyStop ≤ w.stop := by
  rcases w.following_eq with ⟨close, heq, -, hstop⟩ | ⟨heq, last, hlast, hstop⟩
  · have hclose : close ∈ w.following := heq ▸ List.mem_append_right _ List.mem_cons_self
    rw [← hstop]
    exact Nat.le_trans (w.bodyStop_le_start hfits heq)
      (Tree.start_le_stop _ (w.fits_of_mem_following hfits hclose))
  · rw [bodyStop, hlast, ← hstop]

/-! ## Where the pieces meet -/

theorem isBoundary_declaration : Text.isBoundary source w.declaration.start = true ∧
    Text.isBoundary source w.declaration.stop = true := by
  obtain ⟨hstart, hstop, -⟩ := Tree.fits_iff.mp (w.holds_declaration.spans hfits).1
  exact ⟨hstart, hstop⟩

theorem isBoundary_bodyStart : Text.isBoundary source w.bodyStart = true := by
  rw [bodyStart]
  split
  · next first hfirst =>
    exact Text.isBoundary_lineStart (Tree.fits_iff.mp
      (w.fits_of_mem_following hfits (w.mem_following (List.mem_of_head? hfirst)))).1
  · exact (w.isBoundary_declaration hfits).2

theorem isBoundary_keptStart : Text.isBoundary source w.keptStart = true := by
  rcases Nat.le_total w.declaration.stop w.bodyStart with hle | hle
  · rw [keptStart, Nat.max_eq_right hle]
    exact w.isBoundary_bodyStart hfits
  · rw [keptStart, Nat.max_eq_left hle]
    exact (w.isBoundary_declaration hfits).2

theorem isBoundary_bodyStop : Text.isBoundary source w.bodyStop = true := by
  rw [bodyStop]
  split
  · next last hlast =>
    exact (Tree.fits_iff.mp
      (w.fits_of_mem_following hfits (w.mem_following (List.mem_of_getLast? hlast)))).2.1
  · exact (w.isBoundary_declaration hfits).2

theorem isBoundary_stop : Text.isBoundary source w.stop = true := by
  rcases w.following_eq with ⟨close, heq, -, hstop⟩ | ⟨heq, last, hlast, hstop⟩
  · have hclose : close ∈ w.following := heq ▸ List.mem_append_right _ List.mem_cons_self
    exact hstop ▸ (Tree.fits_iff.mp (w.fits_of_mem_following hfits hclose)).2.1
  · have hmem := w.mem_following (List.mem_of_getLast? hlast)
    exact hstop ▸ (Tree.fits_iff.mp (w.fits_of_mem_following hfits hmem)).2.1

/-! ## What is written -/

/-- The source is made of the pieces. -/
theorem source_eq : source =
    w.front ++ w.declaration.text source ++ w.gap ++ w.kept ++ w.closing ++ w.back := by
  obtain ⟨hstart, hstop⟩ := w.isBoundary_declaration hfits
  have hkeptStart := w.isBoundary_keptStart hfits
  have hbodyStop := w.isBoundary_bodyStop hfits
  have hwrapStop := w.isBoundary_stop hfits
  have hzero := Text.isBoundary_zero source
  have hsize := Text.isBoundary_size source
  have hle : w.declaration.start ≤ w.declaration.stop :=
    Tree.start_le_stop _ (w.holds_declaration.spans hfits).1
  have hgap : w.declaration.stop ≤ w.keptStart := Nat.le_max_left _ _
  have hkept := w.keptStart_le_bodyStop hfits
  have hclosing := w.bodyStop_le_stop hfits
  rw [front, Node.text, gap, kept, closing, back,
    Text.sliceD_append_sliceD (Nat.zero_le _) hle hzero hstart hstop,
    Text.sliceD_append_sliceD (Nat.zero_le _) hgap hzero hstop hkeptStart,
    Text.sliceD_append_sliceD (Nat.zero_le _) hkept hzero hkeptStart hbodyStop,
    Text.sliceD_append_sliceD (Nat.zero_le _) hclosing hzero hbodyStop hwrapStop,
    Text.sliceD_append_sliceD (Nat.zero_le _) (Text.le_of_isBoundary hwrapStop) hzero hwrapStop
      hsize, Text.sliceD_whole]

/-- The text that goes into the new block is what it repeats and what is kept. -/
theorem copied_eq : Text.sliceD source w.bodyStart w.bodyStop = w.repeated ++ w.kept :=
  (Text.sliceD_append_sliceD (Nat.le_max_right _ _) (w.keptStart_le_bodyStop hfits)
    (w.isBoundary_bodyStart hfits) (w.isBoundary_keptStart hfits)
    (w.isBoundary_bodyStop hfits)).symm

/-- But for blanks the new block has the text that goes into it. -/
theorem visible_bodyText : Text.visible
    (bodyText source (IndentStyle.infer source).unit w.inside) =
      Text.visible w.repeated ++ Text.visible w.kept := by
  have hunit := IndentStyle.visible_unit (IndentStyle.infer source)
  have hbreak : Text.visible "\n" = [] := rfl
  rw [← Text.visible_append, ← w.copied_eq hfits, bodyText, bodyStart, bodyStop]
  cases hinside : w.inside with
  | nil =>
    rw [List.head?_nil, List.getLast?_nil, Text.sliceD_self]
  | cons first tail =>
    rw [List.head?_cons, List.getLast?_cons]
    dsimp only
    rw [Text.visible_append, Text.visible_append, hunit, Text.visible_indentRest hunit, hbreak,
      List.nil_append, List.append_nil]

theorem visible_replacement : Text.visible w.replacement =
    "try(".toList ++ Text.visible w.header ++ ")\x7b".toList ++ Text.visible w.repeated ++
      Text.visible w.kept ++ "\x7d".toList := by
  have hhead : Text.visible "try (" = "try(".toList := by decide
  have hopen : Text.visible ") \x7b\n" = ")\x7b".toList := by decide
  have hclose : Text.visible "\x7d" = "\x7d".toList := by decide
  rw [replacement]
  simp only [Text.visible_append]
  rw [hhead, hopen, hclose, w.visible_bodyText hfits, Text.visible_lineIndent, List.append_nil,
    List.append_assoc _ (Text.visible w.repeated)]

/-- The statements begin on the line of the declaration's end if and only if they are copied from
ahead of that end. -/
theorem bodyStart_le_iff (hfirst : w.inside.head? = some first) :
    w.bodyStart ≤ w.declaration.stop ↔
      w.declaration.lastLine source = first.firstLine source := by
  have hahead := (List.pairwise_cons.mp (w.pairwise_following hfits)).1 first
    (w.mem_following (List.mem_of_head? hfirst))
  rw [bodyStart, hfirst, Node.lastLine, Node.firstLine]
  constructor
  · intro hle
    rw [(Text.lineStart_eq_of_le source hle hahead).2]
  · intro hline
    by_contra hlt
    have hrow := Text.rowOf_lt_of_lt_lineStart source (Nat.lt_of_not_le hlt)
    omega

/-- What is repeated is the end of the text up to the end of the declaration. -/
theorem exists_append_repeated (hle : w.bodyStart ≤ w.declaration.stop) :
    ∃ above : String, w.front ++ w.declaration.text source = above ++ w.repeated ∧
      above.utf8ByteSize = w.bodyStart := by
  obtain ⟨hstart, hstop⟩ := w.isBoundary_declaration hfits
  have hbody := w.isBoundary_bodyStart hfits
  have hzero := Text.isBoundary_zero source
  have hdeclaration : w.declaration.start ≤ w.declaration.stop :=
    Tree.start_le_stop _ (w.holds_declaration.spans hfits).1
  refine ⟨Text.sliceD source 0 w.bodyStart, ?_, ?_⟩
  · rw [front, Node.text, repeated, keptStart, Nat.max_eq_left hle,
      Text.sliceD_append_sliceD (Nat.zero_le _) hdeclaration hzero hstart hstop,
      Text.sliceD_append_sliceD (Nat.zero_le _) hle hzero hbody hstop]
  · rw [Text.utf8ByteSize_sliceD (Nat.zero_le _) hzero hbody, Nat.sub_zero]

omit hfits in
theorem gap_eq_empty (hle : w.bodyStart ≤ w.declaration.stop) : w.gap = "" := by
  rw [gap, keptStart, Nat.max_eq_left hle, Text.sliceD_self]

omit hfits in
theorem repeated_eq_empty (hle : w.declaration.stop ≤ w.bodyStart) : w.repeated = "" := by
  rw [repeated, keptStart, Nat.max_eq_right hle, Text.sliceD_self]

end

/-- The head of the `try` is the declaration without the semicolon at its end. -/
theorem exists_visible_declaration : ∃ n, Text.visible (w.declaration.text source) =
    Text.visible w.header ++ List.replicate n ';' := by
  obtain ⟨tail, hsplit, htail⟩ :=
    Text.exists_dropEndWhile_append (· == ';') (w.declaration.text source).toList
  have hsemicolons : tail = List.replicate tail.length ';' :=
    List.eq_replicate_iff.mpr ⟨rfl, fun c hc => by simpa using htail c hc⟩
  refine ⟨tail.length, ?_⟩
  have hvisible : tail.filter (!Text.isBlank ·) = tail := by
    rw [hsemicolons, List.filter_replicate]
    rfl
  rw [header, Text.visible_trimEnd, Text.visible, Text.visible, String.toList_ofList,
    ← hsemicolons]
  conv_lhs => rw [hsplit, List.filter_append, hvisible]

end Wrapping

/-- The statements of the region stand in the new block once and in their order, with all that is
between them, and ahead of them the declaration is the head of the `try`.  What stands between the
line of the declaration and the line of the first statement is lost, and so is what stands behind
the last one.  When the two share a line, the new block begins with that line up to the end of the
declaration. -/
theorem wrapped_text {d : Defect} {source : String} {t : Tree} {r : Rewrite}
    (hfits : t.fits source = true) (h : rewrite d source t = .ok r) :
    ∃ (w : Wrapping d source t) (content : String) (shifts : List LineShift),
      r = .edit content shifts w.description ∧
      source = w.front ++ w.declaration.text source ++ w.gap ++ w.kept ++ w.closing ++ w.back ∧
      content = w.front ++ w.replacement ++ w.back ∧
      Text.visible w.replacement =
        "try(".toList ++ Text.visible w.header ++ ")\x7b".toList ++ Text.visible w.repeated ++
          Text.visible w.kept ++ "\x7d".toList ∧
      (∃ n, Text.visible (w.declaration.text source) =
        Text.visible w.header ++ List.replicate n ';') ∧
      (∀ s ∈ w.inside, w.keptStart ≤ s.start ∧ s.stop ≤ w.bodyStop) ∧
      ∀ first, w.inside.head? = some first →
        if w.declaration.lastLine source = first.firstLine source then
          w.gap = "" ∧ ∃ above : String, w.front ++ w.declaration.text source = above ++ w.repeated ∧
            above.utf8ByteSize = Text.lineStart source first.start
        else w.repeated = "" := by
  obtain ⟨w, hedit⟩ := exists_wrapping h
  obtain ⟨front, removed, back, shifts, hsource, hfront, hback, hr⟩ :=
    Rewrite.ofEdits_replace_eq_ok hedit
  have hfront' : front = w.front := by
    rw [Wrapping.front, ← hfront, hsource, String.append_assoc]
    simpa using (Text.sliceD_append "" front (removed ++ back)).symm
  have hback' : back = w.back := by
    rw [Wrapping.back, ← hback, hsource, Text.sliceD_rest]
  refine ⟨w, _, shifts, hr, w.source_eq hfits, by rw [hfront', hback'],
    w.visible_replacement hfits, w.exists_visible_declaration,
    fun s hs => ⟨w.keptStart_le hfits hs, w.le_bodyStop hfits hs⟩, ?_⟩
  intro first hfirst
  have hline := w.bodyStart_le_iff hfits hfirst
  have hstart : w.bodyStart = Text.lineStart source first.start := by
    rw [Wrapping.bodyStart, hfirst]
  split
  · next hsame =>
    have hle := hline.mpr hsame
    rw [← hstart]
    exact ⟨w.gap_eq_empty hle, w.exists_append_repeated hfits hle⟩
  · next hdiffers =>
    exact w.repeated_eq_empty (Nat.le_of_lt (Nat.lt_of_not_le fun hle => hdiffers (hline.mp hle)))

/-! ## A statement on the line of the declaration -/

/-- A method that declares a resource and uses it on one line. -/
def penSource : String :=
  "class A \x7b\n    void f() \x7b\n        Pen p = new Pen(); p.draw();\n        p.close();\n" ++
    "    \x7d\n\x7d\n"

/-- Its tree. -/
def penTree : Tree :=
  ⟨.program, none, false, 0, 89, [⟨.classDeclaration, none, false, 0, 88, [
    ⟨.token "class", none, false, 0, 5, []⟩, ⟨.identifier, some .name, false, 6, 7, []⟩,
    ⟨.classBody, some .body, false, 8, 88, [⟨.token "\x7b", none, false, 8, 9, []⟩,
    ⟨.methodDeclaration, none, false, 14, 86, [⟨.voidType, some .type, false, 14, 18, []⟩,
    ⟨.identifier, some .name, false, 19, 20, []⟩,
    ⟨.formalParameters, some .parameters, false, 20, 22, [⟨.token "(", none, false, 20, 21, []⟩,
    ⟨.token ")", none, false, 21, 22, []⟩]⟩, ⟨.block, some .body, false, 23, 86, [
    ⟨.token "\x7b", none, false, 23, 24, []⟩, ⟨.localVariableDeclaration, none, false, 33, 51, [
    ⟨.typeIdentifier, some .type, false, 33, 36, []⟩,
    ⟨.variableDeclarator, some .declarator, false, 37, 50, [
    ⟨.identifier, some .name, false, 37, 38, []⟩, ⟨.token "=", none, false, 39, 40, []⟩,
    ⟨.objectCreationExpression, some .value, false, 41, 50, [
    ⟨.token "new", none, false, 41, 44, []⟩, ⟨.typeIdentifier, some .type, false, 45, 48, []⟩,
    ⟨.argumentList, some .arguments, false, 48, 50, [⟨.token "(", none, false, 48, 49, []⟩,
    ⟨.token ")", none, false, 49, 50, []⟩]⟩]⟩]⟩, ⟨.token ";", none, false, 50, 51, []⟩]⟩,
    ⟨.expressionStatement, none, false, 52, 61, [⟨.methodInvocation, none, false, 52, 60, [
    ⟨.identifier, some .object, false, 52, 53, []⟩, ⟨.token ".", none, false, 53, 54, []⟩,
    ⟨.identifier, some .name, false, 54, 58, []⟩, ⟨.argumentList, some .arguments, false, 58, 60, [
    ⟨.token "(", none, false, 58, 59, []⟩, ⟨.token ")", none, false, 59, 60, []⟩]⟩]⟩,
    ⟨.token ";", none, false, 60, 61, []⟩]⟩, ⟨.expressionStatement, none, false, 70, 80, [
    ⟨.methodInvocation, none, false, 70, 79, [⟨.identifier, some .object, false, 70, 71, []⟩,
    ⟨.token ".", none, false, 71, 72, []⟩, ⟨.identifier, some .name, false, 72, 77, []⟩,
    ⟨.argumentList, some .arguments, false, 77, 79, [⟨.token "(", none, false, 77, 78, []⟩,
    ⟨.token ")", none, false, 78, 79, []⟩]⟩]⟩, ⟨.token ";", none, false, 79, 80, []⟩]⟩,
    ⟨.token "\x7d", none, false, 85, 86, []⟩]⟩]⟩, ⟨.token "\x7d", none, false, 87, 88, []⟩]⟩]⟩]⟩

/-- The record of the resource. -/
def penDefect : Defect := { category := "resource-leak", file := ⟨"A.java"⟩, startLine := 3 }

/-- The new block declares the resource once more, ahead of the statement. -/
theorem declaration_is_repeated_pen : penTree.fits penSource = true ∧ ∃ shifts description,
    rewrite penDefect penSource penTree = .ok (.edit ("class A \x7b\n    void f() \x7b\n" ++
      ("        try (Pen p = new Pen()) \x7b\n            Pen p = new Pen(); p.draw();\n" ++
        "        \x7d\n    \x7d\n\x7d\n")) shifts description) :=
  ⟨by decide +kernel, Rewrite.exists_of_content? (by decide +kernel)⟩

end Amend.Refactoring.Resource
