import Amend.Edit
import Amend.Proofs.Text.Cut
import Mathlib.Data.Prod.Lex
import Mathlib.Tactic.Common

/-!
# Edit sets read from left to right

A set of edits is kept in the order of start, end and priority and done from its last edit to its
first.  This module says what that comes to: a list of edits is accepted exactly when its edits lie
in the source and none starts before the one read ahead of it has ended, and the edited text is what
a reader gets who copies the source up to each edit, puts the replacement, and goes on behind it.
-/

namespace Amend

namespace TextEdit

/-! ## Reading order -/

/-- What edits are ordered by: the start, then the end, then the priority. -/
def key (e : TextEdit) : ℕ ×ₗ ℕ ×ₗ ℤ := toLex (e.start, toLex (e.stop, e.priority))

theorem key_le_iff {a b : TextEdit} :
    a.key ≤ b.key ↔
      a.start < b.start ∨ a.start = b.start ∧
        (a.stop < b.stop ∨ a.stop = b.stop ∧ a.priority ≤ b.priority) := by
  simp only [key, Prod.Lex.toLex_le_toLex]

theorem before_iff {a b : TextEdit} : before a b = true ↔ a.key ≤ b.key := by
  simp [before, key_le_iff]

theorem before_trans (a b c : TextEdit) (hab : before a b) (hbc : before b c) :
    before a c :=
  before_iff.mpr ((before_iff.mp hab).trans (before_iff.mp hbc))

theorem before_total (a b : TextEdit) : before a b || before b a := by
  rw [Bool.or_eq_true, before_iff, before_iff]
  exact le_total a.key b.key

/-- `ordered` holds the edits of `edits` by start, end and priority; edits that agree in all three
stay in the order of `edits`. -/
structure InReadingOrder (edits ordered : List TextEdit) : Prop where
  sorted : ordered.Pairwise fun a b => a.key ≤ b.key
  stable : ∀ k, ordered.filter (·.key = k) = edits.filter (·.key = k)

namespace InReadingOrder

variable {edits ordered : List TextEdit}

theorem mem_iff (h : InReadingOrder edits ordered) (e : TextEdit) : e ∈ ordered ↔ e ∈ edits := by
  have hk := congrArg (e ∈ ·) (h.stable e.key)
  simpa using hk

theorem perm (h : InReadingOrder edits ordered) : ordered.Perm edits := by
  refine List.perm_iff_count.mpr fun e => ?_
  have hk := congrArg (List.count e) (h.stable e.key)
  rwa [List.count_filter (by simp), List.count_filter (by simp)] at hk

/-- The edits behind the first one of a reading order are in reading order. -/
theorem key_le_of_mem {e f : TextEdit} {rest : List TextEdit}
    (h : (e :: rest).Pairwise fun a b => a.key ≤ b.key) (hf : f ∈ e :: rest) :
    e.key ≤ f.key := by
  rcases List.mem_cons.mp hf with rfl | hf
  · exact le_rfl
  · exact (List.pairwise_cons.mp h).1 f hf

/-- There is one reading order of a list of edits. -/
theorem eq_of_sorted {xs ys : List TextEdit}
    (hxs : xs.Pairwise fun a b => a.key ≤ b.key) (hys : ys.Pairwise fun a b => a.key ≤ b.key)
    (h : ∀ k, xs.filter (·.key = k) = ys.filter (·.key = k)) : xs = ys := by
  induction xs generalizing ys with
  | nil =>
    cases ys with
    | nil => rfl
    | cons y ys => simpa using h y.key
  | cons x xs ih =>
    cases ys with
    | nil => simpa using h x.key
    | cons y ys =>
      have hx : x ∈ (y :: ys).filter (·.key = x.key) := by
        rw [← h x.key]
        simp
      have hy : y ∈ (x :: xs).filter (·.key = y.key) := by
        rw [h y.key]
        simp
      have hxy : x.key = y.key :=
        le_antisymm (key_le_of_mem hxs (List.mem_filter.mp hy).1)
          (key_le_of_mem hys (List.mem_filter.mp hx).1)
      have hhead : x = y ∧
          xs.filter (·.key = x.key) = ys.filter (·.key = x.key) := by
        simpa [hxy] using h x.key
      obtain ⟨rfl, htail⟩ := hhead
      congr 1
      refine ih (List.pairwise_cons.mp hxs).2 (List.pairwise_cons.mp hys).2 fun k => ?_
      by_cases hk : x.key = k
      · rw [← hk]
        exact htail
      · simpa [hk] using h k

theorem unique {other : List TextEdit}
    (h : InReadingOrder edits ordered) (h' : InReadingOrder edits other) : ordered = other :=
  eq_of_sorted h.sorted h'.sorted fun k => (h.stable k).trans (h'.stable k).symm

/-- Lists that agree on every group of edits of one key have the same reading order. -/
theorem congr {edits' : List TextEdit} (h : InReadingOrder edits ordered)
    (hsame : ∀ k, edits'.filter (·.key = k) = edits.filter (·.key = k)) :
    InReadingOrder edits' ordered :=
  ⟨h.sorted, fun k => (h.stable k).trans (hsame k).symm⟩

end InReadingOrder

theorem filter_mergeSort (edits : List TextEdit) (k : ℕ ×ₗ ℕ ×ₗ ℤ) :
    (edits.mergeSort before).filter (·.key = k) = edits.filter (·.key = k) := by
  induction edits with
  | nil => simp
  | cons e edits ih =>
    obtain ⟨l₁, l₂, hcons, hrest, hl₁⟩ :=
      List.mergeSort_cons before_trans before_total e edits
    have hnone : e.key = k → l₁.filter (·.key = k) = [] := by
      intro hk
      rw [List.filter_eq_nil_iff]
      intro b hb hbk
      have hnot : ¬ e.key ≤ b.key := by simpa [← before_iff] using hl₁ b hb
      exact hnot (by simpa [hk] using (of_decide_eq_true hbk).ge)
    rw [hrest] at ih
    rw [hcons, List.filter_append, List.filter_cons, List.filter_cons, ← ih, List.filter_append]
    by_cases hk : e.key = k
    · simp [hk, hnone hk]
    · simp [hk]

theorem inReadingOrder_mergeSort (edits : List TextEdit) :
    InReadingOrder edits (edits.mergeSort before) where
  sorted := (List.pairwise_mergeSort before_trans before_total edits).imp before_iff.mp
  stable := filter_mergeSort edits

/-! ## Acceptance -/

/-- Whether the span of an edit is in order and inside a source of the given size. -/
def Fits (e : TextEdit) (sourceSize : Nat) : Prop := e.start ≤ e.stop ∧ e.stop ≤ sourceSize

/-- Whether each edit ends no later than those read after it start. -/
def Apart (ordered : List TextEdit) : Prop := ordered.Pairwise fun a b => a.stop ≤ b.start

theorem inBounds_iff {e : TextEdit} {n : Nat} : e.inBounds n = true ↔ e.Fits n := by
  simp [inBounds, Fits]

theorem clashes_iff {a b : TextEdit} : a.clashes b = true ↔ b.start < a.stop := by
  simp only [clashes, isInsertion, Bool.and_eq_true, Bool.not_eq_true', Bool.and_eq_false_iff,
    beq_eq_false_iff_ne, decide_eq_true_eq, gt_iff_lt, and_iff_right_iff_imp]
  omega

/-- An edit that ends before its neighbour starts ends before all later ones start. -/
theorem Apart.cons {a b : TextEdit} {rest : List TextEdit} (hb : b.start ≤ b.stop)
    (hab : a.stop ≤ b.start) (h : Apart (b :: rest)) : Apart (a :: b :: rest) := by
  refine List.pairwise_cons.mpr ⟨fun c hc => ?_, h⟩
  rcases List.mem_cons.mp hc with rfl | hc
  · exact hab
  · have hbc : b.stop ≤ c.start := (List.pairwise_cons.mp h).1 c hc
    omega

/-- Neighbours are enough to look at: no two of them overlap exactly when no two edits do. -/
theorem firstClash?_eq_none_iff {n : Nat} {ordered : List TextEdit}
    (hfits : ∀ e ∈ ordered, e.Fits n) : firstClash? ordered = none ↔ Apart ordered := by
  fun_induction firstClash? ordered with
  | case1 a b rest hclash =>
    have hlt := clashes_iff.mp hclash
    simp only [reduceCtorEq, false_iff]
    intro h
    have hab : a.stop ≤ b.start := (List.pairwise_cons.mp h).1 b List.mem_cons_self
    omega
  | case2 a b rest hclash ih =>
    have hab : a.stop ≤ b.start := by simpa [clashes_iff] using hclash
    rw [ih fun e he => hfits e (List.mem_cons_of_mem a he)]
    constructor
    · exact Apart.cons (hfits b (by simp)).1 hab
    · exact fun h => (List.pairwise_cons.mp h).2
  | case3 ordered hshort =>
    simp only [true_iff]
    match ordered, hshort with
    | [], _ => exact List.Pairwise.nil
    | [a], _ => exact List.pairwise_singleton _ a
    | a :: b :: rest, hshort => exact (hshort a b rest rfl).elim

/-- The overlap that is found is the first one among neighbours. -/
theorem firstClash?_eq_some {n : Nat} {ordered : List TextEdit} {a b : TextEdit}
    (hfits : ∀ e ∈ ordered, e.Fits n) (h : firstClash? ordered = some (a, b)) :
    ∃ front back, ordered = front ++ a :: b :: back ∧ Apart (front ++ [a]) ∧
      b.start < a.stop := by
  fun_induction firstClash? ordered with
  | case1 c d rest hclash =>
    cases h
    exact ⟨[], rest, rfl, List.pairwise_singleton _ a, clashes_iff.mp hclash⟩
  | case2 c d rest hclash ih =>
    have hcd : c.stop ≤ d.start := by simpa [clashes_iff] using hclash
    obtain ⟨front, back, heq, hapart, hlt⟩ :=
      ih (fun e he => hfits e (List.mem_cons_of_mem c he)) h
    refine ⟨c :: front, back, by rw [heq, List.cons_append], ?_, hlt⟩
    -- `d` heads the list behind `c`, whether `front` is empty or not
    cases front with
    | nil =>
      obtain ⟨rfl, -⟩ : d = a ∧ rest = b :: back := by simpa using heq
      exact Apart.cons (hfits d (by simp)).1 hcd hapart
    | cons f front =>
      obtain ⟨rfl, -⟩ : d = f ∧ rest = front ++ a :: b :: back := by simpa using heq
      exact Apart.cons (hfits d (by simp)).1 hcd hapart
  | case3 ordered hshort => simp at h

end TextEdit

namespace EditSet

open TextEdit

variable {edits ordered : List TextEdit} {n : Nat}

/-- The outcome for edits that all fit depends on their reading order only. -/
theorem ofList_of_fits (hfits : ∀ e ∈ edits, e.Fits n) (ho : InReadingOrder edits ordered) :
    ofList edits n = match firstClash? ordered with
      | some (a, b) => .error (.overlapping a b)
      | none => .ok ⟨ordered⟩ := by
  have hnone : edits.find? (fun e => !e.inBounds n) = none := by
    rw [List.find?_eq_none]
    intro e he
    simpa using inBounds_iff.mpr (hfits e he)
  have hsorted := (inReadingOrder_mergeSort edits).unique ho
  cases hclash : firstClash? ordered <;> simp [ofList, hnone, hsorted, hclash]

/-- The first edit that does not fit is the one reported. -/
theorem ofList_of_not_fits {front back : List TextEdit} {bad : TextEdit}
    (hfront : ∀ e ∈ front, e.Fits n) (hbad : ¬ bad.Fits n) :
    ofList (front ++ bad :: back) n = .error (.outOfBounds bad n) := by
  have hfind : (front ++ bad :: back).find? (fun e => !e.inBounds n) = some bad := by
    rw [List.find?_eq_some_iff_append]
    refine ⟨by simpa [← inBounds_iff] using hbad, front, back, rfl, ?_⟩
    intro e he
    simpa using inBounds_iff.mpr (hfront e he)
  rw [ofList, hfind]

/-- Either all edits fit or there is a first one that does not. -/
theorem fits_or_first_misfit (edits : List TextEdit) (n : Nat) :
    (∀ e ∈ edits, e.Fits n) ∨ ∃ front bad back,
      edits = front ++ bad :: back ∧ (∀ e ∈ front, e.Fits n) ∧ ¬ bad.Fits n := by
  induction edits with
  | nil => simp
  | cons e edits ih =>
    by_cases he : e.Fits n
    · rcases ih with hall | ⟨front, bad, back, rfl, hfront, hbad⟩
      · exact Or.inl (List.forall_mem_cons.mpr ⟨he, hall⟩)
      · exact Or.inr ⟨e :: front, bad, back, rfl, List.forall_mem_cons.mpr ⟨he, hfront⟩, hbad⟩
    · exact Or.inr ⟨[], e, edits, rfl, by simp, he⟩

/-- A list is accepted exactly when its edits fit and, read in order, do not overlap. -/
theorem ofList_eq_ok_iff (ho : InReadingOrder edits ordered) (set : EditSet) :
    ofList edits n = .ok set ↔
      set = ⟨ordered⟩ ∧ (∀ e ∈ edits, e.Fits n) ∧ Apart ordered := by
  rcases fits_or_first_misfit edits n with hfits | ⟨front, bad, back, rfl, hfront, hbad⟩
  · have hfits' : ∀ e ∈ ordered, e.Fits n := fun e he => hfits e ((ho.mem_iff e).mp he)
    rw [ofList_of_fits hfits ho, ← firstClash?_eq_none_iff hfits']
    cases hclash : firstClash? ordered with
    | none =>
      simp only [Except.ok.injEq, and_true]
      constructor
      · rintro rfl
        exact ⟨rfl, hfits⟩
      · rintro ⟨rfl, -⟩
        rfl
    | some pair => simp
  · rw [ofList_of_not_fits hfront hbad]
    simp only [reduceCtorEq, false_iff]
    rintro ⟨-, hfits, -⟩
    exact hbad (hfits bad (by simp))

/-! ## Application -/

/-- The source from an offset on as a reader copies it: up to the next edit, then its replacement,
then on behind it. -/
def readThrough (source : String) (start : Nat) : List TextEdit → String
  | [] => Text.sliceD source start source.utf8ByteSize
  | e :: rest =>
    Text.sliceD source start e.start ++ e.replacement ++ readThrough source e.stop rest

/-- Whether both ends of an edit delimit text. -/
def OnBoundaries (source : String) (e : TextEdit) : Prop :=
  Text.isBoundary source e.start = true ∧ Text.isBoundary source e.stop = true

/-- An edit behind a beginning of the text lies between two pieces of the rest. -/
theorem exists_pieces {a z : String} {e : TextEdit} (hb : OnBoundaries (a ++ z) e)
    (hstart : a.utf8ByteSize ≤ e.start) (horder : e.start ≤ e.stop) :
    ∃ gap removed after : String, z = gap ++ removed ++ after ∧
      a.utf8ByteSize + gap.utf8ByteSize = e.start ∧
      e.start + removed.utf8ByteSize = e.stop := by
  obtain ⟨gap, z', rfl, hgap⟩ := Text.exists_append_of_isBoundary hb.1 hstart
  have hstop : Text.isBoundary (a ++ gap ++ z') e.stop = true := by
    rw [String.append_assoc]
    exact hb.2
  have hle : (a ++ gap).utf8ByteSize ≤ e.stop := by
    rw [String.utf8ByteSize_append]
    omega
  obtain ⟨removed, after, rfl, hremoved⟩ := Text.exists_append_of_isBoundary hstop hle
  refine ⟨gap, removed, after, by rw [String.append_assoc], hgap, ?_⟩
  rw [String.utf8ByteSize_append] at hremoved
  omega

/-- The edits turn a piece of the source, which starts at an offset, into `out`: each edit cuts
what is left of the piece into the gap ahead of it, what it removes, and the rest. -/
inductive Rewrites : Nat → String → List TextEdit → String → Prop
  | done (start : Nat) (z : String) : Rewrites start z [] z
  | edit {start : Nat} {gap removed after out : String} {e : TextEdit} {rest : List TextEdit}
      (hstart : start + gap.utf8ByteSize = e.start)
      (hstop : e.start + removed.utf8ByteSize = e.stop)
      (hrest : Rewrites e.stop after rest out) :
      Rewrites start (gap ++ removed ++ after) (e :: rest) (gap ++ e.replacement ++ out)

/-- Edits that fit, do not overlap and delimit text rewrite what follows a beginning of the
source. -/
theorem exists_rewrites {a z : String} (hfits : ∀ e ∈ ordered, e.Fits (a ++ z).utf8ByteSize)
    (hapart : Apart ordered) (hstart : ∀ e ∈ ordered, a.utf8ByteSize ≤ e.start)
    (hb : ∀ e ∈ ordered, OnBoundaries (a ++ z) e) :
    ∃ out, Rewrites a.utf8ByteSize z ordered out := by
  induction ordered generalizing a z with
  | nil => exact ⟨z, .done _ z⟩
  | cons e rest ih =>
    obtain ⟨gap, removed, after, rfl, hgap, hremoved⟩ :=
      exists_pieces (hb e List.mem_cons_self) (hstart e List.mem_cons_self)
        (hfits e List.mem_cons_self).1
    have hsource : a ++ (gap ++ removed ++ after) = a ++ gap ++ removed ++ after := by
      simp only [String.append_assoc]
    have hsize : (a ++ gap ++ removed).utf8ByteSize = e.stop := by
      simp only [String.utf8ByteSize_append]
      omega
    rw [hsource] at hfits hb
    obtain ⟨out, hout⟩ := ih (a := a ++ gap ++ removed) (z := after)
      (fun f hf => hfits f (List.mem_cons_of_mem e hf)) (List.pairwise_cons.mp hapart).2
      (fun f hf => by
        rw [hsize]
        exact (List.pairwise_cons.mp hapart).1 f hf)
      (fun f hf => hb f (List.mem_cons_of_mem e hf))
    rw [hsize] at hout
    exact ⟨gap ++ e.replacement ++ out, .edit hgap hremoved hout⟩

namespace Rewrites

variable {start : Nat} {a z out : String}

/-- The spans of an edit in the source, around which the source is cut in pieces. -/
theorem span {gap removed : String} {e : TextEdit}
    (ha : a.utf8ByteSize = start) (hstart : start + gap.utf8ByteSize = e.start)
    (hstop : e.start + removed.utf8ByteSize = e.stop) :
    e.start = (a ++ gap).utf8ByteSize ∧
      e.stop = (a ++ gap).utf8ByteSize + removed.utf8ByteSize := by
  rw [String.utf8ByteSize_append]
  omega

/-- What is rewritten is what is read through the edits. -/
theorem readThrough_eq (h : Rewrites start z ordered out) (ha : a.utf8ByteSize = start) :
    readThrough (a ++ z) start ordered = out := by
  induction h generalizing a with
  | done start z =>
    rw [readThrough, ← ha]
    exact Text.sliceD_rest a z
  | @edit start gap removed after out e rest hstart hstop hrest ih =>
    have hgap : Text.sliceD (a ++ (gap ++ removed ++ after)) start e.start = gap := by
      rw [← hstart, ← ha, @String.append_assoc gap, ← String.append_assoc]
      exact Text.sliceD_append a gap (removed ++ after)
    have hsource : a ++ (gap ++ removed ++ after) = a ++ gap ++ removed ++ after := by
      simp only [String.append_assoc]
    have hbehind : (a ++ gap ++ removed).utf8ByteSize = e.stop := by
      rw [String.utf8ByteSize_append, (span ha hstart hstop).2]
    rw [readThrough, hgap, hsource, ih hbehind]

/-- Doing the edits from the last one to the first rewrites the piece. -/
theorem applyTo?_eq (h : Rewrites start z ordered out) (ha : a.utf8ByteSize = start) :
    applyTo? ⟨ordered⟩ (a ++ z) = some (a ++ out) := by
  induction h generalizing a with
  | done start z => rfl
  | @edit start gap removed after out e rest hstart hstop hrest ih =>
    have hspan := span ha hstart hstop
    have hbehind : (a ++ gap ++ removed).utf8ByteSize = e.stop := by
      rw [String.utf8ByteSize_append, hspan.2]
    have hsource : a ++ (gap ++ removed ++ after) = a ++ gap ++ removed ++ after := by
      simp only [String.append_assoc]
    calc applyTo? ⟨e :: rest⟩ (a ++ (gap ++ removed ++ after))
        = (applyTo? ⟨rest⟩ (a ++ gap ++ removed ++ after)).bind
            fun t => Text.splice? t e.start e.stop e.replacement := by
          rw [hsource]
          rfl
      _ = Text.splice? (a ++ gap ++ removed ++ out) e.start e.stop e.replacement := by
          rw [ih hbehind, Option.bind_some]
      _ = some (a ++ gap ++ e.replacement ++ out) := by
          rw [hspan.1, hspan.2, Text.splice?_append]
      _ = some (a ++ (gap ++ e.replacement ++ out)) := by
          simp only [String.append_assoc]

end Rewrites

/-- An accepted set whose offsets all delimit text turns the source into what is read through its
edits. -/
theorem applyTo?_eq_readThrough (source : String)
    (hfits : ∀ e ∈ ordered, e.Fits source.utf8ByteSize) (hapart : Apart ordered)
    (hb : ∀ e ∈ ordered, OnBoundaries source e) :
    applyTo? ⟨ordered⟩ source = some (readThrough source 0 ordered) := by
  obtain ⟨out, hout⟩ := exists_rewrites (a := "") (z := source) (by simpa using hfits) hapart
    (by simp) (by simpa using hb)
  have happly := hout.applyTo?_eq (a := "") rfl
  have hread := hout.readThrough_eq (a := "") rfl
  rw [String.empty_append] at happly hread
  rw [happly, String.empty_append, ← hread]
  rfl

theorem toOption_eq_some_iff {ε α : Type} {r : Except ε α} {x : α} :
    r.toOption = some x ↔ r = .ok x := by
  cases r <;> simp [Except.toOption]

/-- Edit sets mean what a left-to-right reading says.  The edits of any list have a reading order;
the list is accepted exactly when all edits fit into the source and none starts before the one read
ahead of it has ended.  Otherwise the first edit that does not fit is reported, or else two
neighbours in reading order that overlap, the first such pair.  An accepted set whose offsets all
delimit text turns the source into what a reader gets who copies it up to each edit, puts the
replacement and goes on behind the edit.  Lists that order the edits of each key alike come to the
same set. -/
theorem ofList_reads_left_to_right (source : String) (edits : List TextEdit) :
    ∃ ordered, InReadingOrder edits ordered ∧
      (∀ set, ofList edits source.utf8ByteSize = .ok set ↔
        set = ⟨ordered⟩ ∧ (∀ e ∈ edits, e.Fits source.utf8ByteSize) ∧ Apart ordered) ∧
      (∀ front bad back, edits = front ++ bad :: back →
        (∀ e ∈ front, e.Fits source.utf8ByteSize) → ¬ bad.Fits source.utf8ByteSize →
          ofList edits source.utf8ByteSize =
            .error (.outOfBounds bad source.utf8ByteSize)) ∧
      ((∀ e ∈ edits, e.Fits source.utf8ByteSize) → ¬ Apart ordered →
        ∃ front a b back, ordered = front ++ a :: b :: back ∧ Apart (front ++ [a]) ∧
          b.start < a.stop ∧
          ofList edits source.utf8ByteSize = .error (.overlapping a b)) ∧
      (∀ set, ofList edits source.utf8ByteSize = .ok set →
        (∀ e ∈ edits, OnBoundaries source e) →
          set.applyTo? source = some (readThrough source 0 ordered)) ∧
      (∀ edits', (∀ k, edits'.filter (·.key = k) = edits.filter (·.key = k)) →
        (ofList edits' source.utf8ByteSize).toOption =
          (ofList edits source.utf8ByteSize).toOption) := by
  have ho := inReadingOrder_mergeSort edits
  refine ⟨_, ho, ofList_eq_ok_iff ho, ?_, ?_, ?_, ?_⟩
  · rintro front bad back rfl hfront hbad
    exact ofList_of_not_fits hfront hbad
  · intro hfits hoverlap
    have hfits' : ∀ e ∈ edits.mergeSort before, e.Fits source.utf8ByteSize :=
      fun e he => hfits e ((ho.mem_iff e).mp he)
    cases hclash : firstClash? (edits.mergeSort before) with
    | none => exact (hoverlap ((firstClash?_eq_none_iff hfits').mp hclash)).elim
    | some pair =>
      obtain ⟨a, b⟩ := pair
      obtain ⟨front, back, heq, hapart, hlt⟩ := firstClash?_eq_some hfits' hclash
      refine ⟨front, a, b, back, heq, hapart, hlt, ?_⟩
      rw [ofList_of_fits hfits ho, hclash]
  · intro set hset hb
    obtain ⟨rfl, hfits, hapart⟩ := (ofList_eq_ok_iff ho set).mp hset
    exact applyTo?_eq_readThrough source
      (fun e he => hfits e ((ho.mem_iff e).mp he)) hapart
      (fun e he => hb e ((ho.mem_iff e).mp he))
  · intro edits' hsame
    have ho' := ho.congr hsame
    have hmem : ∀ e, e ∈ edits' ↔ e ∈ edits := fun e =>
      (ho'.mem_iff e).symm.trans (ho.mem_iff e)
    refine Option.ext fun set => ?_
    rw [toOption_eq_some_iff, toOption_eq_some_iff, ofList_eq_ok_iff ho', ofList_eq_ok_iff ho]
    simp only [hmem]

end EditSet

end Amend
