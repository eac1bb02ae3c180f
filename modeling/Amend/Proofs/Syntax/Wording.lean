import Amend.Syntax.Node
import Amend.Proofs.Text.Cut

/-!
# What a tree says

The wording of a tree is what is left of it without its offsets: kinds, roles and the words that
its nodes cover.  A tree in a part of a text that stays as it is has the same wording after the rest
of the text has changed, in its old place or moved along with its part.
-/

namespace Amend

namespace Text

/-! ## Slices of a part of a text -/

variable {a b c d : String} {i j : Nat}

theorem isBoundary_append_left (h : i ≤ a.utf8ByteSize) :
    isBoundary (a ++ b) i = isBoundary a i := by
  rw [Bool.eq_iff_iff]
  constructor
  · intro hab
    obtain ⟨x, y, hxy, rfl⟩ := isBoundary_iff.mp hab
    have hcut : isBoundary (x ++ y) a.utf8ByteSize = true := by
      rw [← hxy]
      exact isBoundary_append a b
    obtain ⟨m, z, rfl, hm⟩ := exists_append_of_isBoundary hcut h
    rw [← String.append_assoc] at hxy
    obtain ⟨rfl, -⟩ := append_inj_of_size_eq hxy (by simpa using hm.symm)
    exact isBoundary_append x m
  · intro ha
    obtain ⟨x, y, rfl, rfl⟩ := isBoundary_iff.mp ha
    rw [String.append_assoc]
    exact isBoundary_append x (y ++ b)

theorem isBoundary_append_right :
    isBoundary (a ++ b) (a.utf8ByteSize + i) = isBoundary b i := by
  rw [Bool.eq_iff_iff]
  constructor
  · intro hab
    obtain ⟨m, z, rfl, hm⟩ := exists_append_of_isBoundary hab (Nat.le_add_right _ _)
    obtain rfl : m.utf8ByteSize = i := by omega
    exact isBoundary_append m z
  · intro hb
    obtain ⟨x, y, rfl, rfl⟩ := isBoundary_iff.mp hb
    rw [← String.append_assoc, ← String.utf8ByteSize_append]
    exact isBoundary_append (a ++ x) y

theorem slice?_eq_none_iff {s : String} : slice? s i j = none ↔
    ¬ (i ≤ j ∧ isBoundary s i = true ∧ isBoundary s j = true) := by
  rw [slice?]
  split <;> simp_all

/-- A slice of a beginning of a text does not depend on what follows. -/
theorem sliceD_append_left (h : j ≤ a.utf8ByteSize) : sliceD (a ++ b) i j = sliceD a i j := by
  rw [sliceD, sliceD]
  congr 1
  cases ha : slice? a i j with
  | none =>
    rw [slice?_eq_none_iff] at ha ⊢
    rintro ⟨hij, hi, hj⟩
    rw [isBoundary_append_left (Nat.le_trans hij h)] at hi
    rw [isBoundary_append_left h] at hj
    exact ha ⟨hij, hi, hj⟩
  | some t =>
    obtain ⟨x, z, rfl, hx, ht⟩ := slice?_eq_some_iff.mp ha
    exact slice?_eq_some_iff.mpr ⟨x, z ++ b, by simp only [String.append_assoc], hx, ht⟩

/-- A slice of what follows a beginning does not depend on that beginning. -/
theorem sliceD_append_right :
    sliceD (a ++ b) (a.utf8ByteSize + i) (a.utf8ByteSize + j) = sliceD b i j := by
  rw [sliceD, sliceD]
  congr 1
  cases hb : slice? b i j with
  | none =>
    rw [slice?_eq_none_iff] at hb ⊢
    rintro ⟨hij, hi, hj⟩
    rw [isBoundary_append_right] at hi hj
    exact hb ⟨by omega, hi, hj⟩
  | some t =>
    obtain ⟨x, z, rfl, rfl, rfl⟩ := slice?_eq_some_iff.mp hb
    refine slice?_eq_some_iff.mpr ⟨a ++ x, z, ?_, ?_, ?_⟩
    · simp only [String.append_assoc]
    · rw [String.utf8ByteSize_append]
    · omega

end Text

namespace Syntax

/-- A tree with the words that it covers in place of their offsets. -/
inductive Wording where
  | node (kind : Kind) (field : Option Field) (text : String) (children : List Wording)

namespace Wording

/-- What the node is. -/
def kind : Wording → Kind
  | node kind _ _ _ => kind

/-- Its role. -/
def field : Wording → Option Field
  | node _ field _ _ => field

/-- Its words. -/
def text : Wording → String
  | node _ _ text _ => text

/-- What it holds. -/
def children : Wording → List Wording
  | node _ _ _ children => children

end Wording

namespace Tree

mutual

/-- What a tree over a source says. -/
def wording (source : String) : Tree → Wording
  | ⟨kind, field, _, start, stop, children⟩ =>
    .node kind field (Text.sliceD source start stop) (wordings source children)

/-- What some trees say. -/
def wordings (source : String) : List Tree → List Wording
  | [] => []
  | t :: ts => wording source t :: wordings source ts

end

mutual

/-- Whether a tree fits a source: its nodes start and end between characters, and children lie in
their parents one behind the other. -/
def fits (source : String) : Tree → Bool
  | ⟨_, _, _, start, stop, children⟩ =>
    Text.isBoundary source start && Text.isBoundary source stop &&
      fitAll source start stop children

/-- Whether some trees fit a source one behind the other between two offsets. -/
def fitAll (source : String) : Nat → Nat → List Tree → Bool
  | first, last, [] => first ≤ last
  | first, last, t :: ts => first ≤ t.start && fits source t && fitAll source t.stop last ts

end

mutual

/-- The tree with its offsets from `old` on counted from `new` on. -/
def moved (old new : Nat) : Tree → Tree
  | ⟨kind, field, missing, start, stop, children⟩ =>
    ⟨kind, field, missing, start - old + new, stop - old + new, movedAll old new children⟩

/-- Some trees with their offsets from `old` on counted from `new` on. -/
def movedAll (old new : Nat) : List Tree → List Tree
  | [] => []
  | t :: ts => moved old new t :: movedAll old new ts

end

variable {source : String} {t : Tree} {ts : List Tree} {old new : Nat}

@[simp] theorem wordings_eq : wordings source ts = ts.map (wording source) := by
  induction ts with
  | nil => rfl
  | cons t ts ih => rw [wordings, ih, List.map_cons]

@[simp] theorem movedAll_eq : movedAll old new ts = ts.map (moved old new) := by
  induction ts with
  | nil => rfl
  | cons t ts ih => rw [movedAll, ih, List.map_cons]

@[simp] theorem kind_wording : (t.wording source).kind = t.kind := by
  cases t
  rfl

@[simp] theorem field_wording : (t.wording source).field = t.field := by
  cases t
  rfl

@[simp] theorem text_wording : (t.wording source).text = Text.sliceD source t.start t.stop := by
  cases t
  rfl

@[simp] theorem children_wording :
    (t.wording source).children = t.children.map (wording source) := by
  cases t
  exact wordings_eq

@[simp] theorem kind_moved : (t.moved old new).kind = t.kind := by
  cases t
  rfl

@[simp] theorem field_moved : (t.moved old new).field = t.field := by
  cases t
  rfl

@[simp] theorem start_moved : (t.moved old new).start = t.start - old + new := by
  cases t
  rfl

@[simp] theorem stop_moved : (t.moved old new).stop = t.stop - old + new := by
  cases t
  rfl

/-! ## Trees that fit -/

theorem fits_iff : t.fits source = true ↔ Text.isBoundary source t.start = true ∧
    Text.isBoundary source t.stop = true ∧
    fitAll source t.start t.stop t.children = true := by
  obtain ⟨kind, field, missing, start, stop, children⟩ := t
  simp [fits, and_assoc]

theorem fitAll_cons_iff {first last : Nat} : fitAll source first last (t :: ts) = true ↔
    first ≤ t.start ∧ t.fits source = true ∧ fitAll source t.stop last ts = true := by
  rw [fitAll]
  simp [and_assoc]

mutual

/-- A tree that fits starts before it ends. -/
theorem start_le_stop : (t : Tree) → t.fits source = true → t.start ≤ t.stop
  | ⟨_, _, _, _, _, children⟩, h => le_of_fitAll children (fits_iff.mp h).2.2

theorem le_of_fitAll {first last : Nat} :
    (ts : List Tree) → fitAll source first last ts = true → first ≤ last
  | [], h => of_decide_eq_true h
  | t :: ts, h => by
    obtain ⟨hfirst, hfits, hrest⟩ := fitAll_cons_iff.mp h
    have hstop := start_le_stop t hfits
    have hlast := le_of_fitAll ts hrest
    omega

end

/-- Each of some trees that fit between two offsets does. -/
theorem fits_of_mem {first last : Nat} (h : fitAll source first last ts = true) (ht : t ∈ ts) :
    t.fits source = true ∧ first ≤ t.start ∧ t.stop ≤ last := by
  induction ts generalizing first with
  | nil => exact absurd ht List.not_mem_nil
  | cons u ts ih =>
    obtain ⟨hfirst, hfits, hrest⟩ := fitAll_cons_iff.mp h
    rcases List.mem_cons.mp ht with rfl | ht
    · exact ⟨hfits, hfirst, le_of_fitAll ts hrest⟩
    · obtain ⟨hthis, hstart, hstop⟩ := ih hrest ht
      have hu := start_le_stop u hfits
      exact ⟨hthis, by omega, hstop⟩

/-- Trees that are written with at least one byte are no more than the bytes they lie in. -/
theorem add_length_filter_le {first last : Nat} (h : fitAll source first last ts = true)
    {p : Tree → Bool} (hwritten : ∀ t ∈ ts.filter p, t.start < t.stop) :
    first + (ts.filter p).length ≤ last := by
  induction ts generalizing first with
  | nil => exact le_of_fitAll [] h
  | cons t ts ih =>
    obtain ⟨hfirst, hfits, hrest⟩ := fitAll_cons_iff.mp h
    have hthis := start_le_stop t hfits
    rw [List.filter_cons] at hwritten ⊢
    split at hwritten
    · have hlast := ih hrest fun u hu => hwritten u (List.mem_cons_of_mem t hu)
      have hsize := hwritten t List.mem_cons_self
      rw [if_pos ‹_›, List.length_cons]
      omega
    · have hlast := ih hrest hwritten
      rw [if_neg ‹_›]
      omega

theorem fitAll_append {first last : Nat} {us : List Tree} :
    fitAll source first last (ts ++ us) = true ↔
      ∃ mid, fitAll source first mid ts = true ∧ fitAll source mid last us = true := by
  induction ts generalizing first with
  | nil =>
    rw [List.nil_append]
    constructor
    · exact fun h => ⟨first, decide_eq_true (Nat.le_refl first), h⟩
    · rintro ⟨mid, hmid, h⟩
      have hle : first ≤ mid := of_decide_eq_true hmid
      cases us with
      | nil => exact decide_eq_true (Nat.le_trans hle (of_decide_eq_true h))
      | cons u us =>
        obtain ⟨hfirst, hrest⟩ := fitAll_cons_iff.mp h
        exact fitAll_cons_iff.mpr ⟨Nat.le_trans hle hfirst, hrest⟩
  | cons t ts ih =>
    simp only [List.cons_append, fitAll_cons_iff, ih]
    constructor
    · rintro ⟨hfirst, hfits, mid, hts, hus⟩
      exact ⟨mid, ⟨hfirst, hfits, hts⟩, hus⟩
    · rintro ⟨mid, ⟨hfirst, hfits, hts⟩, hus⟩
      exact ⟨hfirst, hfits, mid, hts, hus⟩

/-- The trees in front of one and those behind it end before and start after it. -/
theorem fitAll_around {first last : Nat} {us : List Tree}
    (h : fitAll source first last (ts ++ t :: us) = true) :
    fitAll source first t.start ts = true ∧ t.fits source = true ∧
      fitAll source t.stop last us = true := by
  obtain ⟨mid, hts, hrest⟩ := fitAll_append.mp h
  obtain ⟨hmid, hfits, hus⟩ := fitAll_cons_iff.mp hrest
  refine ⟨?_, hfits, hus⟩
  have hnil : fitAll source mid t.start [] = true := decide_eq_true hmid
  simpa using fitAll_append.mpr ⟨mid, hts, hnil⟩

/-! ## Parts that stay -/

variable {p x y q u v : String}

mutual

/-- A tree in a beginning of the text says what it said, whatever follows that beginning. -/
theorem wording_left : (t : Tree) → t.fits (p ++ x) = true → t.stop ≤ p.utf8ByteSize →
    t.wording (p ++ y) = t.wording (p ++ x)
  | ⟨kind, field, missing, start, stop, children⟩, h, hstop => by
    have hstop : stop ≤ p.utf8ByteSize := hstop
    rw [wording, wording, Text.sliceD_append_left hstop, Text.sliceD_append_left hstop,
      wordings_left children (fits_iff.mp h).2.2 hstop]

theorem wordings_left {first last : Nat} : (ts : List Tree) →
    fitAll (p ++ x) first last ts = true → last ≤ p.utf8ByteSize →
    wordings (p ++ y) ts = wordings (p ++ x) ts
  | [], _, _ => rfl
  | t :: ts, h, hlast => by
    obtain ⟨hfirst, hfits, hrest⟩ := fitAll_cons_iff.mp h
    have hstop := le_of_fitAll ts hrest
    rw [wordings, wordings, wording_left t hfits (Nat.le_trans hstop hlast),
      wordings_left ts hrest hlast]

end

mutual

/-- A tree in a piece of the text says what it said after the piece has moved. -/
theorem wording_moved : (t : Tree) → t.fits (p ++ (q ++ u)) = true → p.utf8ByteSize ≤ t.start →
    t.stop ≤ p.utf8ByteSize + q.utf8ByteSize →
    (t.moved p.utf8ByteSize x.utf8ByteSize).wording (x ++ (q ++ v)) = t.wording (p ++ (q ++ u))
  | ⟨kind, field, missing, start, stop, children⟩, h, hstart, hstop => by
    have hle : start ≤ stop := start_le_stop _ h
    obtain ⟨i, rfl⟩ : ∃ i, start = p.utf8ByteSize + i := Nat.exists_eq_add_of_le hstart
    obtain ⟨j, rfl⟩ : ∃ j, stop = p.utf8ByteSize + j := Nat.exists_eq_add_of_le (by omega)
    have hj : j ≤ q.utf8ByteSize := Nat.le_of_add_le_add_left hstop
    have hmoved {k : Nat} : p.utf8ByteSize + k - p.utf8ByteSize + x.utf8ByteSize =
        x.utf8ByteSize + k := by omega
    rw [moved, wording, wording, hmoved, hmoved, Text.sliceD_append_right,
      Text.sliceD_append_right, Text.sliceD_append_left hj, Text.sliceD_append_left hj,
      wordings_moved children (fits_iff.mp h).2.2 (Nat.le_add_right _ _) hstop]

theorem wordings_moved {first last : Nat} : (ts : List Tree) →
    fitAll (p ++ (q ++ u)) first last ts = true → p.utf8ByteSize ≤ first →
    last ≤ p.utf8ByteSize + q.utf8ByteSize →
    wordings (x ++ (q ++ v)) (movedAll p.utf8ByteSize x.utf8ByteSize ts) =
      wordings (p ++ (q ++ u)) ts
  | [], _, _, _ => rfl
  | t :: ts, h, hfirst, hlast => by
    obtain ⟨hstart, hfits, hrest⟩ := fitAll_cons_iff.mp h
    have hle := start_le_stop t hfits
    have hstop := le_of_fitAll ts hrest
    rw [movedAll, wordings, wordings, wording_moved t hfits (by omega) (by omega),
      wordings_moved ts hrest (by omega) hlast]

end

end Tree

end Syntax

end Amend
