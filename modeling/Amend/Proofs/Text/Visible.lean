import Amend.Text.Lines
import Mathlib.Tactic.Common

/-!
# Characters that are not blank

What is left of a text without its blanks.  It is what the words of the text are made of, and the
pieces of a text contribute to it one after the other.
-/

namespace Amend.Text

/-- The characters of a text that are not blank. -/
def visible (s : String) : List Char := s.toList.filter (!isBlank ·)

theorem visible_append (a b : String) : visible (a ++ b) = visible a ++ visible b := by
  rw [visible, String.toList_append, List.filter_append]
  rfl

/-- The characters of the words are the characters that are not blank. `w` is the beginning of the
word that is being read. -/
theorem flatMap_go (cs w : List Char) :
    (words.go cs w).flatMap String.toList = w.reverse ++ cs.filter (!isBlank ·) := by
  induction cs generalizing w with
  | nil => cases w <;> simp [words.go]
  | cons c cs ih =>
    rw [words.go]
    by_cases hc : isBlank c = true
    · cases w <;> simp [hc, ih]
    · simp [hc, ih]

theorem flatMap_words (s : String) : (words s).flatMap String.toList = visible s := by
  rw [words, flatMap_go, List.reverse_nil, List.nil_append, visible]

theorem visible_eq_of_words_eq {a b : String} (h : words a = words b) : visible a = visible b := by
  rw [← flatMap_words, h, flatMap_words]

/-- What goes from the end of a text satisfies the condition. -/
theorem exists_dropEndWhile_append (p : Char → Bool) (cs : List Char) :
    ∃ tail, cs = dropEndWhile p cs ++ tail ∧ ∀ c ∈ tail, p c = true := by
  refine ⟨(cs.reverse.takeWhile p).reverse, ?_, ?_⟩
  · rw [dropEndWhile, ← List.reverse_append, List.takeWhile_append_dropWhile, List.reverse_reverse]
  · intro c hc
    exact List.all_eq_true.mp List.all_takeWhile c (List.mem_reverse.mp hc)

theorem visible_trimEnd (s : String) : visible (trimEnd s) = visible s := by
  obtain ⟨tail, hs, htail⟩ := exists_dropEndWhile_append isBlank s.toList
  have hblank : tail.filter (!isBlank ·) = [] :=
    List.filter_eq_nil_iff.mpr fun c hc => by simp [htail c hc]
  rw [visible, visible, trimEnd, String.toList_ofList]
  conv_rhs => rw [hs, List.filter_append, hblank, List.append_nil]

theorem visible_join (pieces : List String) : visible (.join pieces) = pieces.flatMap visible := by
  rw [visible, String.toList_join, List.filter_flatMap]
  rfl

/-- A text is its lines, each with its end. -/
theorem flatten_lineSegments (cs : List Char) : (lineSegments cs).flatten = cs := by
  induction cs with
  | nil => rfl
  | cons c cs ih =>
    rw [lineSegments]
    split
    · rw [List.flatten_cons, ih]
      rfl
    · split
      · next hnone =>
        rw [hnone] at ih
        rw [← ih]
        rfl
      · next seg rest hsome =>
        rw [hsome] at ih
        rw [List.flatten_cons, List.cons_append, ← List.flatten_cons, ih]

theorem flatMap_visible_segments (s : String) : (segments s).flatMap visible = visible s := by
  have hchars : (segments s).flatMap String.toList = s.toList := by
    simp only [segments, List.flatMap_map, String.toList_ofList]
    rw [List.flatMap_id', flatten_lineSegments]
  rw [← visible_join, visible, String.toList_join, hchars, visible]

end Amend.Text
