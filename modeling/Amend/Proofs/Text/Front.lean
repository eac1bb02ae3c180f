import Amend.Text.Lines
import Amend.Proofs.Text.Visible

/-!
# What a text begins and ends with

Readers take a text apart from its front: a fixed piece, or as many characters of a class as there
are.  What is left of a text once the blanks at its ends are gone ends visibly.
-/

namespace Amend.Text

variable {p : Char → Bool} {cs front rest : List Char}

theorem afterChars?_eq_some_iff {fixed : List Char} :
    afterChars? fixed cs = some rest ↔ cs = fixed ++ rest := by
  induction fixed generalizing cs with
  | nil => simp [afterChars?]
  | cons f fixed ih =>
    cases cs with
    | nil => simp [afterChars?]
    | cons c cs =>
      by_cases h : f = c
      · subst h
        simp [afterChars?, ih]
      · simp [afterChars?, h, Ne.symm h]

theorem takeWhile_append_eq (hfront : ∀ c ∈ front, p c = true)
    (hrest : ∀ c, rest.head? = some c → p c = false) : (front ++ rest).takeWhile p = front := by
  rw [List.takeWhile_append_of_pos hfront]
  cases rest with
  | nil => exact List.append_nil front
  | cons c rest => rw [List.takeWhile_cons_of_neg (by simp [hrest c rfl]), List.append_nil]

theorem dropWhile_append_eq (hfront : ∀ c ∈ front, p c = true)
    (hrest : ∀ c, rest.head? = some c → p c = false) : (front ++ rest).dropWhile p = rest := by
  rw [List.dropWhile_append_of_pos hfront]
  cases rest with
  | nil => rfl
  | cons c rest => exact List.dropWhile_cons_of_neg (by simp [hrest c rfl])

theorem head?_dropWhile_eq_false (p : Char → Bool) (cs : List Char) :
    ∀ c, (cs.dropWhile p).head? = some c → p c = false := by
  intro c hc
  have hnot := List.head?_dropWhile_not p cs
  rw [hc] at hnot
  simpa using hnot

/-- A text whose last character, if it has one, is not blank. -/
def EndsVisibly (cs : List Char) : Prop := ∀ c, cs.getLast? = some c → isBlank c = false

theorem EndsVisibly.of_append (h : EndsVisibly (front ++ rest)) : EndsVisibly rest := by
  intro c hc
  refine h c ?_
  rw [List.getLast?_append, hc]
  rfl

theorem endsVisibly_dropEndWhile (cs : List Char) : EndsVisibly (dropEndWhile isBlank cs) := by
  intro c hc
  rw [dropEndWhile, List.getLast?_reverse] at hc
  exact head?_dropWhile_eq_false isBlank _ c hc

theorem endsVisibly_trim (s : String) : EndsVisibly (trim s).toList := by
  rw [trim, String.toList_ofList]
  exact endsVisibly_dropEndWhile _

theorem dropEndWhile_append_eq {tail : List Char} (h : EndsVisibly cs)
    (htail : ∀ c ∈ tail, isBlank c = true) : dropEndWhile isBlank (cs ++ tail) = cs := by
  have hkept : (cs ++ tail).reverse.dropWhile isBlank = cs.reverse := by
    rw [List.reverse_append]
    refine dropWhile_append_eq (fun c hc => htail c (List.mem_reverse.mp hc)) fun c hc => h c ?_
    rw [List.getLast?_eq_head?_reverse]
    exact hc
  rw [dropEndWhile, hkept, List.reverse_reverse]

end Amend.Text
