import Amend.Text.Slice
import Mathlib.Tactic.Common

/-!
# Parts between separators

A text is split at each separator, so a separator between two texts keeps the parts of the two
apart.
-/

namespace Amend.Text

variable {p : Char → Bool}

theorem splitChars_ne_nil (cs : List Char) : splitChars p cs ≠ [] := by
  induction cs with
  | nil => exact List.cons_ne_nil _ _
  | cons c cs ih =>
    rw [splitChars]
    split
    · exact List.cons_ne_nil _ _
    · split <;> exact List.cons_ne_nil _ _

/-- What holds no separator is one part. -/
theorem splitChars_of_forall {cs : List Char} (h : ∀ c ∈ cs, p c = false) :
    splitChars p cs = [cs] := by
  induction cs with
  | nil => rfl
  | cons c cs ih =>
    rw [splitChars, ih fun d hd => h d (List.mem_cons_of_mem c hd)]
    simp [h c List.mem_cons_self]

/-- The parts around a separator are those before it and those behind it. -/
theorem splitChars_append {sep : Char} (hsep : p sep = true) (as bs : List Char) :
    splitChars p (as ++ sep :: bs) = splitChars p as ++ splitChars p bs := by
  induction as with
  | nil =>
    cases hparts : splitChars p bs with
    | nil => exact absurd hparts (splitChars_ne_nil bs)
    | cons part parts => simp [splitChars, hsep, hparts]
  | cons c as ih =>
    rw [List.cons_append, splitChars, ih, splitChars]
    cases hparts : splitChars p as with
    | nil => exact absurd hparts (splitChars_ne_nil as)
    | cons part parts =>
      simp only [List.cons_append]
      split <;> rfl

end Amend.Text
