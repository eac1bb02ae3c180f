import Amend.Build.Step
import Amend.Proofs.Build.Diagnostic
import Amend.Proofs.Text.Numeral
import Mathlib.Data.List.Basic

/-!
# When a test step passes

A test step passes if its process succeeds and the last summary in its output counts no failure.
What is counted are words: a number that is no word is read as 0, and the sum of two words wraps
around.  So a summary that writes a failure fails the step where its numbers are words and their sum
is one too, and elsewhere it may pass.
-/

namespace Amend.Build

open Text (isBlank isDecimalDigit)
open Diagnostic (after? after?_eq_some_iff digits?_eq_some_iff)

variable {cs rest digits : List Char}

/-! ## Written numbers -/

/-- The value of a decimal digit: how far behind the zero of its row it stands. -/
def digitValue (c : Char) : Nat :=
  let bounds := Text.decimalDigits.bounds
  (c.toNat - bounds.getD (Text.CharClass.rankBetween bounds c.toNat 0 bounds.size - 1) 0) % 10

/-- The natural number that decimal digits write. -/
def numeralValue (digits : List Char) : Nat :=
  digits.foldl (fun n c => 10 * n + digitValue c) 0

/-- Digits that write a word: those from 0 to 9, and not too many. -/
def WritesWord (digits : List Char) : Prop :=
  (∀ c ∈ digits, Text.IsDigit c) ∧ numeralValue digits < MachineWord.card

theorem digitValue_of_isDigit {c : Char} (h : Text.IsDigit c) : digitValue c = c.toNat - 48 := by
  have hall : ∀ n < 58, 48 ≤ n →
      digitValue (Char.ofNat n) = (Char.ofNat n).toNat - 48 := by decide +kernel
  exact h.induction (P := fun c => digitValue c = c.toNat - 48) hall

theorem numeralValue_eq (h : ∀ c ∈ digits, Text.IsDigit c) :
    digits.foldl (fun n c => 10 * n + (c.toNat - 48)) 0 = numeralValue digits := by
  rw [numeralValue]
  refine List.foldl_ext _ _ _ fun n c hc => ?_
  rw [digitValue_of_isDigit (h c hc)]

theorem wordOrZero_of_writesWord (h : WritesWord digits) :
    wordOrZero digits = numeralValue digits := by
  have hall : (digits.all fun c => '0' ≤ c && c ≤ '9') = true := List.all_eq_true.mpr h.1
  rw [wordOrZero, if_pos hall, numeralValue_eq h.1]
  exact if_pos h.2

theorem wordOrZero_of_not_writesWord (h : ¬ WritesWord digits) : wordOrZero digits = 0 := by
  rw [wordOrZero]
  split
  case isFalse => rfl
  case isTrue hall =>
    have hdigits : ∀ c ∈ digits, Text.IsDigit c := List.all_eq_true.mp hall
    rw [numeralValue_eq hdigits]
    exact if_neg fun hlt => h ⟨hdigits, hlt⟩

theorem wordOrZero_lt (digits : List Char) : wordOrZero digits < MachineWord.card := by
  by_cases h : WritesWord digits
  · rw [wordOrZero_of_writesWord h]
    exact h.2
  · rw [wordOrZero_of_not_writesWord h]
    decide

/-! ## Written summaries -/

namespace TestCounts

/-- The digits of a summary. A number that is not written has none. -/
structure Written where
  run : List Char
  failures : List Char
  errors : List Char
  skipped : List Char

/-- The totals that are read from a summary. -/
def Written.counts (w : Written) : TestCounts where
  run := wordOrZero w.run
  failures := wordOrZero w.failures
  errors := wordOrZero w.errors
  skipped := wordOrZero w.skipped

/-- Digits that no digit follows. -/
def IsNumber (digits rest : List Char) : Prop :=
  digits ≠ [] ∧ (∀ c ∈ digits, isDecimalDigit c = true) ∧
    ∀ c, rest.head? = some c → isDecimalDigit c = false

theorem digits?_iff : Diagnostic.digits? cs = some (digits, rest) ↔
    cs = digits ++ rest ∧ IsNumber digits rest :=
  digits?_eq_some_iff

/-- A number behind a label and blanks. -/
def IsLabelled (label : String) (cs digits rest : List Char) : Prop :=
  ∃ gap, (∀ c ∈ gap, isBlank c = true) ∧ cs = label.toList ++ (gap ++ (digits ++ rest)) ∧
    IsNumber digits rest

/-- A number behind a comma, blanks and a label. -/
def IsNext (label : String) (cs digits rest : List Char) : Prop :=
  ∃ gap behind, (∀ c ∈ gap, isBlank c = true) ∧ cs = ",".toList ++ (gap ++ behind) ∧
    IsLabelled label behind digits rest

/-- A summary of the first form at the front of a text, and what follows it. -/
def IsSurefire (cs : List Char) (w : Written) (rest : List Char) : Prop :=
  ∃ a b c, IsLabelled "Tests run:" cs w.run a ∧ IsNext "Failures:" a w.failures b ∧
    IsNext "Errors:" b w.errors c ∧ IsNext "Skipped:" c w.skipped rest

/-- A number that may be written behind a comma and before a word. -/
def IsCounted (word : String) (cs digits rest : List Char) : Prop :=
  (cs = ", ".toList ++ (digits ++ (word.toList ++ rest)) ∧ IsNumber digits (word.toList ++ rest)) ∨
    (digits = [] ∧ rest = cs ∧ ∀ other behind, IsNumber other (word.toList ++ behind) →
      cs ≠ ", ".toList ++ (other ++ (word.toList ++ behind)))

/-- A summary of the second form at the front of a text, and what follows it. -/
def IsGradle (cs : List Char) (w : Written) (rest : List Char) : Prop :=
  ∃ plural a b, (plural = [] ∨ plural = ['s']) ∧
    cs = w.run ++ (" test".toList ++ (plural ++ (" completed".toList ++ a))) ∧
    IsNumber w.run (" test".toList ++ (plural ++ (" completed".toList ++ a))) ∧
    IsCounted " failed" a w.failures b ∧ w.errors = [] ∧ IsCounted " skipped" b w.skipped rest

/-! ### Reading them -/

theorem isDecimalDigit_of_isBlank {c : Char} (h : isBlank c = true) : isDecimalDigit c = false := by
  have hall : ∀ n ∈ [9, 10, 11, 12, 13, 0x20, 0x85, 0xA0, 0x1680, 0x2000, 0x2001, 0x2002, 0x2003,
      0x2004, 0x2005, 0x2006, 0x2007, 0x2008, 0x2009, 0x200A, 0x2028, 0x2029, 0x202F, 0x205F,
      0x3000], isDecimalDigit (Char.ofNat n) = false := by decide +kernel
  have hmem : c.toNat ∈ [9, 10, 11, 12, 13, 0x20, 0x85, 0xA0, 0x1680, 0x2000, 0x2001, 0x2002,
      0x2003, 0x2004, 0x2005, 0x2006, 0x2007, 0x2008, 0x2009, 0x200A, 0x2028, 0x2029, 0x202F,
      0x205F, 0x3000] := by
    simp only [isBlank, Bool.or_eq_true, Bool.and_eq_true, decide_eq_true_eq, beq_iff_eq] at h
    simp only [List.mem_cons, List.not_mem_nil, or_false]
    omega
  have hdigit := hall c.toNat hmem
  rwa [Char.ofNat_toNat] at hdigit

theorem IsNumber.head?_append (h : IsNumber digits rest) :
    ∀ c, (digits ++ rest).head? = some c → isBlank c = false := by
  obtain ⟨hne, hdigits, -⟩ := h
  cases digits with
  | nil => exact absurd rfl hne
  | cons d digits =>
    rintro _ ⟨⟩
    rw [← Bool.not_eq_true]
    intro hblank
    have hdigit := hdigits d List.mem_cons_self
    rw [isDecimalDigit_of_isBlank hblank] at hdigit
    cases hdigit

theorem labelled?_eq_some_iff {label : String} {n : Nat} : labelled? label cs = some (n, rest) ↔
    ∃ digits, IsLabelled label cs digits rest ∧ n = wordOrZero digits := by
  simp only [labelled?, Option.bind_eq_bind, Option.bind_eq_some_iff, after?_eq_some_iff,
    Prod.exists, digits?_iff, Option.pure_def, Option.some.injEq, Prod.mk.injEq]
  constructor
  · rintro ⟨behind, rfl, digits, _, ⟨hbehind, hnumber⟩, rfl, rfl⟩
    refine ⟨digits, ⟨behind.takeWhile isBlank, List.all_eq_true.mp List.all_takeWhile, ?_, hnumber⟩,
      rfl⟩
    rw [← hbehind, List.takeWhile_append_dropWhile]
  · rintro ⟨digits, ⟨gap, hgap, rfl, hnumber⟩, rfl⟩
    exact ⟨_, rfl, digits, rest, ⟨Text.dropWhile_append_eq hgap hnumber.head?_append, hnumber⟩,
      rfl, rfl⟩

/-- A number behind a comma, blanks and a label. -/
def next? (label : String) (cs : List Char) : Option (Nat × List Char) :=
  (after? "," cs).bind fun behind => labelled? label (behind.dropWhile isBlank)

theorem next?_eq_some_iff {label : String} {n : Nat}
    (hlabel : ∀ more c, (label.toList ++ more).head? = some c → isBlank c = false) :
    next? label cs = some (n, rest) ↔
      ∃ digits, IsNext label cs digits rest ∧ n = wordOrZero digits := by
  simp only [next?, Option.bind_eq_some_iff, after?_eq_some_iff, labelled?_eq_some_iff]
  constructor
  · rintro ⟨behind, rfl, digits, hlabelled, rfl⟩
    exact ⟨digits, ⟨behind.takeWhile isBlank, _, List.all_eq_true.mp List.all_takeWhile,
      by rw [List.takeWhile_append_dropWhile], hlabelled⟩, rfl⟩
  · rintro ⟨digits, ⟨gap, behind, hgap, rfl, hlabelled⟩, rfl⟩
    refine ⟨_, rfl, digits, ?_, rfl⟩
    have hvisible : ∀ c, behind.head? = some c → isBlank c = false := by
      obtain ⟨_, -, rfl, -⟩ := hlabelled
      exact hlabel _
    rwa [Text.dropWhile_append_eq hgap hvisible]

theorem surefireHere?_eq : surefireHere? cs = (labelled? "Tests run:" cs).bind fun (run, cs) =>
    (next? "Failures:" cs).bind fun (failures, cs) => (next? "Errors:" cs).bind fun (errors, cs) =>
      (next? "Skipped:" cs).bind fun (skipped, cs) =>
        some (⟨run, failures, errors, skipped⟩, cs) := by
  simp only [surefireHere?, next?, Option.bind_assoc]
  rfl

theorem surefireHere?_eq_some_iff {counts : TestCounts} : surefireHere? cs = some (counts, rest) ↔
    ∃ w, IsSurefire cs w rest ∧ counts = w.counts := by
  have hfailures : ∀ more c, ("Failures:".toList ++ more).head? = some c → isBlank c = false := by
    rintro _ _ ⟨⟩
    decide
  have herrors : ∀ more c, ("Errors:".toList ++ more).head? = some c → isBlank c = false := by
    rintro _ _ ⟨⟩
    decide
  have hskipped : ∀ more c, ("Skipped:".toList ++ more).head? = some c → isBlank c = false := by
    rintro _ _ ⟨⟩
    decide
  simp only [surefireHere?_eq, Option.bind_eq_some_iff, Prod.exists, labelled?_eq_some_iff,
    next?_eq_some_iff hfailures, next?_eq_some_iff herrors, next?_eq_some_iff hskipped,
    Option.some.injEq, Prod.mk.injEq]
  constructor
  · rintro ⟨_, a, ⟨run, hrun, rfl⟩, _, b, ⟨failures, hf, rfl⟩, _, c, ⟨errors, he, rfl⟩, _, _,
      ⟨skipped, hs, rfl⟩, rfl, rfl⟩
    exact ⟨⟨run, failures, errors, skipped⟩, ⟨a, b, c, hrun, hf, he, hs⟩, rfl⟩
  · rintro ⟨w, ⟨a, b, c, hrun, hf, he, hs⟩, rfl⟩
    exact ⟨_, a, ⟨_, hrun, rfl⟩, _, b, ⟨_, hf, rfl⟩, _, c, ⟨_, he, rfl⟩, _, _, ⟨_, hs, rfl⟩, rfl,
      rfl⟩

/-- A number with a fixed text before and after it. -/
def counted? (before after : String) (cs : List Char) : Option (Nat × List Char) :=
  (after? before cs).bind fun cs => (Diagnostic.digits? cs).bind fun (ds, rest) =>
    (after? after rest).bind fun rest => some (wordOrZero ds, rest)

theorem counted_eq {before after : String} :
    counted before after cs = (counted? before after cs).getD (0, cs) := rfl

theorem counted?_eq_some_iff {word : String} {n : Nat} :
    counted? ", " word cs = some (n, rest) ↔ ∃ digits,
      (cs = ", ".toList ++ (digits ++ (word.toList ++ rest)) ∧
        IsNumber digits (word.toList ++ rest)) ∧ n = wordOrZero digits := by
  simp only [counted?, Option.bind_eq_some_iff, after?_eq_some_iff, Prod.exists, digits?_iff,
    Option.some.injEq, Prod.mk.injEq]
  constructor
  · rintro ⟨_, rfl, digits, _, ⟨rfl, hnumber⟩, _, rfl, rfl, rfl⟩
    exact ⟨digits, ⟨rfl, hnumber⟩, rfl⟩
  · rintro ⟨digits, ⟨rfl, hnumber⟩, rfl⟩
    exact ⟨_, rfl, digits, _, ⟨rfl, hnumber⟩, _, rfl, rfl, rfl⟩

theorem counted_eq_iff {word : String} {n : Nat} : counted ", " word cs = (n, rest) ↔
    ∃ digits, IsCounted word cs digits rest ∧ n = wordOrZero digits := by
  rw [counted_eq]
  cases hfound : counted? ", " word cs with
  | some found =>
    obtain ⟨m, behind⟩ := found
    obtain ⟨digits, hdigits, rfl⟩ := counted?_eq_some_iff.mp hfound
    rw [Option.getD_some, Prod.mk.injEq]
    constructor
    · rintro ⟨rfl, rfl⟩
      exact ⟨digits, Or.inl hdigits, rfl⟩
    · rintro ⟨other, hother | ⟨-, -, hnone⟩, rfl⟩
      · have hread := counted?_eq_some_iff.mpr ⟨other, hother, rfl⟩
        rw [hfound] at hread
        exact Prod.mk.inj (Option.some.inj hread)
      · exact absurd hdigits.1 (hnone digits behind hdigits.2)
  | none =>
    have hnone (other behind : List Char) (hnumber : IsNumber other (word.toList ++ behind)) :
        cs ≠ ", ".toList ++ (other ++ (word.toList ++ behind)) := by
      intro hcs
      rw [counted?_eq_some_iff.mpr ⟨other, ⟨hcs, hnumber⟩, rfl⟩] at hfound
      cases hfound
    rw [Option.getD_none, Prod.mk.injEq]
    constructor
    · rintro ⟨rfl, rfl⟩
      exact ⟨[], Or.inr ⟨rfl, rfl, hnone⟩, rfl⟩
    · rintro ⟨other, ⟨hcs, hnumber⟩ | ⟨rfl, rfl, -⟩, rfl⟩
      · exact absurd hcs (hnone other rest hnumber)
      · exact ⟨rfl, rfl⟩

theorem gradleHere?_eq : gradleHere? cs = (Diagnostic.digits? cs).bind fun (run, cs) =>
    (after? " test" cs).bind fun cs =>
    (after? " completed" ((after? "s" cs).getD cs)).bind fun cs =>
      some (⟨wordOrZero run, (counted ", " " failed" cs).1, 0,
        (counted ", " " skipped" (counted ", " " failed" cs).2).1⟩,
        (counted ", " " skipped" (counted ", " " failed" cs).2).2) := rfl

/-- The plural of a word may be written. -/
theorem plural_iff {a : List Char} :
    (after? "s" cs).getD cs = " completed".toList ++ a ↔
      ∃ plural, (plural = [] ∨ plural = ['s']) ∧ cs = plural ++ (" completed".toList ++ a) := by
  constructor
  · intro h
    cases hplural : after? "s" cs with
    | none =>
      rw [hplural] at h
      exact ⟨[], Or.inl rfl, h⟩
    | some behind =>
      rw [hplural, Option.getD_some] at h
      exact ⟨['s'], Or.inr rfl, by rw [after?_eq_some_iff.mp hplural, h]; rfl⟩
  · rintro ⟨plural, rfl | rfl, rfl⟩
    · rfl
    · rfl

theorem gradleHere?_eq_some_iff {counts : TestCounts} : gradleHere? cs = some (counts, rest) ↔
    ∃ w, IsGradle cs w rest ∧ counts = w.counts := by
  simp only [gradleHere?_eq, Option.bind_eq_some_iff, Prod.exists, digits?_iff, after?_eq_some_iff,
    plural_iff, Option.some.injEq, Prod.mk.injEq]
  constructor
  · rintro ⟨run, _, ⟨rfl, hrun⟩, _, rfl, a, ⟨plural, hplural, rfl⟩, rfl, rfl⟩
    obtain ⟨⟨m, b⟩, hm⟩ : ∃ found, counted ", " " failed" a = found := ⟨_, rfl⟩
    obtain ⟨⟨n, rest⟩, hn⟩ : ∃ found, counted ", " " skipped" b = found := ⟨_, rfl⟩
    rw [hm, hn]
    obtain ⟨failures, hfailures, rfl⟩ := counted_eq_iff.mp hm
    obtain ⟨skipped, hskipped, rfl⟩ := counted_eq_iff.mp hn
    exact ⟨⟨run, failures, [], skipped⟩,
      ⟨plural, a, b, hplural, rfl, hrun, hfailures, rfl, hskipped⟩, rfl⟩
  · rintro ⟨w, ⟨plural, a, b, hplural, rfl, hrun, hfailures, herrors, hskipped⟩, rfl⟩
    refine ⟨w.run, _, ⟨rfl, hrun⟩, _, rfl, a, ⟨plural, hplural, rfl⟩, ?_⟩
    rw [counted_eq_iff.mpr ⟨_, hfailures, rfl⟩, counted_eq_iff.mpr ⟨_, hskipped, rfl⟩]
    refine ⟨?_, rfl⟩
    rw [Written.counts, herrors]
    rfl

/-! ### The last summary -/

theorem IsLabelled.length_lt {label : String} (h : IsLabelled label cs digits rest) :
    rest.length < cs.length := by
  obtain ⟨gap, -, rfl, hne, -⟩ := h
  have hpos := List.length_pos_iff.mpr hne
  simp only [List.length_append]
  omega

theorem IsNext.length_lt {label : String} (h : IsNext label cs digits rest) :
    rest.length < cs.length := by
  obtain ⟨gap, behind, -, rfl, hlabelled⟩ := h
  have hlt := hlabelled.length_lt
  simp only [List.length_append]
  omega

theorem IsCounted.length_le {word : String} (h : IsCounted word cs digits rest) :
    rest.length ≤ cs.length := by
  rcases h with ⟨rfl, -⟩ | ⟨-, rfl, -⟩
  · simp only [List.length_append]
    omega
  · exact Nat.le_refl _

theorem IsSurefire.length_lt {w : Written} (h : IsSurefire cs w rest) :
    rest.length < cs.length := by
  obtain ⟨a, b, c, hrun, hfailures, herrors, hskipped⟩ := h
  calc rest.length < c.length := hskipped.length_lt
    _ < b.length := herrors.length_lt
    _ < a.length := hfailures.length_lt
    _ < cs.length := hrun.length_lt

theorem IsGradle.length_lt {w : Written} (h : IsGradle cs w rest) : rest.length < cs.length := by
  obtain ⟨plural, a, b, -, rfl, ⟨hne, -⟩, hfailures, -, hskipped⟩ := h
  have hrest := hskipped.length_le.trans hfailures.length_le
  have hpos := List.length_pos_iff.mpr hne
  simp only [List.length_append]
  omega

/-- The summaries of a form that a text holds, from left to right: each search goes on behind the
summary before. -/
inductive Scan (IsAt : List Char → Written → List Char → Prop) :
    List Char → List Written → Prop where
  | nil : Scan IsAt [] []
  | hit {c : Char} {cs rest : List Char} {w : Written} {found : List Written}
      (hat : IsAt (c :: cs) w rest) (hrest : Scan IsAt rest found) :
      Scan IsAt (c :: cs) (w :: found)
  | miss {c : Char} {cs : List Char} {found : List Written}
      (hnone : ∀ w rest, ¬ IsAt (c :: cs) w rest) (hrest : Scan IsAt cs found) :
      Scan IsAt (c :: cs) found

section Last

variable {IsAt : List Char → Written → List Char → Prop}
  {here : List Char → Option (TestCounts × List Char)}
  (hhere : ∀ cs counts rest, here cs = some (counts, rest) ↔
    ∃ w, IsAt cs w rest ∧ counts = w.counts)
  (hshort : ∀ cs w rest, IsAt cs w rest → rest.length < cs.length)

include hshort in
theorem exists_scan (cs : List Char) : ∃ found, Scan IsAt cs found := by
  induction hlength : cs.length using Nat.strongRecOn generalizing cs with
  | ind n ih =>
    cases cs with
    | nil => exact ⟨[], .nil⟩
    | cons c cs =>
      by_cases hat : ∃ w rest, IsAt (c :: cs) w rest
      · obtain ⟨w, rest, hat⟩ := hat
        obtain ⟨found, hfound⟩ := ih _ (hlength ▸ hshort _ _ _ hat) rest rfl
        exact ⟨w :: found, .hit hat hfound⟩
      · obtain ⟨found, hfound⟩ := ih cs.length (hlength ▸ Nat.lt_succ_self _) cs rfl
        exact ⟨found, .miss (fun w rest h => hat ⟨w, rest, h⟩) hfound⟩

include hhere hshort in
theorem lastFrom_eq {found : List Written} (h : Scan IsAt cs found) {fuel : Nat}
    (hfuel : cs.length < fuel) (first : Option TestCounts) :
    lastFrom here fuel first cs = (found.map Written.counts).getLast?.or first := by
  induction h generalizing fuel first with
  | nil => cases fuel <;> rfl
  | @hit c cs rest w found hat _ ih =>
    obtain ⟨fuel, rfl⟩ := Nat.exists_eq_add_one_of_ne_zero (Nat.ne_zero_of_lt hfuel)
    have hlt := hshort _ _ _ hat
    rw [lastFrom, (hhere _ _ _).mpr ⟨w, hat, rfl⟩]
    dsimp only
    rw [ih (by omega), List.map_cons, List.getLast?_cons]
    cases (found.map Written.counts).getLast? <;> rfl
  | @miss c cs found hnone _ ih =>
    obtain ⟨fuel, rfl⟩ := Nat.exists_eq_add_one_of_ne_zero (Nat.ne_zero_of_lt hfuel)
    have hnothing : here (c :: cs) = none := by
      refine Option.eq_none_iff_forall_not_mem.mpr fun (counts, rest) hread => ?_
      obtain ⟨w, hat, -⟩ := (hhere _ _ _).mp hread
      exact hnone w rest hat
    rw [lastFrom, hnothing]
    exact ih (Nat.lt_of_succ_lt_succ hfuel) first

/-- The last summary of a form in an output. -/
def IsLast (IsAt : List Char → Written → List Char → Prop) (output : String) (w : Written) : Prop :=
  ∃ found, Scan IsAt output.toList found ∧ found.getLast? = some w

include hhere hshort in
theorem last?_eq_some_iff {output : String} {counts : TestCounts} :
    last? here output = some counts ↔ ∃ w, IsLast IsAt output w ∧ counts = w.counts := by
  have hlast (found : List Written) (h : Scan IsAt output.toList found) :
      last? here output = found.getLast?.map Written.counts := by
    have hfuel : output.toList.length < output.length + 1 := by
      rw [String.length_toList]
      exact Nat.lt_succ_self _
    rw [last?, lastFrom_eq hhere hshort h hfuel, Option.or_none, List.getLast?_map]
  constructor
  · intro h
    obtain ⟨found, hfound⟩ := exists_scan hshort output.toList
    rw [hlast found hfound, Option.map_eq_some_iff] at h
    obtain ⟨w, hw, rfl⟩ := h
    exact ⟨w, ⟨found, hfound, hw⟩, rfl⟩
  · rintro ⟨w, ⟨found, hfound, hw⟩, rfl⟩
    rw [hlast found hfound, hw]
    rfl

end Last

theorem ofSurefire?_eq_some_iff {output : String} {counts : TestCounts} :
    ofSurefire? output = some counts ↔ ∃ w, IsLast IsSurefire output w ∧ counts = w.counts :=
  last?_eq_some_iff (fun _ _ _ => surefireHere?_eq_some_iff) fun _ _ _ => IsSurefire.length_lt

theorem ofGradle?_eq_some_iff {output : String} {counts : TestCounts} :
    ofGradle? output = some counts ↔ ∃ w, IsLast IsGradle output w ∧ counts = w.counts :=
  last?_eq_some_iff (fun _ _ _ => gradleHere?_eq_some_iff) fun _ _ _ => IsGradle.length_lt

/-- The summary that counts: the last one of the form that the tool writes.  Without a known tool
the first form wins. -/
def IsSummary (tool : Option Tool) (output : String) (w : Written) : Prop :=
  match tool with
  | some .maven | some .ant => IsLast IsSurefire output w
  | some .gradle => IsLast IsGradle output w
  | none => IsLast IsSurefire output w ∨
      IsLast IsGradle output w ∧ ∀ other, ¬ IsLast IsSurefire output other

theorem testCounts?_eq_some_iff {tool : Option Tool} {output : String} {counts : TestCounts} :
    testCounts? tool output = some counts ↔ ∃ w, IsSummary tool output w ∧ counts = w.counts := by
  match tool with
  | some .maven | some .ant => exact ofSurefire?_eq_some_iff
  | some .gradle => exact ofGradle?_eq_some_iff
  | none =>
    rw [testCounts?]
    cases hfirst : ofSurefire? output with
    | some found =>
      obtain ⟨w, hw, rfl⟩ := ofSurefire?_eq_some_iff.mp hfirst
      rw [Option.some_or, Option.some.injEq]
      constructor
      · rintro rfl
        exact ⟨w, Or.inl hw, rfl⟩
      · rintro ⟨other, hother | ⟨-, hnone⟩, rfl⟩
        · rw [ofSurefire?_eq_some_iff.mpr ⟨other, hother, rfl⟩] at hfirst
          exact (Option.some.inj hfirst).symm
        · exact absurd hw (hnone w)
    | none =>
      have hnone (other : Written) : ¬ IsLast IsSurefire output other := by
        intro hother
        rw [ofSurefire?_eq_some_iff.mpr ⟨other, hother, rfl⟩] at hfirst
        cases hfirst
      rw [Option.none_or, ofGradle?_eq_some_iff]
      exact exists_congr fun w => and_congr_left fun _ =>
        ⟨fun hw => Or.inr ⟨hw, hnone⟩, fun hw => (hw.resolve_left (hnone w)).1⟩

end TestCounts

/-! ## The step -/

namespace Verifier

open TestCounts (IsNumber IsSummary Written testCounts?_eq_some_iff)

variable {v : Verifier} {runner : Runner} {process : ProcessOutcome} {w : Written}

theorem hasFailures_eq_false_iff {t : TestCounts} :
    t.hasFailures = false ↔ (t.failures + t.errors) % MachineWord.card = 0 := by
  simp [TestCounts.hasFailures, TestCounts.failing, TestCounts.wordSum, MachineWord.wrap]

theorem status_explain (reason : String) (s : StepOutcome) :
    (explain reason s).status = s.status := by
  rw [explain]
  split <;> rfl

theorem status_testStep : (v.testStep runner process).status =
    if process.success = true ∧ (testCounts? v.tool process.output).any (·.hasFailures) = false
    then .passed else .failed := by
  rw [testStep, status_explain]
  cases (testCounts? v.tool process.output).any (·.hasFailures)
  · cases hsuccess : process.success <;> simp [step, hsuccess]
  · simp

/-- A test step passes exactly if its process succeeds and the words of failures and errors in the
summary that counts add up to 0. -/
theorem testStep_passed_iff : (v.testStep runner process).status = .passed ↔
    process.success = true ∧ ∀ w, IsSummary v.tool process.output w →
      (wordOrZero w.failures + wordOrZero w.errors) % MachineWord.card = 0 := by
  have hcounts : (testCounts? v.tool process.output).any (·.hasFailures) = false ↔
      ∀ w, IsSummary v.tool process.output w →
        (wordOrZero w.failures + wordOrZero w.errors) % MachineWord.card = 0 := by
    constructor
    · intro h w hw
      rw [testCounts?_eq_some_iff.mpr ⟨w, hw, rfl⟩, Option.any_some] at h
      exact hasFailures_eq_false_iff.mp h
    · intro h
      cases hread : testCounts? v.tool process.output with
      | none => rfl
      | some counts =>
        obtain ⟨w, hw, rfl⟩ := testCounts?_eq_some_iff.mp hread
        exact hasFailures_eq_false_iff.mpr (h w hw)
  rw [status_testStep, ← hcounts]
  split <;> simp_all

theorem testStep_failed_iff : (v.testStep runner process).status = .failed ↔
    (v.testStep runner process).status ≠ .passed := by
  rw [status_testStep]
  split <;> simp

/-- Where the numbers of failures and errors in the summary that counts are words whose sum is a
word, the step passes only if no failure and no error is written. -/
theorem failing_summary_fails (hw : IsSummary v.tool process.output w)
    (hfailures : WritesWord w.failures) (herrors : WritesWord w.errors)
    (hsum : numeralValue w.failures + numeralValue w.errors < MachineWord.card)
    (hne : numeralValue w.failures ≠ 0 ∨ numeralValue w.errors ≠ 0) :
    (v.testStep runner process).status = .failed := by
  rw [testStep_failed_iff]
  intro hpassed
  have hzero := (testStep_passed_iff.mp hpassed).2 w hw
  rw [wordOrZero_of_writesWord hfailures, wordOrZero_of_writesWord herrors,
    Nat.mod_eq_of_lt hsum] at hzero
  omega

/-- Tests are verified as passed exactly if there is a runner whose process succeeds with an output
in which the words of failures and errors add up to 0. -/
theorem verifyTests_passed_iff {σ : Type} {run : Run σ} {s : σ} :
    (∃ outcome, (v.verifyTests run s).1 = .ok outcome ∧ outcome.status = .passed) ↔
      ∃ runner process, v.test = some runner ∧ (run runner s).1 = .ok process ∧
        process.success = true ∧ ∀ w, IsSummary v.tool process.output w →
          (wordOrZero w.failures + wordOrZero w.errors) % MachineWord.card = 0 := by
  rw [verifyTests]
  cases htest : v.test with
  | none =>
    dsimp only
    rw [unavailable]
    cases v.requireTool <;> simp [StepOutcome.skipped]
  | some runner =>
    rcases hrun : run runner s with ⟨error | process, state⟩
    · simp [hrun]
    · simp [hrun, testStep_passed_iff]

/-- A failure written in other digits is not read, and the step passes. -/
theorem unread_failure_passes :
    let output := "Tests run: 3, Failures: ٢, Errors: 0, Skipped: 0\n"
    let written : Written := ⟨['3'], ['٢'], ['0'], ['0']⟩
    let runner : Runner := ⟨"mvn", ["mvn", "test"], none⟩
    let v : Verifier :=
      { tool := some .maven, compile := none, test := some runner, requireTool := false }
    let process : ProcessOutcome := ⟨true, 0, output, 0, false, .completed⟩
    IsSummary v.tool process.output written ∧ numeralValue written.failures = 2 ∧
      (v.testStep runner process).status = .passed := by
  intro output written runner v process
  have hnumber (digit next : Char) (rest : List Char)
      (hread : isDecimalDigit digit = true ∧ isDecimalDigit next = false) :
      IsNumber [digit] (next :: rest) := by
    refine ⟨List.cons_ne_nil _ _, fun _ h => List.mem_singleton.mp h ▸ hread.1, ?_⟩
    rintro _ ⟨⟩
    exact hread.2
  have hspace : ∀ c ∈ [' '], isBlank c = true := List.forall_mem_singleton.mpr (by decide)
  have hfirst : TestCounts.IsSurefire output.toList written ['\n'] :=
    ⟨_, _, _, ⟨[' '], hspace, by decide +kernel, hnumber '3' ',' _ (by decide +kernel)⟩,
      ⟨[' '], _, hspace, rfl, [' '], hspace, rfl, hnumber '٢' ',' _ (by decide +kernel)⟩,
      ⟨[' '], _, hspace, rfl, [' '], hspace, rfl, hnumber '0' ',' _ (by decide +kernel)⟩,
      ⟨[' '], _, hspace, rfl, [' '], hspace, rfl, hnumber '0' '\n' _ (by decide +kernel)⟩⟩
  have hbehind (w : Written) (rest : List Char) : ¬ TestCounts.IsSurefire ['\n'] w rest := by
    rintro ⟨_, _, _, ⟨_, -, htext, -⟩, -⟩
    cases htext
  have hscan : TestCounts.Scan TestCounts.IsSurefire output.toList [written] := by
    have htext : output.toList = 'T' :: output.toList.tail := by decide +kernel
    rw [htext] at hfirst ⊢
    exact .hit hfirst (.miss hbehind .nil)
  exact ⟨⟨_, hscan, rfl⟩, by decide +kernel, by decide +kernel⟩

end Verifier

end Amend.Build
