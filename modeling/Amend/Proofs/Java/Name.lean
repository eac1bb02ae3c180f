import Amend.Java.Name
import Amend.Proofs.Text.Numeral
import Mathlib.Data.List.Nodup
import Mathlib.Data.List.Perm.Subperm
import Mathlib.Order.Bounds.Basic

/-!
# Fresh names

The search for a free name goes through the numbered names after a base until one is not taken.
Nothing bounds it beforehand, but the numbered names are all different, so it passes at most as many
of them as there are taken names.  The number at which it ends exceeds the one at which it starts by
no more than that, which is all that its counter has to hold.

A legal identifier stays legal with a number behind it: digits may stand in a name, and no reserved
word ends in one.
-/

namespace Amend.Java

variable {base name : String} {taken : List String} {start n : Nat}

/-! ## The search -/

/-- A search through the numbers from `start` on: it passes those that make a taken name of the base
and ends at the first that does not. -/
inductive Search (base : String) (taken : List String) : Nat → Nat → Prop
  | ends {n : Nat} (hfree : base ++ toString n ∉ taken) : Search base taken n n
  | passes {n last : Nat} (htaken : base ++ toString n ∈ taken)
    (hrest : Search base taken (n + 1) last) : Search base taken n last

/-- The numbers from `start` on that make a free name of the base. -/
def freeNumbers (base : String) (taken : List String) (start : Nat) : Set Nat :=
  {m | start ≤ m ∧ base ++ toString m ∉ taken}

theorem numbered_injective (base : String) : Function.Injective fun n : Nat => base ++ toString n :=
  fun _ _ h => Text.toString_injective ((String.append_right_inj base).mp h)

/-- Of one number more than there are taken names, one makes a free name. -/
theorem exists_freeNumber (base : String) (taken : List String) (start : Nat) :
    ∃ n ∈ freeNumbers base taken start, n ≤ start + taken.length := by
  by_contra hnone
  push Not at hnone
  have htaken :
      ((List.range' start (taken.length + 1)).map fun n => base ++ toString n) ⊆ taken := by
    intro name hname
    obtain ⟨n, hn, rfl⟩ := List.mem_map.mp hname
    obtain ⟨hstart, hend⟩ := List.mem_range'_1.mp hn
    by_contra hfree
    have := hnone n ⟨hstart, hfree⟩
    omega
  have hnodup : ((List.range' start (taken.length + 1)).map fun n => base ++ toString n).Nodup :=
    List.Nodup.map (numbered_injective base) List.nodup_range'
  have hle := (List.subperm_of_subset hnodup htaken).length_le
  rw [List.length_map, List.length_range'] at hle
  omega

/-- The search ends at the least number that makes a free name. -/
theorem search_iff_isLeast :
    Search base taken start n ↔ IsLeast (freeNumbers base taken start) n := by
  constructor
  · intro h
    induction h with
    | ends hfree => exact ⟨⟨le_rfl, hfree⟩, fun _ hm => hm.1⟩
    | @passes first last htaken _ ih =>
      obtain ⟨⟨hle, hfree⟩, hleast⟩ := ih
      refine ⟨⟨by omega, hfree⟩, fun m hm => hleast ⟨?_, hm.2⟩⟩
      have hne : m ≠ first := by
        rintro rfl
        exact hm.2 htaken
      have := hm.1
      omega
  · rintro ⟨⟨hle, hfree⟩, hleast⟩
    induction hle using Nat.decreasingInduction with
    | self => exact .ends hfree
    | of_succ k hk ih =>
      have htaken : base ++ toString k ∈ taken := by
        by_contra hkfree
        have := hleast ⟨le_rfl, hkfree⟩
        omega
      exact .passes htaken (ih fun m hm => hleast ⟨by have := hm.1; omega, hm.2⟩)

/-- The search ends after at most as many steps as there are taken names. -/
theorem exists_search (base : String) (taken : List String) (start : Nat) :
    ∃ n, Search base taken start n ∧ n ≤ start + taken.length := by
  obtain ⟨m, ⟨hle, hfree⟩, hsoon⟩ := exists_freeNumber base taken start
  suffices h : ∃ n, Search base taken start n ∧ n ≤ m by
    obtain ⟨n, hsearch, hn⟩ := h
    exact ⟨n, hsearch, hn.trans hsoon⟩
  clear hsoon
  induction hle using Nat.decreasingInduction with
  | self => exact ⟨m, .ends hfree, le_rfl⟩
  | of_succ k hk ih =>
    by_cases htaken : base ++ toString k ∈ taken
    · obtain ⟨n, hsearch, hn⟩ := ih
      exact ⟨n, .passes htaken hsearch, hn⟩
    · exact ⟨k, .ends htaken, hk.le⟩

/-- A base with a number behind it, the least from `start` on that makes a free name.  The search
for it ends there, before it has passed more numbers than there are taken names. -/
inductive Numbered (base : String) (taken : List String) (start : Nat) : String → Prop
  | intro {n : Nat} (hleast : IsLeast (freeNumbers base taken start) n)
    (hsearch : Search base taken start n) (hsoon : n ≤ start + taken.length) :
    Numbered base taken start (base ++ toString n)

theorem Numbered.notMem (h : Numbered base taken start name) : name ∉ taken := by
  cases h with
  | intro hleast => exact hleast.1.2

/-- One numbered name more than there are taken names is enough to find a free one. -/
theorem exists_find?_numbered (base : String) (taken : List String) (start : Nat) :
    ∃ name, ((List.range (taken.length + 1)).map fun i => base ++ toString (i + start)).find?
      (fun name => !taken.contains name) = some name ∧ Numbered base taken start name := by
  obtain ⟨n, hsearch, hsoon⟩ := exists_search base taken start
  have hleast := search_iff_isLeast.mp hsearch
  obtain ⟨hle, hfree⟩ := hleast.1
  refine ⟨base ++ toString n, ?_, .intro hleast hsearch hsoon⟩
  have hback : n - start + start = n := by omega
  have hfind : (List.range (taken.length + 1)).find?
      ((fun name => !taken.contains name) ∘ fun i => base ++ toString (i + start)) =
      some (n - start) := by
    rw [List.find?_range_eq_some]
    refine ⟨by simpa [hback] using hfree, List.mem_range.mpr (by omega), fun j hj => ?_⟩
    by_contra hpassed
    have hjfree : base ++ toString (j + start) ∉ taken := by simpa using hpassed
    have := hleast.2 ⟨Nat.le_add_left start j, hjfree⟩
    omega
  rw [List.find?_map, hfind, Option.map_some, hback]

/-! ## Made fresh -/

/-- A name made fresh: the base itself if it is not taken, and else the base with a number from 2
on. -/
inductive Freshened (base : String) (taken : List String) (name : String) : Prop
  | same (hfree : base ∉ taken) (hname : name = base)
  | changed (htaken : base ∈ taken) (hname : Numbered base taken 2 name)

theorem freshened_uniqueName (base : String) (taken : List String) :
    Freshened base taken (uniqueName base taken) := by
  rw [uniqueName]
  split
  case isTrue htaken =>
    obtain ⟨name, hfind, hname⟩ := exists_find?_numbered base taken 2
    rw [numbered, hfind]
    exact .changed (List.contains_iff_mem.mp htaken) hname
  case isFalse hfree => exact .same (by simpa using hfree) rfl

theorem Freshened.notMem (h : Freshened base taken name) : name ∉ taken := by
  cases h with
  | same hfree hname => rwa [hname]
  | changed _ hname => exact hname.notMem

example : uniqueName "LIMIT" ["LIMIT", "LIMIT2", "LIMIT4"] = "LIMIT3" := by decide +kernel

/-- The name that is found is not taken. -/
theorem uniqueName_notMem (base : String) (taken : List String) :
    uniqueName base taken ∉ taken := (freshened_uniqueName base taken).notMem

/-! ## Legal names -/

theorem isIdentifier_iff (word : String) : isIdentifier word = true ↔
    ∃ first rest, word.toList = first :: rest ∧ isNameStart first = true ∧
      (∀ c ∈ rest, isNamePart c = true) ∧ word ∉ keywords := by
  rw [isIdentifier]
  cases word.toList with
  | nil => simp
  | cons first rest =>
    simp only [Bool.and_eq_true, Bool.not_eq_true', List.all_eq_true, isKeyword,
      List.contains_eq_mem, decide_eq_false_iff_not, List.cons.injEq, and_assoc]
    constructor
    · exact fun h => ⟨first, rest, rfl, rfl, h⟩
    · rintro ⟨_, _, rfl, rfl, h⟩
      exact h

theorem isNamePart_of_isDigit {c : Char} (h : Text.IsDigit c) : isNamePart c = true := by
  have hall : ∀ n < 58, 48 ≤ n → isNamePart (Char.ofNat n) = true := by decide +kernel
  exact h.induction (P := fun c => isNamePart c = true) hall

theorem toList_append_toString (base : String) (n : Nat) :
    (base ++ toString n).toList = base.toList ++ Nat.toDigits 10 n := by
  rw [String.toList_append]
  exact congrArg (base.toList ++ ·) String.toList_ofList

/-- No reserved word ends in a digit. -/
theorem append_toString_notMem_keywords (base : String) (n : Nat) :
    base ++ toString n ∉ keywords := by
  have hend : ∀ word ∈ keywords, word.toList.getLast?.any Char.isDigit = false := by
    decide +kernel
  intro hmem
  have hdigits : Nat.toDigits 10 n ≠ [] := Nat.toDigits_ne_nil
  have hlast : (base ++ toString n).toList.getLast? =
      some ((Nat.toDigits 10 n).getLast hdigits) := by
    rw [toList_append_toString, List.getLast?_append_of_ne_nil _ hdigits,
      List.getLast?_eq_some_getLast hdigits]
  have hletter := hend _ hmem
  rw [hlast, Option.any_some,
    Nat.isDigit_of_mem_toDigits (by decide) (by decide) (List.getLast_mem hdigits)] at hletter
  cases hletter

/-- A legal identifier stays legal with a number behind it. -/
theorem isIdentifier_append_toString (h : isIdentifier base = true) (n : Nat) :
    isIdentifier (base ++ toString n) = true := by
  obtain ⟨first, rest, hbase, hfirst, hrest, -⟩ := (isIdentifier_iff base).mp h
  refine (isIdentifier_iff _).mpr ⟨first, rest ++ Nat.toDigits 10 n, ?_, hfirst, ?_,
    append_toString_notMem_keywords base n⟩
  · rw [toList_append_toString, hbase, List.cons_append]
  · intro c hc
    rcases List.mem_append.mp hc with hc | hc
    · exact hrest c hc
    · exact isNamePart_of_isDigit (Text.isDigit_of_mem_toDigits hc)

theorem Freshened.isIdentifier (h : Freshened base taken name)
    (hbase : isIdentifier base = true) : Java.isIdentifier name = true := by
  cases h with
  | same _ hname => rwa [hname]
  | changed _ hname =>
    cases hname with
    | @intro n => exact isIdentifier_append_toString hbase n

end Amend.Java
