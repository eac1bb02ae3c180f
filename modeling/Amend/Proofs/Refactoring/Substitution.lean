import Amend.Proofs.Refactoring.Capture
import Mathlib.Data.List.Perm.Basic

/-!
# Arguments are put in place all at once

The edits of a substitution are gathered parameter by parameter, counted from the start of the
expression, sorted and done from the last one to the first.  What comes out is the expression as a
reader copies it from the source who writes, at every use of a parameter, the argument instead: the
uses are looked for in the source alone, so nothing in an argument is replaced.
-/

namespace Amend.Refactoring.Inline

open Syntax TextEdit EditSet

/-- The source from one offset to another as a reader copies it who writes an argument in the place
of each of some nodes on the way. -/
def filledIn (source : String) (first last : Nat) : List (Node × Node) → String
  | [] => Text.sliceD source first last
  | (use, arg) :: rest =>
    Text.sliceD source first use.start ++ argumentText arg source ++
      filledIn source use.stop last rest

section

variable {source : String} {expression : Node} {places : List (Node × Node)}

/-- What is up to order made of the members of a list is made of them in some order. -/
theorem exists_map_of_perm_map {α β : Type} {f : α → β} {ys : List β} {xs : List α}
    (h : ys.Perm (xs.map f)) : ∃ zs : List α, ys = zs.map f ∧ zs.Perm xs := by
  have hmade : List.Forall₂ (fun y x => y = f x) (xs.map f) xs :=
    List.forall₂_map_left_iff.mpr (List.forall₂_same.mpr fun _ _ => rfl)
  obtain ⟨zs, hzs, hperm⟩ := List.perm_comp_forall₂ h hmade
  rw [← List.forall₂_map_right_iff, List.forall₂_eq_eq_eq] at hzs
  exact ⟨zs, hzs, hperm⟩

/-- What edits make of a piece of the source is that piece filled in, if they put arguments in the
places of nodes, with offsets that are counted from `base`. -/
theorem Rewrites.eq_filledIn {base start : Nat} {a z c out : String} {edits : List TextEdit}
    (h : Rewrites start z edits out) (hsource : source = a ++ z ++ c)
    (ha : a.utf8ByteSize = base + start)
    (hplaces : List.Forall₂ (fun e place => base + e.start = place.1.start ∧
      base + e.stop = place.1.stop ∧ e.replacement = argumentText place.2 source) edits places) :
    out = filledIn source (base + start) (base + start + z.utf8ByteSize) places := by
  induction h generalizing a places with
  | done start z =>
    cases hplaces
    rw [filledIn, hsource, ← ha, Text.sliceD_append]
  | @edit start gap removed after out e rest hstart hstop hrest ih =>
    obtain _ | @⟨_, ⟨use, arg⟩, _, places, ⟨hfirst, hlast, hreplacement⟩, hplaces⟩ := hplaces
    dsimp only at hfirst hlast hreplacement
    have hgap : Text.sliceD source (base + start) use.start = gap := by
      have hpieces : source = a ++ gap ++ (removed ++ after ++ c) := by
        simp only [hsource, String.append_assoc]
      rw [hpieces, ← hfirst, ← hstart, ← Nat.add_assoc, ← ha]
      exact Text.sliceD_append a gap _
    have hend : base + e.stop + after.utf8ByteSize =
        base + start + (gap ++ removed ++ after).utf8ByteSize := by
      simp only [String.utf8ByteSize_append]
      omega
    have hbehind : out =
        filledIn source (base + e.stop) (base + e.stop + after.utf8ByteSize) places := by
      refine ih (a := a ++ gap ++ removed) ?_ ?_ hplaces
      · simp only [hsource, String.append_assoc]
      · simp only [String.utf8ByteSize_append]
        omega
    rw [filledIn, hgap, hreplacement, hbehind, hend, hlast]

/-- The uses of the parameters, each with the argument of its parameter. -/
def argumentPlaces (expression : Node) (source : String) (pairs : List (String × Node)) :
    List (Node × Node) :=
  pairs.flatMap fun pair =>
    (Java.variableReferences expression source pair.1).map fun use => (use, pair.2)

/-- The edit that puts an argument in its place in the text of the expression. -/
def placeEdit (expression : Node) (source : String) (place : Node × Node) : TextEdit :=
  .replace (place.1.start - expression.start) (place.1.stop - expression.start)
    (argumentText place.2 source) ("substitute " ++ place.1.text source)

theorem map_placeEdit {pairs : List (String × Node)} :
    (argumentPlaces expression source pairs).map (placeEdit expression source) =
      pairs.flatMap fun pair => paramEdits expression source pair.1 pair.2 := by
  rw [argumentPlaces, List.map_flatMap]
  refine List.flatMap_congr fun pair _ => ?_
  rw [paramEdits, List.map_map]
  refine List.map_congr_left fun use huse => ?_
  rw [Java.variableReferences_eq] at huse
  have hname := (Java.refersTo_iff.mp (List.mem_filter.mp huse).2).2.1
  rw [Function.comp_apply, placeEdit, hname]

theorem map_fst_argumentPlaces {pairs : List (String × Node)} :
    (argumentPlaces expression source pairs).map (·.1) =
      (pairs.map (·.1)).flatMap (Java.variableReferences expression source) := by
  rw [argumentPlaces, List.map_flatMap, List.flatMap_map]
  refine List.flatMap_congr fun pair _ => ?_
  rw [List.map_map]
  exact List.map_id _

/-- An argument's place is a use of its parameter in the expression. -/
theorem of_mem_argumentPlaces {pairs : List (String × Node)} {place : Node × Node}
    (h : place ∈ argumentPlaces expression source pairs) :
    expression.Holds place.1 ∧ (place.1.text source, place.2) ∈ pairs := by
  obtain ⟨pair, hpair, h⟩ := List.mem_flatMap.mp h
  obtain ⟨use, huse, rfl⟩ := List.mem_map.mp h
  rw [Java.variableReferences_eq] at huse
  obtain ⟨hmet, hrefers⟩ := List.mem_filter.mp huse
  refine ⟨Node.holds_of_mem_visit hmet, ?_⟩
  rw [(Java.refersTo_iff.mp hrefers).2.1]
  exact hpair

/-- An accepted substitution puts the arguments in the places of the uses of their parameters, all
at once: copied from the source, from its start to its end, the expression has at every use of a
parameter the text of the argument and is otherwise unchanged.  The uses are those that stand in the
source, each of them once, from left to right. -/
theorem substitution_is_simultaneous {params : List (String × String)} {call : Node}
    {inlined : String} (hfits : expression.tree.fits source = true)
    (h : substitute expression source params call = .ok inlined) :
    (Java.callArguments call).length = params.length ∧ ∃ places : List (Node × Node),
      (places.map (·.1)).Perm
        ((params.map (·.2)).flatMap (Java.variableReferences expression source)) ∧
      (∀ place ∈ places, (place.1.text source, place.2) ∈
        (params.map (·.2)).zip (Java.callArguments call)) ∧
      places.Pairwise (fun a b => a.1.stop ≤ b.1.start) ∧
      inlined = filledIn source expression.start expression.stop places := by
  have hlength := (substitute_eq_ok_iff.mp h).1
  obtain ⟨ordered, hordered, hapart, hrewrites⟩ := exists_rewrites_of_substitute hfits h
  rw [← map_placeEdit] at hordered
  generalize hpairs : (params.map (·.2)).zip (Java.callArguments call) = pairs at hordered
  have hnames : pairs.map (·.1) = params.map (·.2) := by
    rw [← hpairs, List.map_fst_zip (by rw [List.length_map, hlength])]
  -- in reading order the edits are those of the places in some order
  obtain ⟨places, rfl, hperm⟩ := exists_map_of_perm_map hordered.perm
  have hin : ∀ place ∈ places, expression.Holds place.1 ∧
      (place.1.text source, place.2) ∈ pairs := fun place hplace =>
    of_mem_argumentPlaces (hperm.mem_iff.mp hplace)
  have hspan (place : Node × Node) (hplace : place ∈ places) :
      expression.start ≤ place.1.start ∧ place.1.start ≤ place.1.stop := by
    obtain ⟨hthis, hfirst, -⟩ := (hin place hplace).1.spans hfits
    exact ⟨hfirst, Tree.start_le_stop _ hthis⟩
  refine ⟨hlength, places, ?_, fun place hplace => (hin place hplace).2, ?_, ?_⟩
  · rw [← hnames, ← map_fst_argumentPlaces]
    exact hperm.map _
  · refine List.Pairwise.imp_of_mem ?_ (List.pairwise_map.mp hapart)
    intro a b ha hb hab
    have hle : a.1.stop - expression.start ≤ b.1.start - expression.start := hab
    obtain ⟨hfirst, -⟩ := hspan b hb
    omega
  · obtain ⟨a, c, hsource, ha, hstop⟩ := Text.slice?_eq_some_iff.mp (Node.slice?_eq_text hfits)
    have hbase : a.utf8ByteSize = expression.start + 0 := ha
    have hfilled := Rewrites.eq_filledIn hrewrites hsource hbase
      (List.forall₂_map_left_iff.mpr (List.forall₂_same.mpr fun place hplace => ?_))
    · rwa [Nat.add_zero, hstop] at hfilled
    · obtain ⟨hfirst, hle⟩ := hspan place hplace
      exact ⟨Nat.add_sub_cancel' hfirst, Nat.add_sub_cancel' (hfirst.trans hle), rfl⟩

end

/-! ## Arguments that name the parameters -/

/-- A class whose method `mix` is called with arguments that name its parameters. -/
def mixSource : String :=
  "class Calc \x7b\n    int run(int x, int y) \x7b\n        return mix(y + 1, x);\n    \x7d\n\n" ++
    "    private int mix(int x, int y) \x7b\n        return x * y + x;\n    \x7d\n\x7d\n"

/-- The expression of the method. -/
def mixExpression : Node := .root
  ⟨.binaryExpression, none, false, 129, 138, [
    ⟨.binaryExpression, some .left, false, 129, 134, [
    ⟨.identifier, some .left, false, 129, 130, []⟩,
    ⟨.token "*", some .operator, false, 131, 132, []⟩,
    ⟨.identifier, some .right, false, 133, 134, []⟩]⟩,
    ⟨.token "+", some .operator, false, 135, 136, []⟩,
    ⟨.identifier, some .right, false, 137, 138, []⟩]⟩

/-- The call of the method. -/
def mixCall : Node := .root
  ⟨.methodInvocation, none, false, 56, 69, [⟨.identifier, some .name, false, 56, 59, []⟩,
    ⟨.argumentList, some .arguments, false, 59, 69, [⟨.token "(", none, false, 59, 60, []⟩,
    ⟨.binaryExpression, none, false, 60, 65, [⟨.identifier, some .left, false, 60, 61, []⟩,
    ⟨.token "+", some .operator, false, 62, 63, []⟩,
    ⟨.decimalIntegerLiteral, some .right, false, 64, 65, []⟩]⟩,
    ⟨.token ",", none, false, 65, 66, []⟩, ⟨.identifier, none, false, 67, 68, []⟩,
    ⟨.token ")", none, false, 68, 69, []⟩]⟩]⟩

/-- Its parameters. -/
def mixParams : List (String × String) := [("int", "x"), ("int", "y")]

theorem substitute_mix :
    substitute mixExpression mixSource mixParams mixCall = .ok "(y + 1) * x + (y + 1)" := by
  have hedits : (substitutions mixExpression mixSource (mixCall.firstLine mixSource) none
      ((mixParams.map (·.2)).zip (Java.callArguments mixCall))).toOption =
        some [.replace 0 1 "(y + 1)" "substitute x", .replace 8 9 "(y + 1)" "substitute x",
          .replace 4 5 "x" "substitute y"] := by
    decide +kernel
  refine substitute_eq_ok_iff.mpr ⟨by decide +kernel, _,
    ⟨[.replace 0 1 "(y + 1)" "substitute x", .replace 4 5 "x" "substitute y",
      .replace 8 9 "(y + 1)" "substitute x"]⟩, EditSet.toOption_eq_some_iff.mp hedits,
    (EditSet.ofList_eq_ok_iff ⟨by decide +kernel, fun k => ?_⟩ _).mpr ⟨rfl, ?_, ?_⟩,
    by decide +kernel⟩
  · by_cases hy : (TextEdit.replace 4 5 "x" "substitute y").key = k
    · rw [← hy]
      decide +kernel
    · simp [List.filter_cons, hy]
  · simp only [TextEdit.Fits]
    decide +kernel
  · rw [TextEdit.Apart]
    decide +kernel

/-- The arguments stand where the parameters stood, and the `y` and the `x` in them stay. -/
theorem substitution_is_simultaneous_mix : ∃ places : List (Node × Node),
    (places.map (·.1)).Perm
      (["x", "y"].flatMap (Java.variableReferences mixExpression mixSource)) ∧
    places.Pairwise (fun a b => a.1.stop ≤ b.1.start) ∧
    "(y + 1) * x + (y + 1)" = filledIn mixSource 129 138 places := by
  obtain ⟨-, places, hperm, -, hsorted, hfilled⟩ :=
    substitution_is_simultaneous (by decide +kernel) substitute_mix
  exact ⟨places, hperm, hsorted, hfilled⟩

end Amend.Refactoring.Inline
