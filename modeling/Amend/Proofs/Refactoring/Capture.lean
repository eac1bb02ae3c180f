import Amend.Proofs.Refactoring.Effects
import Mathlib.Data.List.Find

/-!
# What the names mean in an inlined expression

The substitution replaces the parameters and nothing else, so every other name of the method's
expression stands in the inlined one as it was.  It still means what it meant if nothing around the
call declares it anew, and that is not looked at.
-/

namespace Amend.Refactoring.Inline

open Syntax TextEdit EditSet

/-! ## What the substitution puts in place -/

section

variable {source : String} {expression : Node} {pairs : List (String × Node)}

/-- The edits of an accepted substitution are those of its parameters. -/
theorem substitutions_eq_ok {line : Nat} {lastEffect : Option (Nat × String)}
    {edits : List TextEdit}
    (h : substitutions expression source line lastEffect pairs = .ok edits) :
    edits = pairs.flatMap fun pair => paramEdits expression source pair.1 pair.2 := by
  induction pairs generalizing lastEffect edits with
  | nil =>
    cases h
    rfl
  | cons pair pairs ih =>
    obtain ⟨nextEffect, rest, hrest, rfl, -⟩ := substitutions_cons_eq_ok h
    rw [List.flatMap_cons, ih hrest]

/-- The edit of a parameter replaces a use of it. -/
theorem exists_of_mem_paramEdits {param : String} {arg : Node} {e : TextEdit}
    (he : e ∈ paramEdits expression source param arg) :
    ∃ use ∈ expression.preorder, Java.refersTo source param use = true ∧
      e.start = use.start - expression.start ∧ e.stop = use.stop - expression.start ∧
      e.replacement = argumentText arg source := by
  obtain ⟨use, huse, rfl⟩ := List.mem_map.mp he
  rw [Java.variableReferences_eq] at huse
  obtain ⟨hmet, hrefers⟩ := List.mem_filter.mp huse
  exact ⟨use, hmet, hrefers, rfl, rfl, rfl⟩

/-- In a tree that fits a source the text of what an expression holds is a piece of the text of the
expression. -/
theorem exists_pieces_of_holds {n : Node} (hfits : expression.tree.fits source = true)
    (hn : expression.Holds n) :
    ∃ y x : String, expression.text source = y ++ n.text source ++ x ∧
      expression.start + y.utf8ByteSize = n.start ∧
      n.start + (n.text source).utf8ByteSize = n.stop := by
  obtain ⟨hthis, hfirst, hlast⟩ := hn.spans hfits
  have hpiece := Node.slice?_eq_text hthis
  obtain ⟨y, x, htext, hy⟩ :=
    Text.exists_pieces_within (Node.slice?_eq_text hfits) hpiece hfirst hlast
  obtain ⟨-, -, -, -, hstop⟩ := Text.slice?_eq_some_iff.mp hpiece
  exact ⟨y, x, htext, hy, hstop⟩

/-- The edits of an accepted substitution, in reading order, turn the text of the expression into
the inlined one. -/
theorem exists_rewrites_of_substitute {params : List (String × String)} {call : Node}
    {inlined : String} (hfits : expression.tree.fits source = true)
    (h : substitute expression source params call = .ok inlined) :
    ∃ ordered, InReadingOrder (((params.map (·.2)).zip (Java.callArguments call)).flatMap
        fun pair => paramEdits expression source pair.1 pair.2) ordered ∧ Apart ordered ∧
      Rewrites 0 (expression.text source) ordered inlined := by
  obtain ⟨-, edits, set, hedits, hset, happly⟩ := substitute_eq_ok_iff.mp h
  have hcut : ∀ e ∈ set.edits, OnBoundaries (expression.text source) e := by
    intro e he
    obtain ⟨rfl, -⟩ := (ofList_eq_ok_iff (inReadingOrder_mergeSort edits) set).mp hset
    rw [(inReadingOrder_mergeSort edits).mem_iff, substitutions_eq_ok hedits] at he
    obtain ⟨pair, -, he⟩ := List.mem_flatMap.mp he
    obtain ⟨use, huse, -, hstart, hstop, -⟩ := exists_of_mem_paramEdits he
    obtain ⟨y, x, htext, hy, huse⟩ := exists_pieces_of_holds hfits (Node.holds_of_mem_visit huse)
    have hfirst : e.start = y.utf8ByteSize := by omega
    have hlast : e.stop = (y ++ use.text source).utf8ByteSize := by
      rw [String.utf8ByteSize_append]
      omega
    refine ⟨?_, ?_⟩
    · rw [htext, hfirst, String.append_assoc]
      exact Text.isBoundary_append _ _
    · rw [htext, hlast]
      exact Text.isBoundary_append _ _
  obtain ⟨ordered, ho, hapart, hrewrites⟩ := exists_rewrites_of_applyTo? hset hcut happly
  exact ⟨ordered, substitutions_eq_ok hedits ▸ ho, hapart, hrewrites⟩

end

/-! ## The names that are no parameters -/

namespace Inlinable

variable {source : String} {t : Tree} (m : Inlinable source t) {call n : Node} {inlined : String}

/-- The variables that the expression reads or writes and that are no parameters of the method. -/
def nonParameters : List Node :=
  m.expression.preorder.filter fun n =>
    Java.refersTo source (n.text source) n && !(m.params.map (·.2)).contains (n.text source)

/-- The edits that put the arguments of a call in the places of the parameters. -/
def argumentEdits (call : Node) : List TextEdit :=
  (m.pairs call).flatMap fun pair => paramEdits m.expression source pair.1 pair.2

/-- A part of the expression stands in the inlined text as it was, behind what the edits make of
the text before it and ahead of what they make of the text behind it. -/
def StaysIn (call : Node) (inlined : String) (n : Node) : Prop :=
  ∃ ahead behind y x y' x', InReadingOrder (m.argumentEdits call) (ahead ++ behind) ∧
    m.expression.text source = y ++ n.text source ++ x ∧
    m.expression.start + y.utf8ByteSize = n.start ∧ inlined = y' ++ n.text source ++ x' ∧
    Rewrites 0 y ahead y' ∧ Rewrites (y ++ n.text source).utf8ByteSize x behind x'

/-- A name that is no parameter stays in the inlined text. -/
theorem staysIn_of_mem_nonParameters (hfits : m.expression.tree.fits source = true)
    (hbare : m.expression.tree.wordsBare = true)
    (h : substitute m.expression source m.params call = .ok inlined) (hn : n ∈ m.nonParameters) :
    m.StaysIn call inlined n := by
  obtain ⟨hmet, hfree⟩ := List.mem_filter.mp hn
  obtain ⟨hrefers, hparam⟩ := Bool.and_eq_true_iff.mp hfree
  have hleaf {k : Node} {name : String} (hk : k ∈ m.expression.preorder)
      (hrefers : Java.refersTo source name k = true) : k.tree.children = [] :=
    Java.children_of_refersTo ((Node.holds_of_mem_visit hk).wordsBare hbare) hrefers
  obtain ⟨ordered, hordered, -, hrewrites⟩ := exists_rewrites_of_substitute hfits h
  obtain ⟨y, x, htext, hy, hstop⟩ := exists_pieces_of_holds hfits (Node.holds_of_mem_visit hmet)
  have hspared : ∀ e ∈ ordered, e.stop ≤ 0 + y.utf8ByteSize ∨
      0 + (y ++ n.text source).utf8ByteSize ≤ e.start := by
    intro e he
    obtain ⟨pair, hpair, he⟩ := List.mem_flatMap.mp ((hordered.mem_iff e).mp he)
    obtain ⟨use, huse, huses, hfirst, hlast, -⟩ := exists_of_mem_paramEdits he
    have hne : use ≠ n := by
      rintro rfl
      have hname : use.text source ∈ m.params.map (·.2) := by
        rw [(Java.refersTo_iff.mp huses).2.1]
        exact (List.of_mem_zip hpair).1
      rw [List.contains_iff_mem.mpr hname] at hparam
      cases hparam
    have hapart := Node.apart_of_mem_preorder hfits huse hmet (hleaf huse huses)
      (hleaf hmet hrefers) hne
    have hbase := ((Node.holds_of_mem_visit huse).spans hfits).2.1
    rw [String.utf8ByteSize_append]
    omega
  rw [htext] at hrewrites
  obtain ⟨ahead, behind, y', x', rfl, rfl, hahead, hbehind⟩ := hrewrites.spared hspared
  rw [Nat.zero_add] at hbehind
  exact ⟨ahead, behind, y, x, y', x', hordered, htext, hy, rfl, hahead, hbehind⟩

end Inlinable

/-! ## What a name means -/

/-- The node that gives a name its meaning at a place: the nearest one above that declares it. -/
def binder? (declares : Node → Bool) (place : Node) : Option Node :=
  place.ancestors.find? declares

section

variable {home place call k : Node} {declares declares' : Node → Bool}

/-- A name that no node between a place and a node around it declares means what it means there. -/
theorem binder?_eq_outside (hplace : home.Holds place) (hne : place ≠ home)
    (hfree : ∀ k ∈ place.ancestors, home.Holds k → k ≠ home → declares k = false) :
    binder? declares place = (home :: home.ancestors).find? declares := by
  obtain ⟨inner, hinner, hbetween⟩ := hplace.ancestors_eq hne
  rw [hinner] at hfree
  have hnone : inner.find? declares = none := List.find?_eq_none.mpr fun k hk => by
    obtain ⟨hheld, hk'⟩ := hbetween k hk
    simpa using hfree k (List.mem_append_left _ hk) hheld hk'
  rw [binder?, hinner, List.find?_append, hnone, Option.none_or]

/-- A name that some node between a place and a node around it declares means something there. -/
theorem exists_binder?_inside (hplace : home.Holds place) (hne : place ≠ home)
    (hk : k ∈ place.ancestors) (hheld : home.Holds k) (hk' : k ≠ home)
    (hdeclares : declares k = true) :
    ∃ b, binder? declares place = some b ∧ home.Holds b ∧ b ≠ home := by
  obtain ⟨inner, hinner, hbetween⟩ := hplace.ancestors_eq hne
  have hmem : k ∈ inner := by
    rw [hinner] at hk
    rcases List.mem_append.mp hk with hk | hk
    · exact hk
    · exact absurd hheld (Node.not_holds_of_mem_ancestors ((List.mem_cons.mp hk).resolve_left hk'))
  cases hfind : inner.find? declares with
  | none => exact absurd hdeclares (List.find?_eq_none.mp hfind k hmem)
  | some b =>
    obtain ⟨hb, hb'⟩ := hbetween b (List.mem_of_find?_eq_some hfind)
    exact ⟨b, by rw [binder?, hinner, List.find?_append, hfind, Option.some_or], hb, hb'⟩

/-- A name that means at one place what it means around a node means the same at another place in
that node exactly if nothing between declares it. -/
theorem binder?_eq_iff (hplace : home.Holds place) (hplace' : place ≠ home)
    (hcall : home.Holds call) (hcall' : call ≠ home)
    (houtside : ∀ k ∈ home :: home.ancestors, declares' k = declares k)
    (hfree : ∀ k ∈ place.ancestors, home.Holds k → k ≠ home → declares k = false) :
    binder? declares' call = binder? declares place ↔
      ∀ k ∈ call.ancestors, home.Holds k → k ≠ home → declares' k = false := by
  have hsame : (home :: home.ancestors).find? declares' =
      (home :: home.ancestors).find? declares :=
    List.find?_congr houtside
  rw [binder?_eq_outside hplace hplace' hfree, ← hsame]
  refine ⟨fun h k hk hheld hk' => ?_, binder?_eq_outside hcall hcall'⟩
  by_contra hdeclares
  obtain ⟨b, hb, hheld', hb'⟩ := exists_binder?_inside hcall hcall' hk hheld hk'
    (Bool.eq_true_of_not_eq_false hdeclares)
  have hmem : b ∈ home :: home.ancestors := List.mem_of_find?_eq_some (h.symm.trans hb)
  exact Node.not_holds_of_mem_ancestors ((List.mem_cons.mp hmem).resolve_left hb') hheld'

end

section

variable {source : String} {t : Tree} {d : Defect} {r : Rewrite}

/-- At every call that is replaced the names that are no parameters stay as they were.  A name that
means a member of a type around the method and the call, or something further out, still means it
exactly if nothing between that type and the call declares the name; the rewrite does not look. -/
theorem inlined_names_keep_meaning (hfits : t.fits source = true) (hbare : t.wordsBare = true)
    (h : rewrite d source t = .ok r) :
    ∃ m : Inlinable source t, m.calls ≠ [] ∧ ∀ call ∈ m.calls, ∃ e inlined,
      m.edit call = .ok e ∧ (e.replacement = inlined ∨ e.replacement = "(" ++ inlined ++ ")") ∧
      ∀ n ∈ m.nonParameters, m.StaysIn call inlined n ∧
        ∀ {declares : Node → Node → String → Bool} {home : Node},
          home.Holds n → n ≠ home → home.Holds call → call ≠ home →
          (∀ k ∈ home :: home.ancestors,
            declares k call (n.text source) = declares k n (n.text source)) →
          (∀ k ∈ n.ancestors, home.Holds k → k ≠ home →
            declares k n (n.text source) = false) →
          (binder? (declares · call (n.text source)) call =
              binder? (declares · n (n.text source)) n ↔
            ∀ k ∈ call.ancestors, home.Holds k → k ≠ home →
              declares k call (n.text source) = false) := by
  obtain ⟨m, hfound, hsome⟩ := exists_inlinable h
  rw [m.rewrite_eq hfound hsome] at h
  obtain ⟨edits, hedits, -⟩ := exists_of_bind_eq_ok h
  have hheld := m.held.trans (holds_of_singleExpression? m.single)
  refine ⟨m, hsome, fun call hcall => ?_⟩
  obtain ⟨e, -, hedit⟩ := exists_of_forall₂ (forall₂_of_mapM_eq_ok hedits) hcall
  obtain ⟨-, -, inlined, hinlined, hreplacement⟩ := callEdit_eq_ok hedit
  refine ⟨e, inlined, hedit, hreplacement, fun n hn => ⟨?_, ?_⟩⟩
  · exact m.staysIn_of_mem_nonParameters (hheld.spans hfits).1 (hheld.wordsBare hbare) hinlined hn
  · intro declares home hplace hplace' hcall hcall' houtside hfree
    exact binder?_eq_iff hplace hplace' hcall hcall' houtside hfree

end

/-! ## A field with the name of a parameter -/

/-- A class with a field and a method that has a parameter of the same name. -/
def stepSource : String :=
  "class Counter \x7b\n    private int step = 1;\n\n    int run(int step) \x7b\n" ++
    "        return next(step);\n    \x7d\n\n    private int next(int x) \x7b\n" ++
    "        return x + step;\n    \x7d\n\x7d\n"

/-- Its tree. -/
def stepTree : Tree :=
  ⟨.program, none, false, 0, 164, [⟨.classDeclaration, none, false, 0, 163, [
    ⟨.token "class", none, false, 0, 5, []⟩, ⟨.identifier, some .name, false, 6, 13, []⟩,
    ⟨.classBody, some .body, false, 14, 163, [⟨.token "\x7b", none, false, 14, 15, []⟩,
    ⟨.fieldDeclaration, none, false, 20, 41, [⟨.modifiers, none, false, 20, 27, [
    ⟨.token "private", none, false, 20, 27, []⟩]⟩, ⟨.integralType, some .type, false, 28, 31, [
    ⟨.token "int", none, false, 28, 31, []⟩]⟩,
    ⟨.variableDeclarator, some .declarator, false, 32, 40, [
    ⟨.identifier, some .name, false, 32, 36, []⟩, ⟨.token "=", none, false, 37, 38, []⟩,
    ⟨.decimalIntegerLiteral, some .value, false, 39, 40, []⟩]⟩,
    ⟨.token ";", none, false, 40, 41, []⟩]⟩, ⟨.methodDeclaration, none, false, 47, 99, [
    ⟨.integralType, some .type, false, 47, 50, [⟨.token "int", none, false, 47, 50, []⟩]⟩,
    ⟨.identifier, some .name, false, 51, 54, []⟩,
    ⟨.formalParameters, some .parameters, false, 54, 64, [⟨.token "(", none, false, 54, 55, []⟩,
    ⟨.formalParameter, none, false, 55, 63, [⟨.integralType, some .type, false, 55, 58, [
    ⟨.token "int", none, false, 55, 58, []⟩]⟩, ⟨.identifier, some .name, false, 59, 63, []⟩]⟩,
    ⟨.token ")", none, false, 63, 64, []⟩]⟩, ⟨.block, some .body, false, 65, 99, [
    ⟨.token "\x7b", none, false, 65, 66, []⟩, ⟨.returnStatement, none, false, 75, 93, [
    ⟨.token "return", none, false, 75, 81, []⟩, ⟨.methodInvocation, none, false, 82, 92, [
    ⟨.identifier, some .name, false, 82, 86, []⟩,
    ⟨.argumentList, some .arguments, false, 86, 92, [⟨.token "(", none, false, 86, 87, []⟩,
    ⟨.identifier, none, false, 87, 91, []⟩, ⟨.token ")", none, false, 91, 92, []⟩]⟩]⟩,
    ⟨.token ";", none, false, 92, 93, []⟩]⟩, ⟨.token "\x7d", none, false, 98, 99, []⟩]⟩]⟩,
    ⟨.methodDeclaration, none, false, 105, 161, [⟨.modifiers, none, false, 105, 112, [
    ⟨.token "private", none, false, 105, 112, []⟩]⟩,
    ⟨.integralType, some .type, false, 113, 116, [⟨.token "int", none, false, 113, 116, []⟩]⟩,
    ⟨.identifier, some .name, false, 117, 121, []⟩,
    ⟨.formalParameters, some .parameters, false, 121, 128, [
    ⟨.token "(", none, false, 121, 122, []⟩, ⟨.formalParameter, none, false, 122, 127, [
    ⟨.integralType, some .type, false, 122, 125, [⟨.token "int", none, false, 122, 125, []⟩]⟩,
    ⟨.identifier, some .name, false, 126, 127, []⟩]⟩, ⟨.token ")", none, false, 127, 128, []⟩]⟩,
    ⟨.block, some .body, false, 129, 161, [⟨.token "\x7b", none, false, 129, 130, []⟩,
    ⟨.returnStatement, none, false, 139, 155, [⟨.token "return", none, false, 139, 145, []⟩,
    ⟨.binaryExpression, none, false, 146, 154, [⟨.identifier, some .left, false, 146, 147, []⟩,
    ⟨.token "+", some .operator, false, 148, 149, []⟩,
    ⟨.identifier, some .right, false, 150, 154, []⟩]⟩, ⟨.token ";", none, false, 154, 155, []⟩]⟩,
    ⟨.token "\x7d", none, false, 160, 161, []⟩]⟩]⟩,
    ⟨.token "\x7d", none, false, 162, 163, []⟩]⟩]⟩]⟩

/-- What a parameter list declares, and what the body of a type does. -/
def declaredBy (source : String) (scope : Node) (name : String) : Bool :=
  (((Java.parameters? scope source).getD []).map (·.2)).contains name ||
    scope.kind = .classBody && (Java.memberNames scope source).contains name

/-- The method that is inlined. -/
def stepMethod : Node :=
  (Java.findMethod? (.root stepTree) stepSource (some "next") 8).getD default

/-- Its expression. -/
def stepExpression : Node := ((singleExpression? stepMethod).getD default).1

/-- Its call. -/
def stepCall : Node := (Java.localCalls (.root stepTree) stepSource "next").headD default

/-- The field `step` is read in the method, and the caller has a parameter of that name: in the
inlined expression the name means the parameter. -/
theorem captured_step :
    (callEdit "next" stepExpression false stepSource [("int", "x")] stepCall).toOption =
      some (.replace 82 92 "step + step" "inline next at line 5") ∧
    ((Java.variableReferences stepExpression stepSource "step").map fun use =>
      (binder? (declaredBy stepSource · "step") use).map (·.kind)) = [some .classBody] ∧
    (binder? (declaredBy stepSource · "step") stepCall).map (·.text stepSource) =
      some "int run(int step) \x7b\n        return next(step);\n    \x7d" := by
  decide +kernel

end Amend.Refactoring.Inline
