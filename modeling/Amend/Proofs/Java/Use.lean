import Amend.Java.Variable
import Amend.Proofs.Syntax.Order

/-!
# Where a name is used

The searches for the uses of a name walk over a whole tree.  What they return is all that the tree
holds of the nodes they look for.
-/

namespace Amend.Java

open Syntax

/-- The name of the method that a call or a method reference names. -/
def methodNamed? (use : Node) (source : String) : Option String :=
  match use.kind with
  | .methodInvocation => declaredName? use source
  | .methodReference => use.children.getLast?.map (·.text source)
  | _ => none

/-- Whether a node is a variable's name and reads or writes the variable. -/
def refersTo (source name : String) (n : Node) : Bool :=
  n.kind = .identifier && n.text source == name && isVariableName n && !isDeclarationSite n

variable {source name : String} {scope n : Node}

theorem refersTo_iff : refersTo source name n = true ↔ n.kind = .identifier ∧
    n.text source = name ∧ isVariableName n = true ∧ isDeclarationSite n = false := by
  simp [refersTo, and_assoc]

theorem mem_variableOccurrences_iff (hbare : scope.tree.wordsBare = true) :
    n ∈ variableOccurrences scope source name ↔ scope.Holds n ∧ n.kind = .identifier ∧
      n.text source = name ∧ isVariableName n = true := by
  rw [variableOccurrences, List.mem_filter, Node.mem_preorder_iff hbare]
  simp only [Bool.and_eq_true, decide_eq_true_eq, beq_iff_eq]
  constructor
  · rintro ⟨⟨hheld, -⟩, ⟨hkind, htext⟩, hvariable⟩
    exact ⟨hheld, hkind, htext, hvariable⟩
  · rintro ⟨hheld, hkind, htext, hvariable⟩
    exact ⟨⟨hheld, .inr (by rw [hkind]; rfl)⟩, ⟨hkind, htext⟩, hvariable⟩

theorem variableReferences_eq :
    variableReferences scope source name = scope.preorder.filter (refersTo source name) := by
  rw [variableReferences, variableOccurrences, List.filter_filter]
  refine List.filter_congr fun n _ => ?_
  rw [refersTo, Bool.and_comm]

theorem mem_variableReferences_iff (hbare : scope.tree.wordsBare = true) :
    n ∈ variableReferences scope source name ↔ scope.Holds n ∧ refersTo source name n = true := by
  rw [variableReferences_eq, List.mem_filter, Node.mem_preorder_iff hbare]
  constructor
  · rintro ⟨⟨hheld, -⟩, hrefers⟩
    exact ⟨hheld, hrefers⟩
  · rintro ⟨hheld, hrefers⟩
    exact ⟨⟨hheld, .inr (by rw [(refersTo_iff.mp hrefers).1]; rfl)⟩, hrefers⟩

/-- A reference has nothing below it. -/
theorem children_of_refersTo (hbare : n.tree.wordsBare = true)
    (h : refersTo source name n = true) : n.tree.children = [] := by
  rcases (Tree.wordsBare_iff.mp hbare).1 with hnone | ⟨-, hother⟩
  · exact hnone
  · exact absurd (refersTo_iff.mp h).1 hother

/-- A reference covers something, unless the name is empty. -/
theorem start_lt_stop_of_refersTo (h : refersTo source name n = true) (hname : name ≠ "") :
    n.start < n.stop := by
  have htext := (refersTo_iff.mp h).2.1
  rw [Node.text, Text.sliceD] at htext
  cases hslice : Text.slice? source n.start n.stop with
  | none =>
    rw [hslice] at htext
    exact absurd htext.symm hname
  | some t =>
    rw [hslice, Option.getD_some] at htext
    obtain ⟨-, -, -, -, hstop⟩ := Text.slice?_eq_some_iff.mp hslice
    have hsize : t.utf8ByteSize ≠ 0 := by
      rw [htext, ne_eq, String.utf8ByteSize_eq_zero_iff]
      exact hname
    omega

/-- The calls of a method are those on `this`, said or not. -/
theorem mem_localCalls_iff (hbare : scope.tree.wordsBare = true) :
    n ∈ localCalls scope source name ↔ scope.Holds n ∧ n.kind = .methodInvocation ∧
      declaredName? n source = some name ∧
      ∀ receiver, n.childBy? .object = some receiver → receiver.kind = .thisRef := by
  rw [localCalls, List.mem_filter, Node.mem_descendants_iff hbare rfl, List.mem_singleton,
    Bool.and_eq_true, decide_eq_true_eq, and_assoc, and_congr_right_iff]
  intro _
  rw [and_congr_right_iff]
  intro _
  rw [and_congr_right_iff]
  intro _
  cases n.childBy? .object <;> simp

theorem hasSideEffects_iff (hbare : n.tree.wordsBare = true) :
    hasSideEffects n = true ↔ ∃ part, n.Holds part ∧ part.kind ∈ effects := by
  rw [hasSideEffects, Bool.not_eq_true', ← Bool.not_eq_true, List.isEmpty_iff,
    List.eq_nil_iff_forall_not_mem]
  simp [Node.mem_descendants_iff hbare (show effects.all (·.isNamed) = true by decide)]

/-- The element with the least measure is one of them. -/
theorem mem_of_leastBy? {α : Type} {measure : α → Nat} {xs : List α} {x : α}
    (h : leastBy? measure xs = some x) : x ∈ xs := by
  fun_induction leastBy? measure xs generalizing x with
  | case1 => cases h
  | case2 y ys hnone ih =>
    cases h
    exact List.mem_cons_self
  | case3 y ys z hz hlt ih =>
    cases h
    exact List.mem_cons_of_mem y (ih hz)
  | case4 y ys z hz hlt ih =>
    cases h
    exact List.mem_cons_self

theorem mem_callables_of_findMethod? {root method : Node} {name : Option String} {line : Nat}
    (h : findMethod? root source name line = some method) : method ∈ callables root := by
  cases name with
  | some wanted =>
    rw [findMethod?] at h
    rcases Option.or_eq_some_iff.mp h with h | ⟨-, h⟩
    · exact List.mem_of_mem_filter (List.mem_of_find?_eq_some h)
    · exact List.mem_of_mem_filter (List.mem_of_head? h)
  | none => exact List.mem_of_mem_filter (mem_of_leastBy? h)

/-- The method that a record points at is in the tree. -/
theorem holds_of_findMethod? {root method : Node} {name : Option String} {line : Nat}
    (h : findMethod? root source name line = some method) : root.Holds method :=
  Node.holds_of_mem_visit (List.mem_of_mem_filter (mem_callables_of_findMethod? h))

theorem isOneOf_of_findMethod? {root method : Node} {name : Option String} {line : Nat}
    (h : findMethod? root source name line = some method) :
    method.isOneOf callableKinds = true :=
  (List.mem_filter.mp (mem_callables_of_findMethod? h)).2

end Amend.Java
