import Amend.Proofs.Java.Use
import Amend.Proofs.Layout
import Amend.Proofs.Refactoring.Rewrite
import Amend.Refactoring.DeadCode

/-!
# What is removed has no use

A declaration that is removed is cut out as a whole, and the search before that found no use of it.
For a field the search goes by the name alone, and for a local variable by what reads or writes a
variable of the name.  For a method it leaves out one way of writing a method reference, with
something between `::` and the name.

Code that stands between the declaration and a comment on its last row is cut out, too.
-/

namespace Amend.Refactoring.DeadCode

open Syntax

/-! ## Uses -/

/-- Outside its declaration a method is named only by method references that do not end in `::`
and its name. -/
def NeverCalled (root : Node) (source name : String) (method : Node) : Prop :=
  ∀ use, root.Holds use → Java.methodNamed? use source = some name → outside use method = true →
    use.kind = .methodReference ∧ (use.text source).endsWith ("::" ++ name) = false

/-- Outside a field's declaration its name stands only where a method is called. -/
def NeverMentioned (root : Node) (source name : String) (field : Node) : Prop :=
  ∀ use, root.Holds use → use.kind = .identifier → use.text source = name →
    field.Holds use ∨ isCalledName use = true

/-- The part of a source in which a local variable is looked for: the method or constructor around
it, or else the node right around it. -/
def searched (root declaration : Node) : Node :=
  ((declaration.ancestor? Java.callableKinds).or declaration.parent?).getD root

/-- Where a local variable is looked for, nothing reads or writes a variable of its name. -/
def NeverRead (root : Node) (source name : String) (declaration : Node) : Prop :=
  ∀ use, (searched root declaration).Holds use → Java.refersTo source name use = false

/-- The declared variable has no initializer that calls, creates, assigns or counts. -/
def QuietlyDeclared (declarator : Node) : Prop :=
  ∀ value, declarator.childBy? .value = some value →
    ∀ part, value.Holds part → part.kind ∉ Java.effects

/-- The declaration of the name is a private method, a private field or a local variable, and it
has no use. -/
inductive Unused (root : Node) (source name : String) (declaration : Node) : Prop
  | method (hkind : declaration.kind = .methodDeclaration)
      (hname : Java.declaredName? declaration source = some name)
      (hprivate : Java.hasModifier declaration source "private" = true)
      (huses : NeverCalled root source name declaration)
  | field {declarator : Node} (hkind : declaration.kind = .fieldDeclaration)
      (hprivate : Java.hasModifier declaration source "private" = true)
      (honly : declaration.childrenBy .declarator = [declarator])
      (hname : Java.declaredName? declarator source = some name)
      (hquiet : QuietlyDeclared declarator)
      (huses : NeverMentioned root source name declaration)
  | localVariable {declarator : Node} (hkind : declaration.kind = .localVariableDeclaration)
      (honly : declaration.childrenBy .declarator = [declarator])
      (hname : Java.declaredName? declarator source = some name)
      (hquiet : QuietlyDeclared declarator)
      (huses : NeverRead root source name declaration)

/-! ## What the searches find -/

section Searches

variable {source name : String} {t : Tree} {root declaration declarator : Node}

theorem neverCalled_of_isCalled (hbare : root.tree.wordsBare = true)
    (h : isCalled root source name declaration = false) :
    NeverCalled root source name declaration := by
  obtain ⟨hcalls, hreferences⟩ := Bool.or_eq_false_iff.mp h
  intro use huse hnamed hoff
  have hfound (kind : Kind) (hkind : use.kind = kind) (hword : kind.isNamed = true) :
      use ∈ root.descendants [kind] :=
    (Node.mem_descendants_iff hbare (by simpa using hword)).mpr ⟨huse, by simp [hkind]⟩
  rw [Java.methodNamed?] at hnamed
  split at hnamed
  · next hkind =>
    have hno := List.any_eq_false.mp hcalls use (hfound _ hkind rfl)
    simp [hnamed, hoff] at hno
  · next hkind =>
    have hno := List.any_eq_false.mp hreferences use (hfound _ hkind rfl)
    exact ⟨hkind, by simpa [hoff] using hno⟩
  · cases hnamed

theorem neverMentioned_of_mentionedOutside (hbare : t.wordsBare = true)
    (hfield : (Node.root t).Holds declaration)
    (h : mentionedOutside (.root t) source name declaration = false) :
    NeverMentioned (.root t) source name declaration := by
  intro use huse hkind htext
  by_contra hno
  obtain ⟨hoff, hcalled⟩ := not_or.mp hno
  have hnot (k : Node) (hk : (Node.root t).Holds k) (hku : k.Holds use) :
      (!k.same declaration) = true := by
    rw [Bool.not_eq_true']
    by_contra hsame
    obtain rfl := Node.eq_of_same hk hfield (Bool.eq_true_of_not_eq_false hsame)
    exact hoff hku
  have hnamed : use.kind.isNamed = true := by
    rw [hkind]
    rfl
  have hmet : use ∈ (Node.root t).visit fun n => !n.same declaration :=
    Node.mem_visit_of_holds huse (.inr hnamed) hbare fun k hk hku _ => hnot k hk hku
  have hfound := List.any_eq_false.mp h use hmet
  apply hfound
  simp [hnot use huse .self, hkind, htext, hcalled]

theorem neverRead_of_variableReferences (hbare : (searched root declaration).tree.wordsBare = true)
    (h : Java.variableReferences (searched root declaration) source name = []) :
    NeverRead root source name declaration := by
  intro use huse
  by_contra hrefers
  have hfound := (Java.mem_variableReferences_iff hbare).mpr
    ⟨huse, Bool.eq_true_of_not_eq_false hrefers⟩
  rw [h] at hfound
  cases hfound

theorem quietlyDeclared_of_checkInitializer (hbare : declarator.tree.wordsBare = true)
    (h : checkInitializer declarator name = .ok ()) : QuietlyDeclared declarator := by
  intro value hvalue part hpart hkind
  have hchild : declarator.Holds value := .child .self (List.mem_of_find?_eq_some hvalue)
  have heffects : Java.hasSideEffects value = true :=
    (Java.hasSideEffects_iff (hchild.wordsBare hbare)).mpr ⟨part, hpart, hkind⟩
  rw [checkInitializer, hvalue] at h
  simp [heffects, refuse] at h

theorem privateMethod?_eq_some (hbare : root.tree.wordsBare = true)
    (h : privateMethod? root source name = some declaration) :
    root.Holds declaration ∧ declaration.kind = .methodDeclaration ∧
      Java.declaredName? declaration source = some name ∧
      Java.hasModifier declaration source "private" = true := by
  obtain ⟨hheld, hkind⟩ := (Node.mem_descendants_iff hbare rfl).mp (List.mem_of_find?_eq_some h)
  have hfound := List.find?_some h
  obtain ⟨hname, hprivate⟩ := Bool.and_eq_true_iff.mp hfound
  exact ⟨hheld, List.mem_singleton.mp hkind, of_decide_eq_true hname, hprivate⟩

theorem privateField?_eq_some (hbare : root.tree.wordsBare = true)
    (h : privateField? root source name = some declaration) :
    root.Holds declaration ∧ declaration.kind = .fieldDeclaration ∧
      Java.hasModifier declaration source "private" = true ∧
      declares declaration source name = true := by
  obtain ⟨hheld, hkind⟩ := (Node.mem_descendants_iff hbare rfl).mp (List.mem_of_find?_eq_some h)
  have hfound := List.find?_some h
  obtain ⟨hprivate, hname⟩ := Bool.and_eq_true_iff.mp hfound
  exact ⟨hheld, List.mem_singleton.mp hkind, hprivate, hname⟩

theorem localDeclaration?_eq_some {d : Defect} (hbare : root.tree.wordsBare = true)
    (h : localDeclaration? root source d name = some declaration) :
    root.Holds declaration ∧ declaration.kind = .localVariableDeclaration ∧
      declares declaration source name = true := by
  have hlocal : declaration ∈ (root.descendants [.localVariableDeclaration]).filter
      fun l => declares l source name := by
    rcases Option.or_eq_some_iff.mp h with h | ⟨-, h⟩
    · exact List.mem_of_find?_eq_some h
    · obtain ⟨method, -, h⟩ := Option.bind_eq_some_iff.mp h
      exact List.mem_of_find?_eq_some h
  obtain ⟨hmem, hname⟩ := List.mem_filter.mp hlocal
  obtain ⟨hheld, hkind⟩ := (Node.mem_descendants_iff hbare rfl).mp hmem
  exact ⟨hheld, List.mem_singleton.mp hkind, hname⟩

theorem singleDeclarator_eq_ok (hname : declares declaration source name = true)
    (h : singleDeclarator declaration name = .ok declarator) :
    declaration.childrenBy .declarator = [declarator] ∧
      Java.declaredName? declarator source = some name := by
  rw [singleDeclarator] at h
  split at h
  · next only honly =>
    cases h
    rw [declares, honly] at hname
    exact ⟨honly, by simpa using hname⟩
  · cases h

/-- A local variable is looked for in a node of the tree. -/
theorem holds_searched (h : (Node.root t).Holds declaration) :
    (Node.root t).Holds (searched (.root t) declaration) := by
  rw [searched]
  cases hscope : (declaration.ancestor? Java.callableKinds).or declaration.parent? with
  | none => exact .self
  | some scope =>
    rcases Option.or_eq_some_iff.mp hscope with habove | ⟨-, hparent⟩
    · exact h.ancestor (List.mem_of_find?_eq_some habove)
    · exact h.parent hparent

/-! ## What is removed -/

/-- The rewrite for a name cuts out one span of the source; it covers the declaration of the name,
which has no use. -/
theorem removeElement_eq_ok {d : Defect} {r : Rewrite} (hfits : t.fits source = true)
    (hbare : t.wordsBare = true) (h : removeElement (.root t) source d name = .ok r) :
    ∃ declaration first last label description, (Node.root t).Holds declaration ∧
      Unused (.root t) source name declaration ∧ first ≤ declaration.start ∧
      declaration.stop ≤ last ∧
      Rewrite.ofEdits source [.delete first last label] description = .ok r := by
  have hchild {v declaration : Node} (hheld : (Node.root t).Holds declaration)
      (honly : declaration.childrenBy .declarator = [v]) : v.tree.wordsBare = true := by
    have hv : v ∈ declaration.childrenBy .declarator := by
      rw [honly]
      exact List.mem_singleton_self v
    exact (hheld.child (List.mem_filter.mp hv).1).wordsBare hbare
  rw [removeElement] at h
  split at h
  · next method hmethod =>
    obtain ⟨hheld, hkind, hname, hprivate⟩ := privateMethod?_eq_some hbare hmethod
    split at h
    · cases h
    next hcalled =>
    obtain ⟨hfirst, hlast⟩ := Layout.removalSpan_covers hheld hfits
    have huses := neverCalled_of_isCalled hbare (Bool.eq_false_of_not_eq_true hcalled)
    exact ⟨method, _, _, _, _, hheld, .method hkind hname hprivate huses, hfirst, hlast, h⟩
  split at h
  · next field hfield =>
    obtain ⟨hheld, hkind, hprivate, hdeclares⟩ := privateField?_eq_some hbare hfield
    obtain ⟨v, hv, h⟩ := exists_of_bind_eq_ok h
    obtain ⟨honly, hname⟩ := singleDeclarator_eq_ok hdeclares hv
    split at h
    · cases h
    next hmentioned =>
    obtain ⟨⟨⟩, hinitializer, h⟩ := exists_of_bind_eq_ok h
    obtain ⟨hfirst, hlast⟩ := Layout.removalSpan_covers hheld hfits
    have hquiet := quietlyDeclared_of_checkInitializer (hchild hheld honly) hinitializer
    have huses :=
      neverMentioned_of_mentionedOutside hbare hheld (Bool.eq_false_of_not_eq_true hmentioned)
    exact ⟨field, _, _, _, _, hheld, .field hkind hprivate honly hname hquiet huses, hfirst, hlast,
      h⟩
  split at h
  · cases h
  next declaration hlocal =>
  obtain ⟨hheld, hkind, hdeclares⟩ := localDeclaration?_eq_some hbare hlocal
  obtain ⟨v, hv, h⟩ := exists_of_bind_eq_ok h
  obtain ⟨honly, hname⟩ := singleDeclarator_eq_ok hdeclares hv
  dsimp only at h
  split at h
  · cases h
  next hreferences =>
  obtain ⟨⟨⟩, hinitializer, h⟩ := exists_of_bind_eq_ok h
  have hquiet := quietlyDeclared_of_checkInitializer (hchild hheld honly) hinitializer
  have hnone : Java.variableReferences (searched (.root t) declaration) source name = [] := by
    rw [Bool.not_eq_true, Bool.not_eq_false', List.isEmpty_iff] at hreferences
    exact hreferences
  have huses := neverRead_of_variableReferences ((holds_searched hheld).wordsBare hbare) hnone
  obtain ⟨hfirst, hlast⟩ :=
    Text.getD_fullLineSpan?_covers source declaration.start declaration.stop
  exact ⟨declaration, _, _, _, _, hheld, .localVariable hkind honly hname hquiet huses, hfirst,
    hlast, h⟩

/-- What is removed with a name is one span of the source around a private method, a private field
or a local variable of that name, and nothing outside uses the declaration: no call of the method
and no method reference that ends in `::` and its name; no identifier that could mean the field; no
identifier that reads or writes the local variable.  An initializer that goes with it has no
effect. -/
theorem removed_is_unused {d : Defect} {r : Rewrite} (hname : d.elementName? = some name)
    (hfits : t.fits source = true) (hbare : t.wordsBare = true) (h : rewrite d source t = .ok r) :
    ∃ declaration front removed back shifts description, (Node.root t).Holds declaration ∧
      Unused (.root t) source name declaration ∧ source = front ++ removed ++ back ∧
      front.utf8ByteSize ≤ declaration.start ∧
      declaration.stop ≤ (front ++ removed).utf8ByteSize ∧
      r = .edit (front ++ back) shifts description := by
  rw [rewrite, hname] at h
  obtain ⟨declaration, first, last, label, description, hheld, hunused, hfirst, hlast, h⟩ :=
    removeElement_eq_ok hfits hbare h
  obtain ⟨front, removed, back, shifts, hsource, rfl, rfl, hr⟩ := Rewrite.ofEdits_delete_eq_ok h
  exact ⟨declaration, front, removed, back, shifts, description, hheld, hunused, hsource, hfirst,
    hlast, hr⟩

end Searches

/-! ## A reference that is overlooked -/

/-- A class with a private method and a reference to it. -/
def spacedSource : String :=
  "class A \x7b\n    private void g() \x7b\x7d\n    Runnable r = this :: g;\n\x7d\n"

/-- Its tree. -/
def spacedTree : Tree :=
  ⟨.program, none, false, 0, 64, [⟨.classDeclaration, none, false, 0, 63, [
    ⟨.token "class", none, false, 0, 5, []⟩, ⟨.identifier, some .name, false, 6, 7, []⟩,
    ⟨.classBody, some .body, false, 8, 63, [⟨.token "\x7b", none, false, 8, 9, []⟩,
    ⟨.methodDeclaration, none, false, 14, 33, [⟨.modifiers, none, false, 14, 21, [
    ⟨.token "private", none, false, 14, 21, []⟩]⟩, ⟨.voidType, some .type, false, 22, 26, []⟩,
    ⟨.identifier, some .name, false, 27, 28, []⟩,
    ⟨.formalParameters, some .parameters, false, 28, 30, [⟨.token "(", none, false, 28, 29, []⟩,
    ⟨.token ")", none, false, 29, 30, []⟩]⟩, ⟨.block, some .body, false, 31, 33, [
    ⟨.token "\x7b", none, false, 31, 32, []⟩, ⟨.token "\x7d", none, false, 32, 33, []⟩]⟩]⟩,
    ⟨.fieldDeclaration, none, false, 38, 61, [⟨.typeIdentifier, some .type, false, 38, 46, []⟩,
    ⟨.variableDeclarator, some .declarator, false, 47, 60, [
    ⟨.identifier, some .name, false, 47, 48, []⟩, ⟨.token "=", none, false, 49, 50, []⟩,
    ⟨.methodReference, some .value, false, 51, 60, [⟨.thisRef, none, false, 51, 55, []⟩,
    ⟨.token "::", none, false, 56, 58, []⟩, ⟨.identifier, none, false, 59, 60, []⟩]⟩]⟩,
    ⟨.token ";", none, false, 60, 61, []⟩]⟩, ⟨.token "\x7d", none, false, 62, 63, []⟩]⟩]⟩]⟩

/-- The record of the method as unused. -/
def spacedDefect : Defect := { category := "unused-private-method", file := ⟨"A.java"⟩
                               startLine := 2, element := some "g" }

theorem rewrite_spaced : ∃ shifts description,
    rewrite spacedDefect spacedSource spacedTree =
      .ok (.edit "class A \x7b\n    Runnable r = this :: g;\n\x7d\n" shifts description) :=
  Rewrite.exists_of_content? (by decide +kernel)

theorem fits_spaced : spacedTree.fits spacedSource = true := by decide +kernel

theorem wordsBare_spaced : spacedTree.wordsBare = true := by decide +kernel

/-- What is removed there is the declaration of `g`. -/
theorem removed_is_unused_spaced :
    ∃ declaration front removed back, (Node.root spacedTree).Holds declaration ∧
      Unused (.root spacedTree) spacedSource "g" declaration ∧
      spacedSource = front ++ removed ++ back ∧ front.utf8ByteSize ≤ declaration.start ∧
      declaration.stop ≤ (front ++ removed).utf8ByteSize := by
  obtain ⟨shifts, description, h⟩ := rewrite_spaced
  obtain ⟨declaration, front, removed, back, -, -, hheld, hunused, hsource, hfirst, hlast, -⟩ :=
    removed_is_unused (show spacedDefect.elementName? = some "g" by decide +kernel) fits_spaced
      wordsBare_spaced h
  exact ⟨declaration, front, removed, back, hheld, hunused, hsource, hfirst, hlast⟩

/-- A reference that is written with blanks around `::` is left behind. -/
theorem spaced_reference_is_left :
    (∃ shifts description, rewrite spacedDefect spacedSource spacedTree =
      .ok (.edit "class A \x7b\n    Runnable r = this :: g;\n\x7d\n" shifts description)) ∧
    ∃ method use, privateMethod? (.root spacedTree) spacedSource "g" = some method ∧
      (Node.root spacedTree).Holds use ∧ use.kind = .methodReference ∧
      Java.methodNamed? use spacedSource = some "g" ∧ outside use method = true := by
  refine ⟨rewrite_spaced, ?_⟩
  have hfound : (privateMethod? (.root spacedTree) spacedSource "g").any (fun method =>
      (Node.root spacedTree).preorder.any fun use => use.kind = .methodReference &&
        Java.methodNamed? use spacedSource = some "g" && outside use method) = true := by
    decide +kernel
  obtain ⟨method, hmethod, hany⟩ := (Option.any_eq_true _ _).mp hfound
  obtain ⟨use, huse, hall⟩ := List.any_eq_true.mp hany
  simp only [Bool.and_eq_true, decide_eq_true_eq] at hall
  exact ⟨method, use, hmethod, Node.holds_of_mem_visit huse, hall.1.1, hall.1.2, hall.2⟩

/-! ## A field that goes with another -/

/-- A class with two fields and a comment on one line. -/
def sharedSource : String := "class A \x7b\n    private int unused; int kept; // c\n\x7d\n"

/-- Its tree. -/
def sharedTree : Tree :=
  ⟨.program, none, false, 0, 51, [⟨.classDeclaration, none, false, 0, 50, [
    ⟨.token "class", none, false, 0, 5, []⟩, ⟨.identifier, some .name, false, 6, 7, []⟩,
    ⟨.classBody, some .body, false, 8, 50, [⟨.token "\x7b", none, false, 8, 9, []⟩,
    ⟨.fieldDeclaration, none, false, 14, 33, [⟨.modifiers, none, false, 14, 21, [
    ⟨.token "private", none, false, 14, 21, []⟩]⟩, ⟨.integralType, some .type, false, 22, 25, [
    ⟨.token "int", none, false, 22, 25, []⟩]⟩,
    ⟨.variableDeclarator, some .declarator, false, 26, 32, [
    ⟨.identifier, some .name, false, 26, 32, []⟩]⟩, ⟨.token ";", none, false, 32, 33, []⟩]⟩,
    ⟨.fieldDeclaration, none, false, 34, 43, [⟨.integralType, some .type, false, 34, 37, [
    ⟨.token "int", none, false, 34, 37, []⟩]⟩,
    ⟨.variableDeclarator, some .declarator, false, 38, 42, [
    ⟨.identifier, some .name, false, 38, 42, []⟩]⟩, ⟨.token ";", none, false, 42, 43, []⟩]⟩,
    ⟨.lineComment, none, false, 44, 48, []⟩, ⟨.token "\x7d", none, false, 49, 50, []⟩]⟩]⟩]⟩

/-- The record of the first field as unused. -/
def sharedDefect : Defect := { category := "unused-private-field", file := ⟨"A.java"⟩
                               startLine := 2, element := some "unused" }

/-- With the unused field the other one is removed, which stands between it and the comment. -/
theorem field_ahead_of_comment_is_removed : sharedTree.fits sharedSource = true ∧
    (∃ shifts description, rewrite sharedDefect sharedSource sharedTree =
      .ok (.edit "class A \x7b\n\x7d\n" shifts description)) ∧
    ∃ field kept, privateField? (.root sharedTree) sharedSource "unused" = some field ∧
      kept ∈ Layout.ahead sharedSource field ∧ kept.text sharedSource = "int kept;" := by
  refine ⟨by decide +kernel, Rewrite.exists_of_content? (by decide +kernel), ?_⟩
  have hfound : (privateField? (.root sharedTree) sharedSource "unused").any (fun field =>
      (Layout.ahead sharedSource field).any fun kept => kept.text sharedSource = "int kept;") =
      true := by
    decide +kernel
  obtain ⟨field, hfield, hany⟩ := (Option.any_eq_true _ _).mp hfound
  obtain ⟨kept, hkept, htext⟩ := List.any_eq_true.mp hany
  exact ⟨field, kept, hfield, hkept, of_decide_eq_true htext⟩

end Amend.Refactoring.DeadCode
