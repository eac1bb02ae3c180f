import Amend.Proofs.Java.Name
import Amend.Proofs.Refactoring.Capture
import Amend.Refactoring.Constant

/-!
# What the name of a constant means

The name that stands for a literal is that of a constant that the type has for its value, or a name
that no member of the type has.  It means that constant if the body of the type is around the
literal and nothing nearer declares the name, and only the members of the type are looked at.
-/

namespace Amend.Refactoring.Constant

open Syntax TextEdit EditSet Inline

/-! ## The name -/

/-- The edit that puts a name in the place of a literal. -/
def useEdit (t : Target) (name : String) : TextEdit :=
  .replace t.node.start t.node.stop name ("use constant " ++ name)

/-- The edit that declares a name for the value of a literal. -/
def declarationEdit (h : Host) (t : Target) (name : String) : TextEdit :=
  .insert h.insertAt ("\n" ++ h.indent ++ h.modifiers ++ " " ++ t.javaType ++ " " ++ name ++
    " = " ++ t.value ++ ";\n") ("declare " ++ name)

/-- A constant of a type with the type and value of a literal. -/
structure HasConstant (members : Node) (source : String) (t : Target) (name : String)
    (field declarator : Node) : Prop where
  field_mem : field ∈ members.parts
  constant : field.kind = .constantDeclaration ∨
    field.kind = .fieldDeclaration ∧ isStaticFinal field source = true
  type : ∃ type, field.childBy? .type = some type ∧ type.text source = t.javaType
  declarator_mem : declarator ∈ field.childrenBy .declarator
  value : ∃ value, declarator.childBy? .value = some value ∧
    sameValue (value.text source) t = true
  name : Java.declaredName? declarator source = some name

/-- A name for a literal, with the edits that put it in place: that of a constant of the type, or
one that no member of the type has. -/
inductive Named (source : String) (t : Target) (h : Host) (name : String) : List TextEdit → Prop
  | existing {field declarator : Node}
    (hconstant : HasConstant h.members source t name field declarator) :
    Named source t h name [useEdit t name]
  | new (hfresh : name ∉ Java.memberNames h.members source) :
    Named source t h name [declarationEdit h t name, useEdit t name]

/-- Whether a node holds the members of the type that is nearest around another. -/
inductive NearestMembers (n members : Node) : Prop
  | body {decl : Node} (hdecl : n.ancestor? Java.typeDeclarations = some decl)
    (hmembers : decl.childBy? .body = some members) : NearestMembers n members
  | below {decl body : Node} (hdecl : n.ancestor? Java.typeDeclarations = some decl)
    (hbody : decl.childBy? .body = some body) (hmembers : members ∈ body.parts)
    (hrange : members.start ≤ n.start ∧ n.stop ≤ members.stop) : NearestMembers n members

section

variable {source : String} {t : Target} {home : Host} {members n : Node} {name : String}

theorem existing?_eq_some (h : existing? members source t = some name) :
    ∃ field declarator, HasConstant members source t name field declarator := by
  rw [existing?] at h
  obtain ⟨declarator, hdeclarator, hname⟩ := Option.bind_eq_some_iff.mp h
  obtain ⟨field, hfield, hfound⟩ := List.mem_filterMap.mp (List.mem_of_head? hdeclarator)
  obtain ⟨hmem, hchecks⟩ := List.mem_filter.mp hfield
  obtain ⟨hconstant, htype⟩ := Bool.and_eq_true_iff.mp hchecks
  obtain ⟨type, htype, htext⟩ := (Option.any_eq_true _ _).mp htype
  have hfits := List.find?_some hfound
  obtain ⟨value, hvalue, hsame⟩ := (Option.any_eq_true _ _).mp hfits
  refine ⟨field, declarator, hmem, ?_, ⟨type, htype, of_decide_eq_true htext⟩,
    List.mem_of_find?_eq_some hfound, ⟨value, hvalue, hsame⟩, hname⟩
  simpa using hconstant

/-- A constant goes to the type that is nearest around the literal, and the names of its members
are taken. -/
theorem host_eq_ok (h : host n source = .ok home) :
    NearestMembers n home.members ∧ Java.memberNames home.members source ⊆ home.taken := by
  rw [host] at h
  split at h
  · cases h
  · next decl hdecl =>
    split at h
    · cases h
    · next body hbody =>
      split at h
      · cases h
        exact ⟨.body hdecl hbody, List.Subset.refl _⟩
      · cases h
        exact ⟨.body hdecl hbody, List.Subset.refl _⟩
      · cases h
        exact ⟨.body hdecl hbody, List.Subset.refl _⟩
      · dsimp only at h
        split at h
        · cases h
        · next declarations hbelow =>
          cases h
          obtain ⟨hfound, hrange⟩ := Option.filter_eq_some_iff.mp hbelow
          have hrange : declarations.start ≤ n.start ∧ n.stop ≤ declarations.stop := by
            simpa using hrange
          exact ⟨.below hdecl hbody (List.mem_of_find?_eq_some hfound) hrange,
            List.subset_append_right _ _⟩
      · cases h

/-- What is written for a literal. -/
theorem exists_named {d : Defect} {tree : Tree} {r : Rewrite} (h : rewrite d source tree = .ok r) :
    ∃ t home name edits description, pick (.root tree) source d = .ok t ∧
      host t.node source = .ok home ∧ Named source t home name edits ∧
      Rewrite.ofEdits source edits description = .ok r := by
  rw [rewrite] at h
  obtain ⟨t, ht, h⟩ := exists_of_bind_eq_ok h
  obtain ⟨home, hhome, h⟩ := exists_of_bind_eq_ok h
  dsimp only at h
  split at h
  · next name hname =>
    obtain ⟨field, declarator, hconstant⟩ := existing?_eq_some hname
    exact ⟨t, home, name, _, _, ht, hhome, .existing hconstant, h⟩
  · have hfresh := Java.uniqueName_notMem (constantName d t) home.taken
    exact ⟨t, home, _, _, _, ht, hhome, .new fun hmem => hfresh ((host_eq_ok hhome).2 hmem), h⟩

end

/-! ## Its meaning -/

/-- Whether a node is around a place and nothing nearer declares a name. -/
def Seen (declares : Node → Bool) (home place : Node) : Prop :=
  ∃ inner outer, place.ancestors = inner ++ home :: outer ∧ ∀ k ∈ inner, declares k = false

section

variable {declares declares' : Node → Bool} {home place : Node}

/-- A name that a node declares means what is declared there where the node is seen. -/
theorem binder?_eq_some_iff (hhome : declares home = true) :
    binder? declares place = some home ↔ Seen declares home place := by
  rw [binder?, List.find?_eq_some_iff_append, Seen]
  simp [hhome]

/-- A name that a node declares in addition changes its meaning where the node is seen, and nowhere
else. -/
theorem binder?_ne_iff (hhome : declares' home = true) (hbefore : declares home = false)
    (hsame : ∀ k, k ≠ home → declares' k = declares k) :
    binder? declares' place ≠ binder? declares place ↔ Seen declares home place := by
  rw [binder?, binder?]
  constructor
  · intro hne
    have hmem : home ∈ place.ancestors := by
      by_contra hmem
      refine hne (List.find?_congr fun k hk => hsame k ?_)
      rintro rfl
      exact hmem hk
    obtain ⟨inner, outer, hsplit, hfirst⟩ := List.eq_append_cons_of_mem hmem
    refine ⟨inner, outer, hsplit, fun k hk => ?_⟩
    by_contra hdeclares
    have hinner : inner.find? declares' = inner.find? declares := by
      refine List.find?_congr fun k hk => hsame k ?_
      rintro rfl
      exact hfirst hk
    have hsome : (inner.find? declares).isSome = true :=
      List.find?_isSome.mpr ⟨k, hk, Bool.eq_true_of_not_eq_false hdeclares⟩
    obtain ⟨b, hb⟩ := Option.isSome_iff_exists.mp hsome
    rw [hsplit, List.find?_append, List.find?_append, hinner, hb] at hne
    exact hne rfl
  · rintro ⟨inner, outer, hsplit, hfree⟩ heq
    have hmeant : place.ancestors.find? declares' = some home := by
      rw [hsplit, List.find?_append]
      cases hinner : inner.find? declares' with
      | none => exact List.find?_cons_of_pos hhome
      | some k =>
        have hk := List.find?_some hinner
        by_cases hk' : k = home
        · rw [hk', Option.some_or]
        · rw [hsame k hk', hfree k (List.mem_of_find?_eq_some hinner)] at hk
          cases hk
    have hhome' := List.find?_some (heq.symm.trans hmeant)
    rw [hbefore] at hhome'
    cases hhome'

end

section

variable {d : Defect} {source : String} {tree : Tree} {r : Rewrite}

/-- A literal is replaced by the name of a constant of the type, which is declared if there is none.
The name means the constant exactly if the members of the type are seen from the literal, and the
declaration changes the meaning of the name exactly where they are seen; the rewrite does not
look. -/
theorem constant_is_meant_where_seen (h : rewrite d source tree = .ok r) :
    ∃ t home name edits ordered content shifts description,
      pick (.root tree) source d = .ok t ∧ NearestMembers t.node home.members ∧
      Named source t home name edits ∧ r = .edit content shifts description ∧
      InReadingOrder edits ordered ∧ Rewrites 0 source ordered content ∧
      ∀ {declares declares' : Node → Bool}, declares' home.members = true →
        (binder? declares' t.node = some home.members ↔ Seen declares' home.members t.node) ∧
        (declares home.members = false → (∀ k, k ≠ home.members → declares' k = declares k) →
          ∀ place, binder? declares' place ≠ binder? declares place ↔
            Seen declares home.members place) := by
  obtain ⟨t, home, name, edits, description, ht, hhome, hnamed, hedits⟩ := exists_named h
  obtain ⟨ordered, content, shifts, hr, ho, -, hrewrites⟩ := Rewrite.ofEdits_eq_ok hedits
  refine ⟨t, home, name, edits, ordered, content, shifts, description, ht, (host_eq_ok hhome).1,
    hnamed, hr, ho, hrewrites, fun hdeclares => ⟨binder?_eq_some_iff hdeclares, ?_⟩⟩
  intro hbefore hsame place
  exact binder?_ne_iff hdeclares hbefore hsame

end

/-! ## A parameter with the name of the constant -/

/-- A method that subtracts a number from its parameter. -/
def gaugeSource : String :=
  "class Gauge \x7b\n    int excess(int LIMIT) \x7b\n        return LIMIT - 60;\n    \x7d\n\x7d\n"

/-- Its tree. -/
def gaugeTree : Tree :=
  ⟨.program, none, false, 0, 77, [⟨.classDeclaration, none, false, 0, 76, [
    ⟨.token "class", none, false, 0, 5, []⟩, ⟨.identifier, some .name, false, 6, 11, []⟩,
    ⟨.classBody, some .body, false, 12, 76, [⟨.token "\x7b", none, false, 12, 13, []⟩,
    ⟨.methodDeclaration, none, false, 18, 74, [⟨.integralType, some .type, false, 18, 21, [
    ⟨.token "int", none, false, 18, 21, []⟩]⟩, ⟨.identifier, some .name, false, 22, 28, []⟩,
    ⟨.formalParameters, some .parameters, false, 28, 39, [⟨.token "(", none, false, 28, 29, []⟩,
    ⟨.formalParameter, none, false, 29, 38, [⟨.integralType, some .type, false, 29, 32, [
    ⟨.token "int", none, false, 29, 32, []⟩]⟩, ⟨.identifier, some .name, false, 33, 38, []⟩]⟩,
    ⟨.token ")", none, false, 38, 39, []⟩]⟩, ⟨.block, some .body, false, 40, 74, [
    ⟨.token "\x7b", none, false, 40, 41, []⟩, ⟨.returnStatement, none, false, 50, 68, [
    ⟨.token "return", none, false, 50, 56, []⟩, ⟨.binaryExpression, none, false, 57, 67, [
    ⟨.identifier, some .left, false, 57, 62, []⟩, ⟨.token "-", some .operator, false, 63, 64, []⟩,
    ⟨.decimalIntegerLiteral, some .right, false, 65, 67, []⟩]⟩,
    ⟨.token ";", none, false, 67, 68, []⟩]⟩, ⟨.token "\x7d", none, false, 73, 74, []⟩]⟩]⟩,
    ⟨.token "\x7d", none, false, 75, 76, []⟩]⟩]⟩]⟩

/-- The method with a constant for the number. -/
def gaugeResult : String :=
  "class Gauge \x7b\n    private static final int LIMIT = 60;\n\n" ++
    "    int excess(int LIMIT) \x7b\n        return LIMIT - LIMIT;\n    \x7d\n\x7d\n"

/-- The record of the number as a limit. -/
def gaugeDefect : Defect := { category := "magic-number", file := ⟨"Gauge.java"⟩, startLine := 3
                              element := some "limit" }

/-- The constant is called `LIMIT`, and where the number was that is the parameter. -/
theorem hidden_limit :
    (∃ shifts description, rewrite gaugeDefect gaugeSource gaugeTree =
      .ok (.edit gaugeResult shifts description)) ∧
    ∃ t home, pick (.root gaugeTree) gaugeSource gaugeDefect = .ok t ∧
      host t.node gaugeSource = .ok home ∧
      (binder? (fun k => k.same home.members || declaredBy gaugeSource k "LIMIT") t.node).map
        (·.kind) = some .methodDeclaration := by
  have hplan : ((pick (.root gaugeTree) gaugeSource gaugeDefect).toOption.bind fun t =>
      (host t.node gaugeSource).toOption.map fun home =>
        ((existing? home.members gaugeSource t).isNone : Bool) &&
        ([declarationEdit home t (Java.uniqueName (constantName gaugeDefect t) home.taken),
          useEdit t (Java.uniqueName (constantName gaugeDefect t) home.taken)] =
          [.insert 13 "\n    private static final int LIMIT = 60;\n" "declare LIMIT",
            .replace 65 67 "LIMIT" "use constant LIMIT"] : Bool) &&
        ((binder? (fun k => k.same home.members || declaredBy gaugeSource k "LIMIT") t.node).map
          (·.kind) = some .methodDeclaration : Bool)) = some true := by
    decide +kernel
  obtain ⟨t, ht, hplan⟩ := Option.bind_eq_some_iff.mp hplan
  obtain ⟨home, hhome, hplan⟩ := Option.map_eq_some_iff.mp hplan
  simp only [Bool.and_eq_true, decide_eq_true_eq, Option.isNone_iff_eq_none] at hplan
  obtain ⟨⟨hnone, hedits⟩, hbinder⟩ := hplan
  have ht := EditSet.toOption_eq_some_iff.mp ht
  have hhome := EditSet.toOption_eq_some_iff.mp hhome
  have hwritten (description : String) : Rewrite.ofEdits gaugeSource
      [.insert 13 "\n    private static final int LIMIT = 60;\n" "declare LIMIT",
        .replace 65 67 "LIMIT" "use constant LIMIT"] description =
      .ok (.edit gaugeResult [⟨1, 2⟩] description) := by
    refine Rewrite.ofEdits_of_apart (by decide +kernel) ?_ ?_ (by decide +kernel)
      (by decide +kernel)
    · simp only [Fits]
      decide +kernel
    · rw [Apart]
      decide +kernel
  refine ⟨?_, t, home, ht, hhome, hbinder⟩
  rw [rewrite, ht]
  dsimp only [bind, Except.bind]
  rw [hhome]
  dsimp only
  rw [hnone]
  exact ⟨_, _, (congrArg (Rewrite.ofEdits gaugeSource · _) hedits).trans (hwritten _)⟩

end Amend.Refactoring.Constant
