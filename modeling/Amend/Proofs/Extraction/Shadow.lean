import Amend.Proofs.Extraction.Search
import Amend.Proofs.Syntax.Order

/-!
# Class bodies in a block

The variables of a method are those that it declares outside of class bodies.  The names that a
statement declares are read off all of its identifiers, those in class bodies too, and each counts
if the method has a variable of that name.  So a field or local of a class body in a block hides a
variable of the method: the block counts as defining it and has no parameter for it.  Nothing else
keeps a variable that the block reads, and that is declared outside, from becoming a parameter.
-/

namespace Amend.Extraction

open Syntax Syntax.Node
open StatementFacts (namesRead namesWritten namesDeclared)

variable {method : Node} {source : String} {settings : BlockSettings} {first : Nat} {b : Block}
  {s : Node} {x : String}

/-- A class body in a statement declares a variable of that name. -/
def HiddenIn (source : String) (s : Node) (x : String) : Prop :=
  ∃ c ∈ s.preorder, c.kind = .classBody ∧ ∃ n ∈ c.preorder, Java.isVariableName n = true ∧
    Java.isDeclarationSite n = true ∧ n.text source = x

/-! ## What a method declares -/

/-- A walk through a method that stays out of class bodies meets its statements. -/
theorem mem_visit_of_statement {enter : Node → Bool} (hmethod : enter method = true)
    (hbody : ∀ body, method.childBy? .body = some body →
      body.kind.isNamed = true ∧ enter body = true)
    (hs : s ∈ Java.bodyStatements method) : s ∈ method.visit enter := by
  cases hfound : method.childBy? .body with
  | none =>
    rw [Java.bodyStatements, hfound] at hs
    cases hs
  | some body =>
    obtain ⟨hnamed, henter⟩ := hbody body hfound
    rw [Java.bodyStatements, hfound, Option.map_some, Option.getD_some] at hs
    have hchild : body ∈ method.namedChildren :=
      List.mem_filter.mpr ⟨List.mem_of_find?_eq_some hfound, hnamed⟩
    have hthis : body ∈ method.visit enter :=
      mem_visit_child (mem_visit.mpr (.inl rfl)) hmethod hchild
    exact mem_visit_child hthis henter (List.mem_filter.mp hs).1

/-- A statement declares a name where the method does, or in a class body. -/
theorem exists_site_or_hidden (hmethod : method.kind ≠ .classBody)
    (hbody : ∀ body, method.childBy? .body = some body → body.kind ∈ bodyKinds)
    (hs : s ∈ Java.bodyStatements method) (hx : x ∈ namesDeclared method source s) :
    (∃ n ∈ MethodScope.sites method, n ∈ s.preorder ∧ n.text source = x) ∨
      HiddenIn source s x := by
  obtain ⟨n, hn, hthis⟩ := List.mem_map.mp hx
  obtain ⟨hmem, hdeclares⟩ := List.mem_filter.mp hn
  rw [StatementFacts.declares, StatementFacts.namesVariable, Bool.and_eq_true,
    Bool.and_eq_true] at hdeclares
  obtain ⟨⟨-, hname⟩, hsite⟩ := hdeclares
  have hkind : n.kind = .identifier := by
    rw [Java.isVariableName, Bool.and_eq_true] at hname
    exact of_decide_eq_true hname.1
  rcases mem_visit_or_below hmem (·.kind ≠ .classBody) with hvisit | ⟨c, hc, hturned, hbelow⟩
  · refine .inl ⟨n, List.mem_filter.mpr ⟨?_, by simp [hkind, hsite]⟩, hmem, hthis⟩
    refine mem_visit_trans (mem_visit_of_statement ?_ (fun body hfound => ?_) hs) hvisit
    · simpa using hmethod
    · have hkinds := hbody body hfound
      simp only [bodyKinds, List.mem_cons, List.not_mem_nil, or_false] at hkinds
      rcases hkinds with h | h <;> simp [h, Kind.isNamed]
  · exact .inr ⟨c, hc, by simpa using hturned, n, hbelow, hname, hsite, hthis⟩

theorem HiddenIn.mem_namesDeclared (h : HiddenIn source s x)
    (hx : (MethodScope.ofMethod method source).has x = true) :
    x ∈ namesDeclared method source s := by
  obtain ⟨c, hc, -, n, hn, hname, hsite, rfl⟩ := h
  refine List.mem_map_of_mem (List.mem_filter.mpr ⟨mem_visit_trans hc hn, ?_⟩)
  rw [StatementFacts.declares, StatementFacts.namesVariable, hx, hname, hsite]
  rfl

theorem has_of_mem_namesRead (h : x ∈ namesRead method source s) :
    (MethodScope.ofMethod method source).has x = true := by
  obtain ⟨n, hn, rfl⟩ := List.mem_map.mp h
  have hreads := (List.mem_filter.mp hn).2
  rw [StatementFacts.reads, StatementFacts.namesVariable, Bool.and_eq_true, Bool.and_eq_true,
    Bool.and_eq_true] at hreads
  exact hreads.1.1.1

/-! ## The parameters of a block -/

/-- A block defines what one of its statements declares, and nothing else. -/
theorem IsBlock.defined_iff (h : IsBlock method source settings first b) :
    b.defined.has x = true ↔
      ∃ t ∈ ((Java.bodyStatements method).drop b.firstIndex).take b.size,
        x ∈ namesDeclared method source t := by
  rw [h.lifts.defined]
  constructor
  · rintro ⟨t, ht, hdeclared | hwritten⟩
    · exact ⟨t, ht, hdeclared⟩
    · exact h.lifts.writesOwn t ht x hwritten
  · exact fun ⟨t, ht, hdeclared⟩ => ⟨t, ht, .inl hdeclared⟩

/-- A variable that a block reads and that the method declares outside of it is a parameter, unless
a class body in the block declares one of the same name. -/
theorem parameter_iff_not_hidden (h : b ∈ findBlocksFrom method source settings first)
    (hmethod : method.kind ≠ .classBody)
    (hbody : ∀ body, method.childBy? .body = some body → body.kind ∈ bodyKinds)
    (hs : s ∈ ((Java.bodyStatements method).drop b.firstIndex).take b.size)
    (hx : x ∈ namesRead method source s)
    (houter : ∀ n ∈ MethodScope.sites method, n.text source = x →
      ∀ t ∈ ((Java.bodyStatements method).drop b.firstIndex).take b.size, n ∉ t.preorder) :
    x ∈ b.parameters.map (·.name) ↔
      ∀ t ∈ ((Java.bodyStatements method).drop b.firstIndex).take b.size,
        ¬ HiddenIn source t x := by
  have hb := (MethodFlow.searched_blocksFrom method source settings first).isBlock b h
  have hused : b.used.has x = true := (hb.lifts.used x).mpr ⟨s, hs, hx⟩
  have hscope := has_of_mem_namesRead hx
  rw [hb.lifts.parameters, ← Bool.not_eq_true, hb.defined_iff]
  constructor
  · rintro ⟨-, hfree⟩ t ht hhidden
    exact hfree ⟨t, ht, hhidden.mem_namesDeclared hscope⟩
  · refine fun hplain => ⟨hused, ?_⟩
    rintro ⟨t, ht, hdeclared⟩
    have hstatement : t ∈ Java.bodyStatements method :=
      List.mem_of_mem_drop (List.mem_of_mem_take ht)
    rcases exists_site_or_hidden hmethod hbody hstatement hdeclared with
      ⟨n, hn, hmem, htext⟩ | hhidden
    · exact houter n hn htext t ht hmem
    · exact hplain t ht hhidden

/-! ### A field with the name of a parameter -/

/-- A method that reads its parameter behind a class body with a field of the same name. -/
def hidingSource : String := "void f(int x)\x7bnew B()\x7bint x;\x7d;h(x);\x7d"

/-- The method of that text. -/
def hidingMethod : Node := .root
  ⟨.methodDeclaration, none, false, 0, 36, [
    ⟨.voidType, some .type, false, 0, 4, []⟩,
    ⟨.identifier, some .name, false, 5, 6, []⟩,
    ⟨.formalParameters, some .parameters, false, 6, 13, [
      ⟨.formalParameter, none, false, 7, 12, [
        ⟨.integralType, some .type, false, 7, 10, []⟩,
        ⟨.identifier, some .name, false, 11, 12, []⟩]⟩]⟩,
    ⟨.block, some .body, false, 13, 36, [
      ⟨.expressionStatement, none, false, 14, 30, [
        ⟨.objectCreationExpression, none, false, 14, 29, [
          ⟨.typeIdentifier, some .type, false, 18, 19, []⟩,
          ⟨.argumentList, some .arguments, false, 19, 21, []⟩,
          ⟨.classBody, none, false, 21, 29, [
            ⟨.fieldDeclaration, none, false, 22, 28, [
              ⟨.integralType, some .type, false, 22, 25, []⟩,
              ⟨.variableDeclarator, some .declarator, false, 26, 27, [
                ⟨.identifier, some .name, false, 26, 27, []⟩]⟩]⟩]⟩]⟩]⟩,
      ⟨.expressionStatement, none, false, 30, 35, [
        ⟨.methodInvocation, none, false, 30, 34, [
          ⟨.identifier, some .name, false, 30, 31, []⟩,
          ⟨.argumentList, some .arguments, false, 31, 34, [
            ⟨.identifier, none, false, 32, 33, []⟩]⟩]⟩]⟩]⟩]⟩

example : (findBlocks hidingMethod hidingSource (.of 2 2)).map (fun b =>
    (Text.sliceD hidingSource b.start b.stop, b.used.members, b.parameters.map (·.name))) =
      [("new B()\x7bint x;\x7d;h(x);", ["x"], [])] := by
  decide +kernel

end Amend.Extraction
