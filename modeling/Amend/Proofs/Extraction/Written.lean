import Amend.Proofs.Extraction.Step
import Amend.Proofs.Refactoring.Naming
import Amend.Proofs.Text.Rows

/-!
# What a step writes

The body of the new method is cut out of the source from the start of the line on, and not from the
start of the block: whatever stands ahead of the block on its line comes along, and stays where it
was, too.  So the body is the block alone exactly if the block is the first on its line.

The name of the new method is none of those in the body of the nearest class or record around the
old method.  The new method stands behind the old one, in the body that this is declared in, and
another member of that body may have the name already where the two bodies are not the same, as in
an interface, an enum or an anonymous class.
-/

namespace Amend.Extraction

open Syntax Syntax.Node

/-! ## The body -/

section Body

variable {source : String} {b : Block}

/-- What stands ahead of an offset on its line. -/
def aheadInLine (source : String) (i : Nat) : String :=
  Text.sliceD source (Text.lineStart source i) i

/-- What the body of a new method ends with: the return of the variable that it hands on. -/
def handBackText (source : String) (b : Block) : String :=
  match b.returns with
  | .variable var _ => "\n" ++ indentAt source b.start ++ "return " ++ var ++ ";"
  | _ => ""

/-- The body of the new method is the block behind blanks, and what it hands back. -/
def HoldsBlockOnly (source : String) (b : Block) : Prop :=
  ∃ gap, Text.allBlank gap = true ∧
    bodyText source b = gap ++ Text.sliceD source b.start b.stop ++ handBackText source b

/-- The line of the block up to it, the block, and what it hands back. -/
theorem bodyText_eq (hfirst : Text.isBoundary source b.start = true)
    (hlast : Text.isBoundary source b.stop = true) (hordered : b.start ≤ b.stop) :
    bodyText source b =
      aheadInLine source b.start ++ Text.sliceD source b.start b.stop ++ handBackText source b := by
  have htext : Text.sliceD source (Text.lineStart source b.start) b.stop =
      aheadInLine source b.start ++ Text.sliceD source b.start b.stop :=
    (Text.sliceD_append_sliceD (Text.lineStart_le source b.start) hordered
      (Text.isBoundary_lineStart hfirst) hfirst hlast).symm
  rw [bodyText, handBackText, htext]
  cases b.returns with
  | «variable» var javaType => simp only [String.append_assoc]
  | nothing | exit | value _ => exact (String.append_empty).symm

theorem holdsBlockOnly_iff (hfirst : Text.isBoundary source b.start = true)
    (hlast : Text.isBoundary source b.stop = true) (hordered : b.start ≤ b.stop) :
    HoldsBlockOnly source b ↔ Text.allBlank (aheadInLine source b.start) = true := by
  have hbody := bodyText_eq hfirst hlast hordered
  constructor
  · rintro ⟨gap, hblank, hgap⟩
    rw [hbody, String.append_assoc, String.append_assoc] at hgap
    have hsize := congrArg String.utf8ByteSize hgap
    simp only [String.utf8ByteSize_append] at hsize
    rwa [(Text.append_inj_of_size_eq hgap (by omega)).1]
  · exact fun h => ⟨_, h, hbody⟩

variable {method : Node} {settings : BlockSettings} {resume : Nat}

/-- The body of a method made of a found block: besides the block it holds what stands ahead of the
block on its line, and it is the block alone exactly if these are blanks. -/
theorem body_of_found_block (hfits : method.tree.fits source = true)
    (h : b ∈ findBlocksFrom method source settings resume) :
    bodyText source b =
        aheadInLine source b.start ++ Text.sliceD source b.start b.stop ++ handBackText source b ∧
      (HoldsBlockOnly source b ↔ Text.allBlank (aheadInLine source b.start) = true) := by
  obtain ⟨c, d, q, u, rfl, ⟨hc, hd, -⟩, -⟩ := exists_cut_of_mem hfits h
  have hfirst : Text.isBoundary (c ++ d ++ (q ++ u)) b.start = true := by
    rw [← hc, String.append_assoc]
    exact Text.isBoundary_append c _
  have hlast : Text.isBoundary (c ++ d ++ (q ++ u)) b.stop = true := hd ▸ Text.isBoundary_append _ _
  have hordered : b.start ≤ b.stop := by
    rw [← hc, ← hd, String.utf8ByteSize_append]
    exact Nat.le_add_right _ _
  exact ⟨bodyText_eq hfirst hlast hordered, holdsBlockOnly_iff hfirst hlast hordered⟩

/-! ### Two statements on one line

The second of them becomes a method, and the first one is written into it as well.
-/

/-- A method with two statements on one line. -/
def sharedLine : String := "void f(int a)\x7b\na=1;g(a);\x7d"

/-- The method of that text. -/
def sharedLineMethod : Node := .root
  ⟨.methodDeclaration, none, false, 0, 25, [
    ⟨.voidType, some .type, false, 0, 4, []⟩,
    ⟨.identifier, some .name, false, 5, 6, []⟩,
    ⟨.formalParameters, some .parameters, false, 6, 13, [
      ⟨.formalParameter, none, false, 7, 12, [
        ⟨.integralType, some .type, false, 7, 10, []⟩,
        ⟨.identifier, some .name, false, 11, 12, []⟩]⟩]⟩,
    ⟨.block, some .body, false, 13, 25, [
      ⟨.expressionStatement, none, false, 15, 19, [
        ⟨.assignmentExpression, none, false, 15, 18, [
          ⟨.identifier, some .left, false, 15, 16, []⟩,
          ⟨.token "=", some .operator, false, 16, 17, []⟩,
          ⟨.decimalIntegerLiteral, some .right, false, 17, 18, []⟩]⟩]⟩,
      ⟨.expressionStatement, none, false, 19, 24, [
        ⟨.methodInvocation, none, false, 19, 23, [
          ⟨.identifier, some .name, false, 19, 20, []⟩,
          ⟨.argumentList, some .arguments, false, 20, 23, [
            ⟨.identifier, none, false, 21, 22, []⟩]⟩]⟩]⟩]⟩]⟩

example : (findBlocksFrom sharedLineMethod sharedLine (.of 1 1) 0).map
    (fun b => (Text.sliceD sharedLine b.start b.stop, bodyText sharedLine b)) =
      [("g(a);", "a=1;g(a);")] := by
  decide +kernel

end Body

/-! ## The name -/

section Name

variable {parse : Parser} {start : Nat} {settings : BlockSettings} {source content : String}
  {resume : Nat} {method : Node} {b : Block} {e : ExtractedMethod}

theorem IsStep.methodName_eq (h : IsStep parse start settings source resume method b e content) :
    e.methodName = methodName (Text.sliceD source b.start b.stop) (takenNames method source) := by
  obtain ⟨⟨tree, htree, hfind⟩, hhead, hnext⟩ := h
  simp only [next?, htree, pure_bind, hfind, hhead] at hnext
  split at hnext
  · cases hnext
  · split at hnext
    · cases hnext
    · cases hnext
      rfl

/-- A method whose body is that of the class or record around it is declared in it directly. -/
theorem declaredInClass_of_parent {body decl : Node} (hbody : method.parent? = some body)
    (hdecl : body.parent? = some decl) (hclass : decl.isOneOf Java.classLike = true)
    (hchild : decl.childBy? .body = some body) (hinner : body.isOneOf Java.classLike = false)
    (hmethod : method.isOneOf Java.classLike = false) : DeclaredInClass method := by
  refine ⟨body, ?_, hbody⟩
  obtain ⟨t, above⟩ := method
  cases above with
  | nil => cases hbody
  | cons p above =>
    cases hbody
    cases above with
    | nil => cases hdecl
    | cons d above =>
      cases hdecl
      rw [Java.enclosingClassBody?, hmethod, if_neg Bool.false_ne_true, ancestor?, ancestors,
        upward, upward, List.find?_cons, hinner, List.find?_cons, hclass]
      exact hchild

/-- The name of a new method is none of those in the body of the nearest class or record, made of a
word of the block where there is one; where the old method is declared in that body directly, no
member of the body that the new method gets into has it. -/
theorem name_of_step (h : IsStep parse start settings source resume method b e content) :
    MethodNamed (Text.sliceD source b.start b.stop) (takenNames method source) e.methodName ∧
      e.methodName ∉ takenNames method source ∧
      (DeclaredInClass method → ∃ body, method.parent? = some body ∧
        e.methodName ∉ Java.memberNames body source) := by
  have hname := methodNamed_methodName (Text.sliceD source b.start b.stop)
    (takenNames method source)
  rw [← h.methodName_eq] at hname
  refine ⟨hname, hname.notMem, ?_⟩
  rintro ⟨body, hbody, hparent⟩
  refine ⟨body, hparent, ?_⟩
  have hfresh := hname.notMem
  rwa [takenNames, hbody, Option.map_some, Option.getD_some] at hfresh

/-! ### A method of an interface

No class or record is around it, so that no name is taken.
-/

/-- An interface with two methods, of which the second has a name that is made up for the first block
of the first one. -/
def interfaceSource : String :=
  "interface A\x7bdefault void f()\x7bg();\x7dvoid extractedBlock1();\x7d"

/-- The interface of that text. -/
def interfaceNode : Node := .root
  ⟨.interfaceDeclaration, none, false, 0, 58, [
    ⟨.identifier, some .name, false, 10, 11, []⟩,
    ⟨.interfaceBody, some .body, false, 11, 58, [
      ⟨.methodDeclaration, none, false, 12, 34, [
        ⟨.modifiers, none, false, 12, 19, []⟩,
        ⟨.voidType, some .type, false, 20, 24, []⟩,
        ⟨.identifier, some .name, false, 25, 26, []⟩,
        ⟨.formalParameters, some .parameters, false, 26, 28, []⟩,
        ⟨.block, some .body, false, 28, 34, [
          ⟨.expressionStatement, none, false, 29, 33, [
            ⟨.methodInvocation, none, false, 29, 32, [
              ⟨.identifier, some .name, false, 29, 30, []⟩,
              ⟨.argumentList, some .arguments, false, 30, 32, []⟩]⟩]⟩]⟩]⟩,
      ⟨.methodDeclaration, none, false, 34, 57, [
        ⟨.voidType, some .type, false, 34, 38, []⟩,
        ⟨.identifier, some .name, false, 39, 54, []⟩,
        ⟨.formalParameters, some .parameters, false, 54, 56, []⟩]⟩]⟩]⟩

example : ((Java.callables interfaceNode).take 1).map (fun m =>
    ((m.parent?.map (Java.memberNames · interfaceSource)), takenNames m interfaceSource,
      (findBlocksFrom m interfaceSource (.of 1 1) 0).map fun b => methodName
        (Text.sliceD interfaceSource b.start b.stop) (takenNames m interfaceSource))) =
      [(some ["f", "extractedBlock1"], [], ["extractedBlock1"])] := by
  decide +kernel

end Name

end Amend.Extraction
