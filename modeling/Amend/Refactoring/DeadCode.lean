import Amend.Java.Variable
import Amend.Layout.Removal
import Amend.Refactoring.Rewrite

/-!
# Removing dead code

A named element goes when it is a private method, a private field or a local variable that nothing
uses. A defect without element stands for statements after a `return`, `throw`, `break` or
`continue` of the same block.
-/

namespace Amend.Refactoring.DeadCode

open Syntax

/-- A refusal of this refactoring. -/
def refuse {α : Type} (why : Refusal) : Except RewriteError α :=
  .error (.refused "dead-code-removal" why)

/-- Whether one of the declared variables has the name. -/
def declares (declaration : Node) (source name : String) : Bool :=
  (declaration.childrenBy .declarator).any fun v => Java.declaredName? v source = some name

/-- The first private method of that name. -/
def privateMethod? (root : Node) (source name : String) : Option Node :=
  (root.descendants [.methodDeclaration]).find? fun m =>
    Java.declaredName? m source = some name && Java.hasModifier m source "private"

/-- The first private field of that name. -/
def privateField? (root : Node) (source name : String) : Option Node :=
  (root.descendants [.fieldDeclaration]).find? fun f =>
    Java.hasModifier f source "private" && declares f source name

/-- Whether a node is not wholly inside the span of another. -/
def outside (n around : Node) : Bool := n.start < around.start || n.stop > around.stop

/-- Whether a call or method reference outside the method's declaration names it. -/
def isCalled (root : Node) (source name : String) (method : Node) : Bool :=
  ((root.descendants [.methodInvocation]).any fun c =>
    Java.declaredName? c source = some name && outside c method) ||
  ((root.descendants [.methodReference]).any fun r =>
    (r.text source).endsWith ("::" ++ name) && outside r method)

/-- The declaration of a local variable: one that starts on an affected line, or else one inside
the method of the defect's first line. -/
def localDeclaration? (root : Node) (source : String) (d : Defect) (name : String) :
    Option Node :=
  let locals := (root.descendants [.localVariableDeclaration]).filter fun l =>
    declares l source name
  (locals.find? fun l => d.coversLine (l.firstLine source)).or do
    let method ← Java.findMethod? root source none d.startLine
    locals.find? fun l => l.start ≥ method.start && l.stop ≤ method.stop

/-- The only declared variable. -/
def singleDeclarator (declaration : Node) (name : String) : Except RewriteError Node :=
  match declaration.childrenBy .declarator with
  | [only] => .ok only
  | _ => refuse (.sharedDeclaration name)

/-- Refuses an initializer whose evaluation can be observed. -/
def checkInitializer (declarator : Node) (name : String) : Except RewriteError Unit :=
  match declarator.childBy? .value with
  | some value =>
    if Java.hasSideEffects value then refuse (.effectfulInitializer name) else .ok ()
  | none => .ok ()

/-- Whether a node is the name in a method call. -/
def isCalledName (n : Node) : Bool :=
  n.parent?.any fun p => p.kind = .methodInvocation && n.isChildBy .name

/-- Whether an identifier outside `skip` has the name and is not that of a called method. -/
def mentionedOutside (root : Node) (source name : String) (skip : Node) : Bool :=
  (root.visit fun n => !n.same skip).any fun n =>
    !n.same skip && n.kind = .identifier && n.text source = name && !isCalledName n

/-- The rewrite for a named element. -/
def removeElement (root : Node) (source : String) (d : Defect) (element : String) :
    Except RewriteError Rewrite := do
  match privateMethod? root source element with
  | some method =>
    if isCalled root source element method then refuse (.stillCalled element)
    else
      let span := Layout.removalSpan source method
      Rewrite.ofEdits source [.delete span.start span.stop ("remove method " ++ element)]
        ("Removed unused private method " ++ element ++ "()")
  | none =>
    match privateField? root source element with
    | some field =>
      let declarator ← singleDeclarator field element
      if mentionedOutside root source element field then refuse (.fieldStillUsed element)
      else
        checkInitializer declarator element
        let span := Layout.removalSpan source field
        Rewrite.ofEdits source [.delete span.start span.stop ("remove field " ++ element)]
          ("Removed unused private field " ++ element)
    | none =>
      match localDeclaration? root source d element with
      | none => refuse (.noDeclaration element)
      | some declaration =>
        let declarator ← singleDeclarator declaration element
        let scope :=
          ((declaration.ancestor? Java.callableKinds).or declaration.parent?).getD root
        if !(Java.variableReferences scope source element).isEmpty then
          refuse (.stillUsed element)
        else
          checkInitializer declarator element
          let span := (Text.fullLineSpan? source declaration.start declaration.stop).getD
            declaration.span
          Rewrite.ofEdits source [.delete span.start span.stop ("remove local " ++ element)]
            ("Removed unused variable " ++ element)

/-- The statements after the first one that ends the flow. -/
def afterTerminator (statements : List Node) : List Node :=
  (statements.dropWhile fun s => !s.isOneOf Java.terminators).drop 1

/-- The deletion of a block's unreachable statements on affected lines. -/
def unreachableEdit? (source : String) (d : Defect) (block : Node) : Option TextEdit := do
  let dead := (afterTerminator block.parts).filter fun s => d.coversLine (s.firstLine source)
  let first ← dead.head?
  let last ← dead.getLast?
  let span := (Text.fullLineSpan? source first.start last.stop).getD ⟨first.start, last.stop⟩
  return .delete span.start span.stop
    ("remove unreachable code at line " ++ toString (first.firstLine source))

/-- The rewrite for a defect without element. -/
def removeUnreachable (root : Node) (source : String) (d : Defect) :
    Except RewriteError Rewrite :=
  let edits := (root.descendants [.block, .switchBlockStatementGroup]).filterMap
    (unreachableEdit? source d)
  if edits.isEmpty then refuse (.nothingUnreachable d.startLine d.lastLine)
  else
    Rewrite.ofEdits source edits
      ("Removed " ++ toString edits.length ++ " unreachable statement run(s)")

/-- The rewrite for a defect. -/
def rewrite (d : Defect) (source : String) (tree : Tree) : Except RewriteError Rewrite :=
  match d.elementName? with
  | some element => removeElement (.root tree) source d element
  | none => removeUnreachable (.root tree) source d

end DeadCode

/-- Removes unused private members, unused locals and unreachable statements. -/
def removeDeadCode : Refactoring where
  name := "dead-code-removal"
  categories := ["dead-code", "unused-variable", "unused-private-method", "unused-private-field",
    "unreachable-code"]
  rewrite := fun _ d source tree => DeadCode.rewrite d source tree

end Amend.Refactoring
