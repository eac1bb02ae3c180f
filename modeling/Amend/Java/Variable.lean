import Amend.Java.Declaration

/-!
# Variables and calls

Which identifiers of a source name variables, which of those introduce one, and where a method of
the same object is called.
-/

namespace Amend.Java

open Syntax

/-- Parents whose identifiers never name a variable. -/
def nameHolders : List Kind :=
  [.methodDeclaration, .constructorDeclaration, .classDeclaration, .interfaceDeclaration,
   .enumDeclaration, .recordDeclaration, .enumConstant, .labeledStatement, .breakStatement,
   .continueStatement, .scopedIdentifier, .annotationMark, .annotationCall, .elementValuePair,
   .packageDeclaration, .importDeclaration]

/-- Whether a node is an identifier that names a local variable, parameter or field, and not a
method, label, member or package. -/
def isVariableName (n : Node) : Bool :=
  n.kind = .identifier &&
    match n.parent? with
    | none => false
    | some p =>
      match p.kind with
      | .methodInvocation => !n.isChildBy .name
      | .fieldAccess => !n.isChildBy .member
      | .methodReference => p.namedChildren.head?.any (·.same n)
      | kind => !nameHolders.contains kind

/-- Whether an identifier is the name that a declaration introduces. -/
def isDeclarationSite (n : Node) : Bool :=
  match n.parent? with
  | none => false
  | some p =>
    match p.kind with
    | .variableDeclarator | .formalParameter | .catchFormalParameter | .enhancedForStatement
    | .resource => n.isChildBy .name
    | .inferredParameters => true
    | .lambdaExpression => n.isChildBy .parameters
    | _ => false

/-- The variable names equal to `name` in a scope. -/
def variableOccurrences (scope : Node) (source name : String) : List Node :=
  scope.preorder.filter fun n =>
    n.kind = .identifier && n.text source == name && isVariableName n

/-- The occurrences of `name` in a scope that read or write it. -/
def variableReferences (scope : Node) (source name : String) : List Node :=
  (variableOccurrences scope source name).filter (!isDeclarationSite ·)

/-- The calls of a method of that name without receiver or on `this`. -/
def localCalls (scope : Node) (source name : String) : List Node :=
  (scope.descendants [.methodInvocation]).filter fun call =>
    declaredName? call source = some name &&
      match call.childBy? .object with
      | none => true
      | some receiver => receiver.kind = .thisRef

/-- The argument expressions of a call or object creation. -/
def callArguments (call : Node) : List Node :=
  ((call.childBy? .arguments).map (·.parts)).getD []

/-- Expressions whose evaluation can be observed. -/
def effects : List Kind :=
  [.methodInvocation, .objectCreationExpression, .assignmentExpression, .updateExpression,
   .arrayCreationExpression]

/-- Whether evaluating the expression can have an observable effect. -/
def hasSideEffects (n : Node) : Bool := !(n.descendants effects).isEmpty

end Amend.Java
