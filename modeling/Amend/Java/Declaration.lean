import Amend.Java.Name
import Amend.Syntax.Node

/-!
# Declarations

Types, methods, constructors and their parts, read off the syntax tree of a Java source.
-/

namespace Amend.Java

open Syntax

/-- Declarations of a type with a body. -/
def typeDeclarations : List Kind :=
  [.classDeclaration, .interfaceDeclaration, .enumDeclaration, .recordDeclaration,
   .annotationTypeDeclaration]

/-- Types whose body takes private constants and nested classes. -/
def classLike : List Kind := [.classDeclaration, .recordDeclaration]

/-- Declarations with a parameter list and a body. -/
def callableKinds : List Kind := [.methodDeclaration, .constructorDeclaration]

/-- Statements after which nothing in the same block is reached. -/
def terminators : List Kind :=
  [.returnStatement, .throwStatement, .breakStatement, .continueStatement]

/-- Constructs with variables of their own, outside the straight flow of the method around. -/
def nestedScopes : List Kind :=
  [.lambdaExpression, .classBody, .classDeclaration, .interfaceDeclaration, .enumDeclaration,
   .recordDeclaration]

/-- The text of a declaration's name. -/
def declaredName? (n : Node) (source : String) : Option String :=
  (n.childBy? .name).map (·.text source)

/-- Whether a declaration carries a modifier such as `private`. -/
def hasModifier (n : Node) (source modifier : String) : Bool :=
  match n.children.find? (·.kind = .modifiers) with
  | none => false
  | some m => (Text.words (m.text source)).contains modifier

/-- The statements of a method or constructor, comments left out. -/
def bodyStatements (callable : Node) : List Node :=
  ((callable.childBy? .body).map (·.parts)).getD []

/-- The declared type of a method, `void` for a constructor. -/
def returnType (method : Node) (source : String) : String :=
  ((method.childBy? .type).map (·.text source)).getD "void"

/-- The type and name of every parameter; none when there is a receiver parameter or a parameter
of variable arity. -/
def parameters? (callable : Node) (source : String) : Option (List (String × String)) := do
  let params ← callable.childBy? .parameters
  params.parts.mapM fun p => do
    if p.kind ≠ .formalParameter then none
    let type ← p.childBy? .type
    let name ← p.childBy? .name
    return (type.text source, name.text source)

/-- All methods and constructors in source order. -/
def callables (root : Node) : List Node := root.descendants callableKinds

/-- Whether a line lies in the lines of a node. -/
def coversLine (n : Node) (source : String) (line : Nat) : Bool :=
  n.firstLine source ≤ line && line ≤ n.lastLine source

/-- The element with the least measure, the first one of several. -/
def leastBy? {α : Type} (measure : α → Nat) : List α → Option α
  | [] => none
  | x :: xs =>
    match leastBy? measure xs with
    | none => some x
    | some y => if measure y < measure x then some y else some x

/-- The method that a record points at. Of the methods with a given name it is the first that
covers the line, or else the first of all; without a name it is the shortest one that covers the
line. -/
def findMethod? (root : Node) (source : String) (name : Option String) (line : Nat) :
    Option Node :=
  let all := callables root
  match name with
  | some wanted =>
    let named := all.filter fun m => declaredName? m source = some wanted
    (named.find? fun m => coversLine m source line).or named.head?
  | none => leastBy? (fun m => m.stop - m.start) (all.filter fun m => coversLine m source line)

/-- The body of the class or record that the node is, or else of the nearest one around it. -/
def enclosingClassBody? (n : Node) : Option Node := do
  let decl ← if n.isOneOf classLike then some n else n.ancestor? classLike
  decl.childBy? .body

/-- The names declared directly in a type body. -/
def memberNames (body : Node) (source : String) : List String :=
  body.parts.flatMap fun m =>
    if m.isOneOf [.fieldDeclaration, .constantDeclaration] then
      (m.childrenBy .declarator).filterMap fun d => declaredName? d source
    else (declaredName? m source).toList

end Amend.Java
