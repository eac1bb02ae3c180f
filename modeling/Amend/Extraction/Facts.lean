import Amend.Extraction.Names
import Amend.Java.Variable

/-!
# What a statement reads and writes

Facts about the statements of a method, over the variables that the method itself declares:
parameters and locals. Fields, methods, types and packages never count.
-/

namespace Amend.Extraction

open Syntax

/-- The variables declared by a method with their types, by increasing name. A type is unknown
when it is inferred, when it cannot be read off the declaration, or when two declarations of the
name differ. -/
structure MethodScope where
  types : List (String × Option String) := []

namespace MethodScope

/-- The type written in the declaration that introduces `name`. -/
def declaredType? (name : Node) (source : String) : Option String := do
  let parent ← name.parent?
  match parent.kind with
  | .variableDeclarator =>
    let holder ← parent.parent?
    return (← holder.childBy? .type).text source
  | .catchFormalParameter =>
    return (← parent.parts.find? (·.kind = .catchType)).text source
  | _ => return (← parent.childBy? .type).text source

/-- The scope with one more declaration. -/
def declare (name : String) (type : Option String) :
    List (String × Option String) → List (String × Option String)
  | [] => [(name, type)]
  | (x, t) :: rest =>
    if name = x then (x, if t = type then t else none) :: rest
    else if name < x then (name, type) :: (x, t) :: rest
    else (x, t) :: declare name type rest

/-- The declarations of a method, class bodies in it left out. -/
def sites (method : Node) : List Node :=
  (method.visit (·.kind ≠ .classBody)).filter fun n =>
    n.kind = .identifier && Java.isDeclarationSite n

/-- The scope of a method. -/
def ofMethod (method : Node) (source : String) : MethodScope :=
  ⟨(sites method).foldl
    (fun types n => declare (n.text source) ((declaredType? n source).filter (· ≠ "var")) types)
    []⟩

/-- Whether the method declares the name. -/
def has (scope : MethodScope) (name : String) : Bool := scope.types.any (·.1 = name)

/-- The type of a name, if it is known. -/
def typeOf? (scope : MethodScope) (name : String) : Option String :=
  (scope.types.lookup name).join

end MethodScope

/-- What one statement does to the variables of its method. -/
structure StatementFacts where
  /-- Names read; a compound assignment or increment both reads and writes. -/
  used : Names := .empty
  /-- Names introduced by a declaration anywhere in the statement. -/
  declared : Names := .empty
  /-- Names introduced by a declaration that is the statement itself. -/
  declaredTopLevel : Names := .empty
  /-- Names written by assignment or increment. -/
  assigned : Names := .empty
  /-- Names read, in the order of their first reading. -/
  readsInOrder : List String := []
  /-- Whether a `return` in it leaves the method. -/
  hasReturn : Bool := false
  /-- Whether a `break` or `continue` in it leaves the statement. -/
  hasEscapingJump : Bool := false

namespace StatementFacts

/-- The names declared or assigned. -/
def defined (f : StatementFacts) : Names := f.declared.union f.assigned

/-- Constructs that take a `break` or `continue` without label. -/
def jumpTargets : List Kind :=
  [.forStatement, .enhancedForStatement, .whileStatement, .doStatement, .switchExpression]

/-- Whether a jump without label, on its way up to `statement`, meets no construct that takes
it. -/
def jumpPasses (statement : Node) : List Node → Bool
  | [] => true
  | n :: above =>
    if n.same statement then !n.isOneOf jumpTargets
    else if n.isOneOf jumpTargets then false
    else jumpPasses statement above

/-- Whether a `break` or `continue` leaves `statement`. A labelled one counts as leaving. -/
def jumpLeaves (jump statement : Node) : Bool :=
  jump.parts.any (·.kind = .identifier) || jumpPasses statement jump.ancestors

/-- Whether an identifier is read, and whether it is written. -/
def access (n : Node) (source : String) : Bool × Bool :=
  match n.parent? with
  | none => (true, false)
  | some p =>
    match p.kind with
    | .assignmentExpression =>
      if n.isChildBy .left then
        (!(p.childBy? .operator).any (fun op => op.text source = "="), true)
      else (true, false)
    | .updateExpression => (true, true)
    | _ => (true, false)

/-- The facts with one more identifier. -/
def addIdentifier (source : String) (scope : MethodScope) (f : StatementFacts) (n : Node) :
    StatementFacts :=
  let name := n.text source
  if !scope.has name || !Java.isVariableName n then f
  else if Java.isDeclarationSite n then { f with declared := f.declared.insert name }
  else
    let (reads, writes) := access n source
    let f := if writes then { f with assigned := f.assigned.insert name } else f
    if reads && !f.used.has name then
      { f with used := f.used.insert name, readsInOrder := f.readsInOrder ++ [name] }
    else f

/-- Constructs whose `return`, `break` and `continue` belong to a body of their own. -/
def ownBodies : List Kind := [.lambdaExpression, .classBody]

/-- The facts of a statement. Names count wherever they stand in it; jumps only outside of
lambda and class bodies. -/
def ofStatement (statement : Node) (source : String) (scope : MethodScope) : StatementFacts :=
  let topLevel :=
    if statement.kind = .localVariableDeclaration then
      (statement.childrenBy .declarator).filterMap fun d => Java.declaredName? d source
    else []
  let flow := (statement.visit fun n => !n.isOneOf ownBodies)
  let names := (statement.preorder).filter (·.kind = .identifier)
  names.foldl (addIdentifier source scope)
    { declaredTopLevel := .ofList topLevel
      hasReturn := flow.any (·.kind = .returnStatement)
      hasEscapingJump := flow.any fun n =>
        n.isOneOf [.breakStatement, .continueStatement] && jumpLeaves n statement }

end StatementFacts

end Amend.Extraction
