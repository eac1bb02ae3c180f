import Amend.Java.Variable
import Amend.Refactoring.Rewrite

/-!
# Closing resources

A resource that is closed by hand, or never, becomes the head of a `try` whose block holds the
statements up to the closing call or the last use.
-/

namespace Amend.Refactoring.Resource

open Syntax

/-- A refusal of this refactoring. -/
def refuse {α : Type} (why : Refusal) : Except RewriteError α :=
  .error (.refused "resource-management" why)

/-- The name of the one variable of a declaration. -/
def resourceName (declaration : Node) (source : String) : Except RewriteError String :=
  match declaration.childrenBy .declarator with
  | [only] =>
    match Java.declaredName? only source with
    | some name => .ok name
    | none => refuse .declaratorWithoutName
  | _ => refuse .severalDeclarators

/-- Whether a variable is declared with the result of a call or an object creation. -/
def allocates (declaration : Node) : Bool :=
  (declaration.childrenBy .declarator).any fun v =>
    (v.childBy? .value).any (·.isOneOf [.objectCreationExpression, .methodInvocation])

/-- The declaration that a defect points at. -/
def declaration (root : Node) (source : String) (d : Defect) : Except RewriteError Node :=
  let onLine := (root.descendants [.localVariableDeclaration]).filter fun n =>
    n.firstLine source = d.startLine
  let named := onLine.filter fun n =>
    match d.elementName? with
    | none => true
    | some element =>
      match resourceName n source with
      | .ok name => name = element
      | .error _ => false
  match named.find? allocates with
  | some n => .ok n
  | none => refuse (.noAllocation d.startLine)

/-- Whether a statement is `resource.close();`. -/
def isCloseCall (source resource : String) (statement : Node) : Bool :=
  statement.kind = .expressionStatement &&
    (statement.namedChildren.head?.filter (·.kind = .methodInvocation)).any fun call =>
      ((call.childBy? .object).any fun o =>
        o.kind = .identifier && o.text source = resource) &&
      Java.declaredName? call source = some "close" && (Java.callArguments call).isEmpty

/-- Whether a statement reads or writes a variable. -/
def mentions (source name : String) (statement : Node) : Bool :=
  !(Java.variableReferences statement source name).isEmpty

/-- The statements that go into the `try`, the end of what it replaces, and the statements after
it. Without a closing call the last use of the resource ends the region. -/
def region (source resource : String) (following : List Node) :
    Except RewriteError (List Node × Nat × List Node) :=
  match following.span (!isCloseCall source resource ·) with
  | (inside, close :: rest) => .ok (inside, close.stop, rest)
  | (_, []) =>
    let restBack := following.reverse.takeWhile (!mentions source resource ·)
    let inside := following.take (following.length - restBack.length)
    match inside.getLast? with
    | none => refuse (.resourceNeverUsed resource)
    | some last => .ok (inside, last.stop, restBack.reverse)

/-- The variables that statements declare themselves. -/
def declaredLocals (statements : List Node) (source : String) : List String :=
  (statements.filter (·.kind = .localVariableDeclaration)).flatMap fun s =>
    (s.childrenBy .declarator).filterMap fun v => Java.declaredName? v source

/-- The text of the region, one step deeper, from the start of its first line on. -/
def bodyText (source unit : String) (inside : List Node) : String :=
  match inside.head?, inside.getLast? with
  | some first, some last =>
    let text := Text.sliceD source (Text.lineStart source first.start) last.stop
    unit ++ Text.indentRest text unit ++ "\n"
  | _, _ => ""

/-- The rewrite for a defect. -/
def rewrite (d : Defect) (source : String) (tree : Tree) : Except RewriteError Rewrite := do
  let declaration ← declaration (.root tree) source d
  let some block := declaration.parent?.filter (·.kind = .block) | refuse .resourceNotInBlock
  let resource ← resourceName declaration source
  let some _ := block.parts.find? (·.same declaration) | refuse .declarationNotInBlock
  let following := (block.parts.dropWhile (!·.same declaration)).drop 1
  let (inside, stop, rest) ← region source resource following
  if rest.any (mentions source resource) then refuse (.usedAfterClose resource)
  match (declaredLocals inside source).find? fun name => rest.any (mentions source name) with
  | some name => refuse (.localUsedAfterClose name)
  | none =>
    let indent := (Text.lineIndent? source declaration.start).getD ""
    let unit := (IndentStyle.infer source).unit
    let header := Text.trimEnd (.ofList
      (Text.dropEndWhile (· == ';') (declaration.text source).toList))
    let replacement :=
      "try (" ++ header ++ ") \x7b\n" ++ bodyText source unit inside ++ indent ++ "\x7d"
    Rewrite.ofEdits source
      [.replace declaration.start stop replacement
        ("wrap " ++ resource ++ " in try-with-resources")]
      ("Wrapped " ++ resource ++ " in try-with-resources")

end Resource

/-- Turns a resource closed by hand into a `try` with resources. -/
def tryWithResources : Refactoring where
  name := "resource-management"
  categories := ["resource-leak", "unclosed-resource"]
  rewrite := fun _ d source tree => Resource.rewrite d source tree

end Amend.Refactoring
