import Amend.Java.Variable
import Amend.Layout.Removal
import Amend.Refactoring.Rewrite

/-!
# Inlining trivial methods

A private method of one expression is removed, and each of its calls is replaced by that
expression with the arguments in place of the parameters. Arguments with effects must stay in
their order and be used exactly once.
-/

namespace Amend.Refactoring.Inline

open Syntax

/-- Expressions that bind more tightly than any operator. -/
def primary : List Kind :=
  [.identifier, .fieldAccess, .methodInvocation, .parenthesizedExpression, .arrayAccess, .thisRef,
   .stringLiteral, .characterLiteral, .decimalIntegerLiteral, .hexIntegerLiteral,
   .octalIntegerLiteral, .binaryIntegerLiteral, .decimalFloatingPointLiteral, .trueLiteral,
   .falseLiteral, .nullLiteral, .objectCreationExpression]

/-- Parents inside which the expression needs no parentheses. -/
def looseContexts : List Kind :=
  [.expressionStatement, .returnStatement, .variableDeclarator, .argumentList,
   .parenthesizedExpression]

/-- A refusal of this refactoring. -/
def refuse {α : Type} (why : Refusal) : Except RewriteError α :=
  .error (.refused "method-inlining" why)

/-- The expression of a body made of one `return e;` or one `e;`, and whether it is the latter. -/
def singleExpression? (method : Node) : Option (Node × Bool) :=
  match Java.bodyStatements method with
  | [statement] =>
    match statement.kind with
    | .returnStatement => statement.namedChildren.head?.map (·, false)
    | .expressionStatement => statement.namedChildren.head?.map (·, true)
    | _ => none
  | _ => none

/-- An argument's text in the place of a parameter. -/
def argumentText (arg : Node) (source : String) : String :=
  if arg.isOneOf primary then arg.text source else "(" ++ arg.text source ++ ")"

/-- The edits that put arguments in the place of parameters in the expression's own text, for
parameters and arguments in order. `lastEffect` is the offset and parameter of the last argument
with effects so far. -/
def substitutions (expression : Node) (source : String) (callLine : Nat) :
    Option (Nat × String) → List (String × Node) → Except RewriteError (List TextEdit)
  | _, [] => .ok []
  | lastEffect, (param, arg) :: rest => do
    let uses := Java.variableReferences expression source param
    let lastEffect ←
      if Java.hasSideEffects arg then
        match uses with
        | [use] =>
          match lastEffect with
          | some (previous, earlier) =>
            if use.start < previous then refuse (.effectsOutOfOrder earlier param callLine)
            else pure (some (use.start, param))
          | none => pure (some (use.start, param))
        | uses => refuse (.effectfulArgument param callLine uses.length)
      else pure lastEffect
    let edits := uses.map fun use =>
      TextEdit.replace (use.start - expression.start) (use.stop - expression.start)
        (argumentText arg source) ("substitute " ++ param)
    return edits ++ (← substitutions expression source callLine lastEffect rest)

/-- The expression's text with every parameter replaced by the call's argument. -/
def substitute (expression : Node) (source : String) (params : List (String × String))
    (call : Node) : Except RewriteError String := do
  let args := Java.callArguments call
  let line := call.firstLine source
  if args.length ≠ params.length then
    refuse (.argumentCount line args.length params.length)
  else
    let text := expression.text source
    let edits ← substitutions expression source line none ((params.map (·.2)).zip args)
    match EditSet.ofList edits text.utf8ByteSize with
    | .error c => throw (.conflict c)
    | .ok set =>
      match set.applyTo? text with
      | some result => return result
      | none => throw .badOffset

/-- The edit of one call. -/
def callEdit (name : String) (expression : Node) (isStatement : Bool) (source : String)
    (params : List (String × String)) (call : Node) : Except RewriteError TextEdit := do
  let inlined ← substitute expression source params call
  let line := call.firstLine source
  if isStatement && !call.parent?.any (·.kind = .expressionStatement) then
    refuse (.usedAsValue name line)
  else
    let loose := call.parent?.any (·.isOneOf looseContexts)
    let replacement := if loose || expression.isOneOf primary then inlined else "(" ++ inlined ++ ")"
    return .replace call.start call.stop replacement
      ("inline " ++ name ++ " at line " ++ toString line)

/-- The rewrite for a defect. -/
def rewrite (d : Defect) (source : String) (tree : Tree) : Except RewriteError Rewrite := do
  let root := Node.root tree
  let some method := (Java.findMethod? root source d.elementName? d.startLine).filter
    (·.kind = .methodDeclaration) | refuse .noMethod
  let some name := Java.declaredName? method source | refuse .methodWithoutName
  if !Java.hasModifier method source "private" then refuse (.notPrivate name)
  let some params := Java.parameters? method source | refuse .varargs
  let some (expression, isStatement) := singleExpression? method
    | refuse (.notSingleStatement name)
  if !(Java.localCalls method source name).isEmpty then refuse (.recursive name)
  let calls := (Java.localCalls root source name).filter fun c =>
    c.start < method.start || c.stop > method.stop
  if calls.isEmpty then refuse (.noCallers name)
  let edits ← calls.mapM (callEdit name expression isStatement source params)
  let span := Layout.removalSpan source method
  Rewrite.ofEdits source (edits ++ [.delete span.start span.stop ("remove " ++ name)])
    ("Inlined " ++ name ++ "() at " ++ toString calls.length ++ " call site(s)")

end Inline

/-- Inlines a trivial private method into its callers. -/
def inlineMethod : Refactoring where
  name := "method-inlining"
  categories := ["lazy-method", "middle-man", "trivial-method"]
  rewrite := fun _ d source tree => Inline.rewrite d source tree

end Amend.Refactoring
