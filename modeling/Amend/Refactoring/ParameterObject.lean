import Amend.Java.Variable
import Amend.Refactoring.Rewrite

/-!
# Parameter objects

The parameters of a method become the fields of one nested class: the method takes an object of
that class and unpacks it, and its callers wrap their arguments.
-/

namespace Amend.Refactoring.ParameterObject

open Syntax

/-- A refusal of this refactoring. -/
def refuse {α : Type} (why : Refusal) : Except RewriteError α :=
  .error (.refused "parameter-object" why)

/-- Local copies of every field, for the top of the method's body. -/
def unpackFields (params : List (String × String)) (memberIndent : String) (style : IndentStyle) :
    String :=
  let indent := style.deeper memberIndent
  String.join (params.map fun (type, name) =>
    "\n" ++ indent ++ type ++ " " ++ name ++ " = params." ++ name ++ ";")

/-- Parameters as they stand in a signature. -/
def signature (params : List (String × String)) : String :=
  ", ".intercalate (params.map fun (type, name) => type ++ " " ++ name)

/-- The declaration of the nested class. -/
def parameterClass (className : String) (params : List (String × String)) (memberIndent : String)
    (style : IndentStyle) : String :=
  let fieldIndent := style.deeper memberIndent
  let bodyIndent := style.deeper fieldIndent
  memberIndent ++ "static final class " ++ className ++ " \x7b\n" ++
    String.join (params.map fun (type, name) =>
      fieldIndent ++ "final " ++ type ++ " " ++ name ++ ";\n") ++
    "\n" ++ fieldIndent ++ className ++ "(" ++ signature params ++ ") \x7b\n" ++
    String.join (params.map fun (_, name) =>
      bodyIndent ++ "this." ++ name ++ " = " ++ name ++ ";\n") ++
    fieldIndent ++ "\x7d\n" ++ memberIndent ++ "\x7d"

/-- The edit that wraps the arguments of a call with as many arguments as there are
parameters. -/
def callEdit? (source className : String) (arity : Nat) (call : Node) : Option TextEdit := do
  let args := Java.callArguments call
  if args.length ≠ arity then none
  let list ← call.childBy? .arguments
  return .replace list.start list.stop
    ("(new " ++ className ++ "(" ++ ", ".intercalate (args.map (·.text source)) ++ "))")
    ("wrap arguments at line " ++ toString (call.firstLine source))

/-- The rewrite for a defect, where methods may have up to `limit` parameters. -/
def rewrite (limit : Nat) (d : Defect) (source : String) (tree : Tree) :
    Except RewriteError Rewrite := do
  let root := Node.root tree
  let some method := Java.findMethod? root source d.elementName? d.startLine | refuse .noMethod
  if method.kind ≠ .methodDeclaration then refuse .isConstructor
  let some name := Java.declaredName? method source | refuse .methodWithoutName
  let some params := Java.parameters? method source | refuse .receiverParameter
  if params.length ≤ limit then refuse (.fewParameters name params.length limit)
  let some body := method.childBy? .body | refuse .withoutBody
  let some classBody := Java.enclosingClassBody? method | refuse .notInClass
  if params.any (·.2 = "params") then refuse .parameterNamedParams
  let overloads := (Java.callables classBody).filter fun m =>
    Java.declaredName? m source = some name
  if overloads.length > 1 then refuse (.overloaded name)
  let className :=
    Java.uniqueName (Java.toPascalCase name ++ "Params") (Java.memberNames classBody source)
  let style := IndentStyle.infer source
  let memberIndent := (Text.lineIndent? source method.start).getD ""
  let some list := method.childBy? .parameters | refuse .noParameterList
  let calls := (Java.localCalls root source name).filterMap
    (callEdit? source className params.length)
  let edits : List TextEdit :=
    [.replace list.start list.stop ("(" ++ className ++ " params)") "replace parameter list",
     .insert (body.start + 1) (unpackFields params memberIndent style) "unpack parameter object",
     .insert method.stop ("\n\n" ++ parameterClass className params memberIndent style)
       ("declare " ++ className)]
  Rewrite.ofEdits source (edits ++ calls)
    ("Introduced " ++ className ++ " for " ++ name ++ " (" ++ toString params.length ++
      " parameters, " ++ toString calls.length ++ " call site(s))")

end ParameterObject

/-- Bundles more than `limit` parameters into an object. -/
def introduceParameterObject (limit : Nat) : Refactoring where
  name := "parameter-object"
  categories := ["long-parameter-list"]
  rewrite := fun _ d source tree => ParameterObject.rewrite limit d source tree

end Amend.Refactoring
