import Amend.Java.Variable
import Amend.Refactoring.Rewrite

/-!
# Dispatch tables

A method that is one `switch` over a parameter, each case returning a value, becomes a look-up in
a table of functions. Empty cases fall through: their labels join the next case that returns.
-/

namespace Amend.Refactoring.Dispatch

open Syntax

/-- A refusal of this refactoring. -/
def refuse {α : Type} (why : Refusal) : Except RewriteError α :=
  .error (.refused "conditional-to-polymorphism" why)

/-- Selector types whose labels are used as they are; the labels of any other type are constants
of an enum. -/
def literalKeyed : List String :=
  ["int", "short", "byte", "char", "String", "Integer", "Character"]

/-- One case: its labels and the expression that it returns. -/
structure Arm where
  labels : List String
  value : String
deriving DecidableEq

/-- A label as a key of the table. -/
def mapKey (label : Node) (source selectorType : String) : String :=
  if label.kind = .identifier ∧ selectorType ∉ literalKeyed then
    selectorType ++ "." ++ label.text source
  else label.text source

/-- The cases read so far, with what the next one takes over from empty cases before it. -/
structure Reading where
  arms : List Arm := []
  default : Option String := none
  pending : List String := []
  pendingDefault : Bool := false

/-- Takes in the labels of a case: one without values is the default. -/
def Reading.addLabel (r : Reading) (label : Node) (source selectorType : String) : Reading :=
  match label.parts with
  | [] => { r with pendingDefault := true }
  | values => { r with pending := r.pending ++ values.map (mapKey · source selectorType) }

/-- Takes in the statement of a case. -/
def Reading.addStatement (r : Reading) (statement : Node) (source : String) :
    Except RewriteError Reading :=
  if r.pendingDefault then
    if statement.isOneOf [.returnStatement, .throwStatement] then
      .ok { r with default := some (statement.text source), pending := [], pendingDefault := false }
    else refuse .defaultGoesOn
  else
    let value :=
      if statement.kind = .returnStatement then statement.namedChildren.head? else none
    match value with
    | none => refuse .caseWithoutValue
    | some v => .ok { r with arms := r.arms ++ [⟨r.pending, v.text source⟩], pending := [] }

/-- Takes in one case. -/
def Reading.addGroup (source selectorType : String) (r : Reading) (group : Node) :
    Except RewriteError Reading :=
  if group.kind ≠ .switchBlockStatementGroup then refuse .arrowCase
  else
    let labels := group.parts.filter (·.kind = .switchLabel)
    let statements := group.parts.filter (·.kind ≠ .switchLabel)
    let r := labels.foldl (fun r l => r.addLabel l source selectorType) r
    match statements with
    | [] => .ok r
    | [statement] => r.addStatement statement source
    | _ => refuse .caseNotSingleReturn

/-- The cases of a switch, and the statement of its default. -/
def collectArms (switch : Node) (source selectorType : String) :
    Except RewriteError (List Arm × Option String) := do
  match switch.childBy? .body with
  | none => refuse .switchWithoutBody
  | some body =>
    let r ← body.parts.foldlM (Reading.addGroup source selectorType) {}
    if r.arms.isEmpty then refuse .noCases else return (r.arms, r.default)

/-- The switch that a statement is. -/
def switchOf? (statement : Node) : Option Node :=
  match statement.kind with
  | .switchExpression => some statement
  | .expressionStatement => statement.namedChildren.head?.filter (·.kind = .switchExpression)
  | _ => none

/-- What the new code is made of. -/
structure Plan where
  branchType : String
  table : String
  branch : String
  isStatic : Bool
  memberIndent : String
  bodyIndent : String
  style : IndentStyle

/-- The statements that take the place of the switch. -/
def Plan.dispatch (p : Plan) (selector default : String) (arguments : String) : String :=
  p.branchType ++ " " ++ p.branch ++ " = " ++ p.table ++ ".get(" ++ selector ++ ");\n" ++
    p.bodyIndent ++ "if (" ++ p.branch ++ " == null) \x7b\n" ++
    p.style.deeper p.bodyIndent ++ default ++ "\n" ++
    p.bodyIndent ++ "\x7d\n" ++
    p.bodyIndent ++ "return " ++ p.branch ++ ".apply(" ++ arguments ++ ");"

/-- The entries of the table, one for each label. -/
def Plan.entries (p : Plan) (arms : List Arm) (arguments : String) : List String :=
  let indent := p.style.deeper (p.style.deeper p.memberIndent)
  arms.flatMap fun arm => arm.labels.map fun label =>
    indent ++ "java.util.Map.entry(" ++ label ++ ", (" ++ p.branchType ++ ") (" ++ arguments ++
      ") -> " ++ arm.value ++ ")"

/-- The declarations of the interface and the table. -/
def Plan.declarations (p : Plan) (returnType signature keyType : String)
    (entries : List String) : String :=
  "\n\n" ++ p.memberIndent ++ "private interface " ++ p.branchType ++ " \x7b\n" ++
    p.style.deeper p.memberIndent ++ returnType ++ " apply(" ++ signature ++ ");\n" ++
    p.memberIndent ++ "\x7d\n\n" ++
    p.memberIndent ++ "private " ++ (if p.isStatic then "static " else "") ++
    "final java.util.Map<" ++ keyType ++ ", " ++ p.branchType ++ "> " ++ p.table ++
    " = java.util.Map.ofEntries(\n" ++ ",\n".intercalate entries ++ ");"

/-- The rewrite for a defect. -/
def rewrite (d : Defect) (source : String) (tree : Tree) : Except RewriteError Rewrite := do
  let some method := (Java.findMethod? (.root tree) source d.elementName? d.startLine).filter
    (·.kind = .methodDeclaration) | refuse .noMethod
  let some name := Java.declaredName? method source | refuse .methodWithoutName
  let returnType := Java.returnType method source
  if returnType = "void" then refuse .voidMethod
  let some params := Java.parameters? method source | refuse .varargs
  let only := match Java.bodyStatements method with
    | [statement] => switchOf? statement
    | _ => none
  let some switch := only | refuse (.notSingleSwitch name)
  let some selector := (switch.childBy? .condition).bind (·.parts.head?) | refuse .noSelector
  let selectorName := selector.text source
  let some (selectorType, _) := params.find? (·.2 = selectorName) | refuse .selectorNotParameter
  let (arms, default) ← collectArms switch source selectorType
  let some default := default | refuse .noDefaultBranch
  let some classBody := Java.enclosingClassBody? method | refuse .notInClass
  let taken := Java.memberNames classBody source
  let names := params.map (·.2)
  let isStatic := Java.hasModifier method source "static"
  let p : Plan :=
    { branchType := Java.uniqueName (Java.toPascalCase name ++ "Branch") taken
      table :=
        if isStatic then Java.uniqueName (Java.toUpperSnake name ++ "_BRANCHES") taken
        else Java.uniqueName (name ++ "Branches") taken
      branch := Java.uniqueName "branch" names
      isStatic
      memberIndent := (Text.lineIndent? source method.start).getD ""
      bodyIndent := (Text.lineIndent? source switch.start).getD ""
      style := .infer source }
  let arguments := ", ".intercalate names
  let signature := ", ".intercalate (params.map fun (type, n) => type ++ " " ++ n)
  let entries := p.entries arms arguments
  Rewrite.ofEdits source
    [.replace switch.start switch.stop (p.dispatch selectorName default arguments)
       "dispatch through table",
     .insert method.stop
       (p.declarations returnType signature (Java.boxed selectorType) entries)
       ("declare " ++ p.branchType)]
    ("Replaced switch in " ++ name ++ " with " ++ p.branchType ++ " dispatch table (" ++
      toString entries.length ++ " entries)")

end Dispatch

/-- Replaces a returning switch over a parameter by a dispatch table. -/
def replaceSwitchWithDispatch : Refactoring where
  name := "conditional-to-polymorphism"
  categories := ["switch-statement", "conditional-complexity", "complex-conditional"]
  rewrite := fun _ d source tree => Dispatch.rewrite d source tree

end Amend.Refactoring
