import Amend.Extraction.Facts

/-!
# Blocks that can become methods

A block is a run of neighbouring statements of a method. Blocks are searched from the front: a
window grows from each statement until the statement after it reads nothing that the window
defines, and is accepted when control and data enter and leave it in a way that a method allows.
-/

namespace Amend.Extraction

open Syntax

/-- The least and greatest number of statements in a block: at least one statement, and no empty
range. -/
structure BlockSettings where
  minSize : Nat
  maxSize : Nat
  minSize_pos : 0 < minSize
  minSize_le_maxSize : minSize ≤ maxSize
deriving DecidableEq

/-- The settings nearest to two numbers. -/
def BlockSettings.of (minSize maxSize : Nat) : BlockSettings where
  minSize := max minSize 1
  maxSize := max maxSize (max minSize 1)
  minSize_pos := Nat.lt_of_lt_of_le Nat.one_pos (Nat.le_max_right _ _)
  minSize_le_maxSize := Nat.le_max_right _ _

/-- A variable that a block reads and does not define. -/
structure BlockParameter where
  name : String
  javaType : String
deriving DecidableEq

/-- How control and data leave a block. -/
inductive BlockReturn where
  /-- Control goes on after the block. -/
  | nothing
  /-- The block ends by returning a value. -/
  | value (javaType : String)
  /-- The block ends by returning without a value. -/
  | exit
  /-- The rest of the method reads a variable that the block declares. -/
  | variable (name javaType : String)
deriving DecidableEq

/-- The return type of a method made of the block. -/
def BlockReturn.javaType : BlockReturn → String
  | .nothing | .exit => "void"
  | .value t | .variable _ t => t

/-- An accepted block. Statements are told by their index in the method body. -/
structure Block where
  firstIndex : Nat
  lastIndex : Nat
  firstLine : Nat
  lastLine : Nat
  start : Nat
  stop : Nat
  used : Names
  defined : Names
  /-- The names used and not defined, in the order of their first reading. -/
  parameters : List BlockParameter
  returns : BlockReturn

/-- The number of statements. -/
def Block.size (b : Block) : Nat := b.lastIndex - b.firstIndex + 1

/-- Why a window is no block. -/
inductive BlockRefusal where
  /-- It holds no statement. -/
  | noStatement
  /-- It writes variables that it does not declare. -/
  | outerWrite (names : Names)
  /-- A `break` or `continue` leaves it. -/
  | escapingJump
  /-- It returns before its last statement. -/
  | earlyReturn
  /-- A variable that it reads has no known type. -/
  | unknownParameterType (name : String)
  /-- The variable that it hands on has no known type. -/
  | unknownReturnType (name : String)
  /-- More than one of its variables is read after it. -/
  | severalEscape (count : Nat)

/-- A method with its statements and their facts. -/
structure MethodFlow where
  method : Node
  source : String
  scope : MethodScope
  statements : List (Node × StatementFacts)

namespace MethodFlow

/-- The flow of a method of a source. -/
def ofMethod (method : Node) (source : String) : MethodFlow :=
  let scope := MethodScope.ofMethod method source
  { method, source, scope
    statements := (Java.bodyStatements method).map fun s =>
      (s, StatementFacts.ofStatement s source scope) }

/-- The size of a window that holds `size` statements defining `defined`, grown over the facts
of the statements after it. -/
def windowSize (settings : BlockSettings) : Nat → Names → List StatementFacts → Nat
  | size, _, [] => size
  | size, defined, next :: rest =>
    if settings.maxSize ≤ size then size
    else if settings.minSize ≤ size ∧ next.used.disjoint defined then size
    else windowSize settings (size + 1) (defined.union next.defined) rest

/-- The size of the window opened at the first of the statements with these facts. -/
def openWindow (settings : BlockSettings) : List StatementFacts → Nat
  | [] => 0
  | first :: rest => windowSize settings 1 first.defined rest

/-- Whether a text ends with one of the given characters. -/
def endsWithOneOf (text : String) (cs : List Char) : Bool :=
  text.toList.getLast?.any cs.contains

/-- The type of a returned expression, by its shape; the method's own return type where the
shape does not tell. -/
def valueType (flow : MethodFlow) (value : Node) : String :=
  let text := value.text flow.source
  let shaped : Option String :=
    match value.kind with
    | .stringLiteral => some "String"
    | .characterLiteral => some "char"
    | .trueLiteral | .falseLiteral => some "boolean"
    | .decimalIntegerLiteral | .hexIntegerLiteral | .octalIntegerLiteral
    | .binaryIntegerLiteral =>
      some (if endsWithOneOf text ['l', 'L'] then "long" else "int")
    | .decimalFloatingPointLiteral =>
      some (if endsWithOneOf text ['f', 'F'] then "float" else "double")
    | .objectCreationExpression =>
      ((value.childBy? .type).map (·.text flow.source)).filter fun t => !t.endsWith "<>"
    | _ => none
  shaped.getD (Java.returnType flow.method flow.source)

/-- What leaves a window without `return`: the one variable declared at its top level that a later
statement refers to, if any. -/
def escaping (flow : MethodFlow) (window later : List (Node × StatementFacts)) :
    Except BlockRefusal BlockReturn :=
  let names := window.flatMap fun (_, f) => f.declaredTopLevel.members.filter fun name =>
    later.any fun (s, _) => !(Java.variableReferences s flow.source name).isEmpty
  match names with
  | [] => .ok .nothing
  | [name] =>
    match flow.scope.typeOf? name with
    | some t => .ok (.variable name t)
    | none => .error (.unknownReturnType name)
  | many => .error (.severalEscape many.length)

/-- The names that a window defines. -/
def definedIn (facts : List StatementFacts) : Names :=
  (Names.unionOf (·.declared) facts).union (.unionOf (·.assigned) facts)

/-- Refuses a window that writes variables which it does not declare, or that a jump leaves. -/
def checkEffects (facts : List StatementFacts) : Except BlockRefusal Unit :=
  let foreign := (Names.unionOf (·.assigned) facts).diff (.unionOf (·.declared) facts)
  if !foreign.isEmpty then .error (.outerWrite foreign)
  else if facts.any (·.hasEscapingJump) then .error .escapingJump
  else .ok ()

/-- Whether a window whose last statement is `last` returns. It may do so only by a `return` at its
end. -/
def endsInReturn (facts : List StatementFacts) (last : Node) : Except BlockRefusal Bool :=
  let early := facts.dropLast.any (·.hasReturn)
  let returning := facts.any (·.hasReturn)
  if returning && (early || last.kind ≠ .returnStatement) then .error .earlyReturn
  else .ok returning

/-- The parameter that a name becomes. -/
def parameter? (scope : MethodScope) (name : String) : Except BlockRefusal BlockParameter :=
  match scope.typeOf? name with
  | some t => .ok ⟨name, t⟩
  | none => .error (.unknownParameterType name)

/-- The parameters of a window: what it reads and does not define, in the order of reading. -/
def parametersOf (flow : MethodFlow) (facts : List StatementFacts) :
    Except BlockRefusal (List BlockParameter) :=
  ((firstOccurrences (facts.flatMap (·.readsInOrder))).filter fun name =>
    !(definedIn facts).has name).mapM (parameter? flow.scope)

/-- What a `return` gives back. -/
def returned (flow : MethodFlow) (last : Node) : BlockReturn :=
  match last.namedChildren.head? with
  | some value => .value (flow.valueType value)
  | none => .exit

/-- The block of `size` statements from index `first` on, or why it is none. -/
def accept (flow : MethodFlow) (first size : Nat) : Except BlockRefusal Block :=
  let window := (flow.statements.drop first).take size
  let later := flow.statements.drop (first + size)
  let facts := window.map (·.2)
  match window.head?, window.getLast? with
  | some (firstNode, _), some (last, _) => do
    checkEffects facts
    let returning ← endsInReturn facts last
    let parameters ← flow.parametersOf facts
    let returns ← if returning then .ok (flow.returned last) else flow.escaping window later
    return { firstIndex := first
             lastIndex := first + size - 1
             firstLine := firstNode.firstLine flow.source
             lastLine := last.lastLine flow.source
             start := firstNode.start
             stop := last.stop
             used := .unionOf (·.used) facts
             defined := definedIn facts
             parameters, returns }
  | _, _ => .error .noStatement

/-- The blocks from index `first` on: after an accepted block the search goes on behind it,
otherwise one statement further. -/
def blocksFrom (flow : MethodFlow) (settings : BlockSettings) (first : Nat) : List Block :=
  if _h : flow.statements.length - first ≥ settings.minSize ∧ first < flow.statements.length then
    let size := openWindow settings ((flow.statements.drop first).map (·.2))
    if size < settings.minSize ∨ size = 0 then flow.blocksFrom settings (first + 1)
    else
      match flow.accept first size with
      | .ok block => block :: flow.blocksFrom settings (first + max size 1)
      | .error _ => flow.blocksFrom settings (first + 1)
  else []
termination_by flow.statements.length - first
decreasing_by all_goals omega

end MethodFlow

/-- The blocks of a method from a statement index on. -/
def findBlocksFrom (method : Node) (source : String) (settings : BlockSettings) (first : Nat) :
    List Block :=
  (MethodFlow.ofMethod method source).blocksFrom settings first

/-- The blocks of a method. -/
def findBlocks (method : Node) (source : String) (settings : BlockSettings) : List Block :=
  findBlocksFrom method source settings 0

end Amend.Extraction
