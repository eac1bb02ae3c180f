import Amend.Edit
import Amend.Extraction.Block
import Amend.Layout
import Amend.Syntax.Fault

/-!
# Lifting blocks into methods

A block becomes a private method after the one it was in, and a call takes its place. Blocks are
lifted one at a time: the source is parsed again after each, and the search goes on behind the
call.
-/

namespace Amend.Extraction

open Syntax

/-- Method names by the words found in a block, first match first. -/
def nameWords : List (List String × String) :=
  [(["calculate", "compute", "sum", "total"], "calculateTotals"),
   (["validate", "check", "verify"], "validateInputs"),
   (["process", "handle"], "processItems"),
   (["print", "log", "println"], "logDetails"),
   (["load", "read"], "loadData"),
   (["save", "write", "store"], "saveData"),
   (["init", "setup"], "initializeState"),
   (["build", "create"], "buildResult")]

/-- A name for a method made of a block, none of the taken ones. -/
def methodName (blockText : String) (taken : List String) : String :=
  let lower := Text.lower blockText
  match nameWords.find? fun (words, _) => words.any (Text.contains lower) with
  | some (_, base) => Java.uniqueName base taken
  | none =>
    let candidates := (List.range (taken.length + 1)).map fun i =>
      "extractedBlock" ++ toString (i + 1)
    (candidates.find? fun name => !taken.contains name).getD "extractedBlock"

/-- One block that became a method. Lines are those of the source it was lifted from. -/
structure ExtractedMethod where
  methodName : String
  firstLine : Nat
  lastLine : Nat
  parameters : List BlockParameter
  returnType : String

/-- A source after its blocks were lifted. -/
structure Outcome where
  content : String
  extractions : List ExtractedMethod

/-- Why lifting fails. -/
inductive ExtractError where
  /-- No method starts at the offset. -/
  | methodLost (start : Nat)
  /-- The edits of one step overlap. -/
  | conflict (c : EditConflict)
  /-- A source met on the way does not parse. -/
  | invalidResult (faults : List Fault)
  /-- The parser gave no tree. -/
  | noTree
  /-- An edit is inside a character. -/
  | badOffset
  /-- Lifting goes on without end. -/
  | endless

/-- The report of a failure. -/
def ExtractError.message : ExtractError → String
  | .methodLost start =>
    "Method starting at byte " ++ toString start ++ " is no longer present"
  | .conflict c => "Extraction edits conflict: " ++ c.message
  | .invalidResult faults => "Extraction produced " ++ toString faults.length ++ " syntax error(s)"
  | .noTree => "Parser unavailable: " ++ ParseError.noTree.message
  | .badOffset => "an edit starts or ends inside a character"
  | .endless => "extraction does not end"

/-- The names that a new method next to `method` must not take. -/
def takenNames (method : Node) (source : String) : List String :=
  ((Java.enclosingClassBody? method).map fun body => Java.memberNames body source).getD []

/-- The spaces and tabs that start the line of an offset. -/
def indentAt (source : String) (i : Nat) : String := (Text.lineIndent? source i).getD ""

/-- The statement that takes the place of a block. -/
def callText (source : String) (block : Block) (name : String) : String :=
  let call := name ++ "(" ++ ", ".intercalate (block.parameters.map (·.name)) ++ ")"
  match block.returns with
  | .nothing => call ++ ";"
  | .exit => call ++ ";\n" ++ indentAt source block.start ++ "return;"
  | .value _ => "return " ++ call ++ ";"
  | .variable var javaType => javaType ++ " " ++ var ++ " = " ++ call ++ ";"

/-- The statements of the new method: the block from the start of its line on, and the return of
the variable that it hands on. -/
def bodyText (source : String) (block : Block) : String :=
  let text := Text.sliceD source (Text.lineStart source block.start) block.stop
  match block.returns with
  | .variable var _ => text ++ "\n" ++ indentAt source block.start ++ "return " ++ var ++ ";"
  | _ => text

/-- The new method, with the line feeds before it. -/
def declarationText (method : Node) (source : String) (block : Block) (name : String) : String :=
  let indent := indentAt source method.start
  let modifiers :=
    if Java.hasModifier method source "static" then "private static " else "private "
  let typeParameters :=
    ((method.childBy? .typeParameters).map fun t => t.text source ++ " ").getD ""
  let throwsText :=
    ((method.parts.find? (·.kind = .throwsClause)).map fun t => " " ++ t.text source).getD ""
  let signature := ", ".intercalate (block.parameters.map fun p => p.javaType ++ " " ++ p.name)
  "\n\n" ++ indent ++ modifiers ++ typeParameters ++ block.returns.javaType ++ " " ++ name ++
    "(" ++ signature ++ ")" ++ throwsText ++ " \x7b\n" ++ bodyText source block ++ "\n" ++ indent ++
    "\x7d"

/-- The edits that lift a block: the call in its place and the new method after the old one. -/
def edits (method : Node) (source : String) (block : Block) (name : String) : List TextEdit :=
  [.replace block.start block.stop (callText source block name) ("call " ++ name),
   .insert method.stop (declarationText method source block name) ("declare " ++ name)]

/-- The text, the extraction and the index of the call after the next block from statement
`resume` on was lifted; none when there is no such block. -/
def next? (parse : Parser) (source : String) (methodStart : Nat) (settings : BlockSettings)
    (resume : Nat) : Except ExtractError (Option (String × ExtractedMethod × Nat)) := do
  let tree ←
    match parse.verify source with
    | .ok tree => pure tree
    | .error (.faults found) => throw (.invalidResult found)
    | .error .noTree => throw .noTree
  let method ←
    match (Java.callables (.root tree)).find? (·.start = methodStart) with
    | some m => pure m
    | none => throw (.methodLost methodStart)
  match (findBlocksFrom method source settings resume).head? with
  | none => return none
  | some block =>
    let name := methodName (Text.sliceD source block.start block.stop) (takenNames method source)
    match EditSet.ofList (edits method source block name) source.utf8ByteSize with
    | .error c => throw (.conflict c)
    | .ok set =>
      match set.applyTo? source with
      | none => throw .badOffset
      | some content =>
        return some (content,
          { methodName := name, firstLine := block.firstLine, lastLine := block.lastLine
            parameters := block.parameters, returnType := block.returns.javaType },
          block.firstIndex)

/-- Lifts at most `fuel` blocks from statement `resume` on. -/
def lift (parse : Parser) (methodStart : Nat) (settings : BlockSettings) :
    Nat → String → Nat → Except ExtractError Outcome
  | 0, _, _ => .error .endless
  | fuel + 1, source, resume => do
    match ← next? parse source methodStart settings resume with
    | none => return ⟨source, []⟩
    | some (content, extraction, callIndex) =>
      let rest ← lift parse methodStart settings fuel content (callIndex + 1)
      return { rest with extractions := extraction :: rest.extractions }

/-- Lifts every block of the method that starts at an offset. Each block holds at least one byte
of the source unless the steps feed on their own calls, so a search that lifts more blocks than
the source has bytes never ends. -/
def extractAll (parse : Parser) (source : String) (methodStart : Nat) (settings : BlockSettings) :
    Except ExtractError Outcome :=
  lift parse methodStart settings (source.utf8ByteSize + 2) source 0

end Amend.Extraction
