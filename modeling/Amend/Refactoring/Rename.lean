import Amend.Java.Variable
import Amend.Refactoring.Rewrite

/-!
# Renaming variables

A badly named local variable or parameter gets the name that the defect's message suggests, or
else one made of its type, wherever its name stands in the method.
-/

namespace Amend.Refactoring.Rename

open Syntax

/-- A refusal of this refactoring. -/
def refuse {α : Type} (why : Refusal) : Except RewriteError α :=
  .error (.refused "variable-rename" why)

/-- The quotes between which a name is suggested. -/
def isQuote (c : Char) : Bool := c == '\'' || c == '"' || c.toNat == 96

/-- Whether a suggested name may start with `c`. -/
def startsName (c : Char) : Bool :=
  ('A' ≤ c && c ≤ 'Z') || ('a' ≤ c && c ≤ 'z') || c == '_' || c == '$'

/-- Whether a suggested name may go on with `c`. -/
def continuesName (c : Char) : Bool := Text.isWordChar c || c == '$'

/-- The name that follows the word `to` between quotes, read from just after that word. -/
def quotedName? (cs : List Char) : Option String :=
  match cs.dropWhile Text.isBlank with
  | q :: first :: rest =>
    let name := first :: rest.takeWhile continuesName
    match rest.dropWhile continuesName with
    | q' :: _ =>
      if Text.isBlank (cs.headD 'x') && isQuote q && startsName first && isQuote q' then
        some (.ofList name)
      else none
    | [] => none
  | _ => none

/-- The first suggestion in a message, `inWord` telling whether a word character came before. -/
def suggestionFrom (inWord : Bool) : List Char → Option String
  | [] => none
  | c :: cs =>
    let here :=
      match c, cs with
      | 't', 'o' :: rest => if inWord then none else quotedName? rest
      | _, _ => none
    here.or (suggestionFrom (Text.isWordChar c) cs)

/-- The name that a message suggests: `... to 'total'`, with quotes of any kind. -/
def suggestedName? (message : String) : Option String := suggestionFrom false message.toList

/-- The type in the declaration that introduces a name. -/
def declaredType? (name : Node) (source : String) : Option String := do
  let parent ← name.parent?
  let holder ← if parent.kind = .variableDeclarator then parent.parent? else some parent
  return (← holder.childBy? .type).text source

/-- A name for a variable of a type, empty where the type is inferred. -/
def nameForType (typeText : String) : String :=
  match Java.simpleTypeName typeText with
  | "int" | "long" | "short" | "byte" | "Integer" | "Long" => "number"
  | "double" | "float" | "Double" | "Float" | "BigDecimal" => "amount"
  | "boolean" | "Boolean" => "flag"
  | "char" | "Character" => "character"
  | "String" => "text"
  | "var" => ""
  | other => Java.toLowerCamel other

/-- Whether an identifier in a scope has the name. -/
def mentions (scope : Node) (source name : String) : Bool :=
  (scope.descendants [.identifier]).any fun n => n.text source = name

/-- The rewrite for a defect. -/
def rewrite (d : Defect) (source : String) (tree : Tree) : Except RewriteError Rewrite := do
  let some old := d.elementName? | refuse .variableNotGiven
  let some method := Java.findMethod? (.root tree) source none d.startLine | refuse .notInMethod
  let occurrences := Java.variableOccurrences method source old
  let some declaration := occurrences.find? Java.isDeclarationSite | refuse (.notDeclared old)
  let new ←
    match suggestedName? d.message with
    | some name => pure name
    | none =>
      match declaredType? declaration source with
      | some type => pure (nameForType type)
      | none => refuse (.noNameForType old)
  if new = old then refuse (.sameName old)
  if !Java.isIdentifier new then refuse (.notIdentifier new)
  if mentions method source new then refuse (.nameInUse new)
  let edits := occurrences.map fun n =>
    TextEdit.replace n.start n.stop new
      ("rename " ++ old ++ " at line " ++ toString (n.firstLine source))
  Rewrite.ofEdits source edits
    ("Renamed " ++ old ++ " to " ++ new ++ " (" ++ toString occurrences.length ++
      " occurrence(s))")

end Rename

/-- Renames a badly named local variable or parameter. -/
def renameVariable : Refactoring where
  name := "variable-rename"
  categories := ["poor-naming", "short-variable-name"]
  rewrite := fun _ d source tree => Rename.rewrite d source tree

end Amend.Refactoring
