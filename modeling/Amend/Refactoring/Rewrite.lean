import Amend.Defect
import Amend.Extraction.Method
import Amend.Refactoring.Refusal

/-!
# Rewrites

A refactoring turns a defect record and the source it points at into a rewrite: new content, or
findings for which nothing is written. The source has to parse before, and the content after.
-/

namespace Amend

open Syntax

/-- What a refactoring wants done to a file. -/
inductive Rewrite where
  /-- New content, with the line movements that it causes. -/
  | edit (content : String) (shifts : List LineShift) (description : String)
  /-- Findings only. -/
  | advice (description : String) (notes : List String)

/-- Why there is no rewrite. -/
inductive RewriteError where
  /-- The source of the file does not parse. -/
  | unparsable (file : Path) (cause : ParseError)
  /-- The refactoring does not apply. -/
  | refused (refactoring : String) (why : Refactoring.Refusal)
  /-- Its edits overlap or leave the source. -/
  | conflict (c : EditConflict)
  /-- Its result does not parse. -/
  | invalidResult (faults : List Fault)
  /-- Blocks could not be lifted. -/
  | extraction (e : Extraction.ExtractError)
  /-- An edit starts or ends inside a character. -/
  | badOffset

/-- The report of a failure. -/
def RewriteError.message : RewriteError → String
  | .unparsable file cause => "Cannot refactor " ++ file.text ++ ": " ++ cause.message
  | .refused refactoring why => refactoring ++ ": " ++ why.reason
  | .conflict c => "Edit conflict: " ++ c.message
  | .invalidResult faults => "Rewrite produced " ++ toString faults.length ++ " syntax error(s)"
  | .extraction e => e.message
  | .badOffset => "an edit starts or ends inside a character"

/-- What a rewrite does, in words. -/
def Rewrite.description : Rewrite → String
  | .edit _ _ description => description
  | .advice description _ => description

/-- A written rewrite. -/
def Rewrite.toJson : Rewrite → Json
  | .edit content shifts description =>
    .obj [("kind", .str "edit"), ("content", .str content),
      ("shifts", .list LineShift.toJson shifts), ("description", .str description)]
  | .advice description notes =>
    .obj [("kind", .str "advisory"), ("description", .str description),
      ("notes", .list .str notes)]

/-- The rewrite that makes a list of edits at once. -/
def Rewrite.ofEdits (source : String) (edits : List TextEdit) (description : String) :
    Except RewriteError Rewrite :=
  match EditSet.ofList edits source.utf8ByteSize with
  | .error c => .error (.conflict c)
  | .ok set =>
    match set.applyTo? source, set.lineShifts? source with
    | some content, some shifts => .ok (.edit content shifts description)
    | _, _ => .error .badOffset

/-- A capability to mend defects of some categories. An advisory one reports findings and never
changes code. -/
structure Refactoring where
  name : String
  categories : List String
  advisory : Bool := false
  rewrite : Parser → Defect → String → Tree → Except RewriteError Rewrite

namespace Refactoring

/-- Whether the defect's category is one of the refactoring's. -/
def handles (r : Refactoring) (d : Defect) : Bool := r.categories.contains d.normalizedCategory

/-- The rewrite of a source that parses into a content that parses. -/
def compute (r : Refactoring) (parse : Parser) (d : Defect) (source : String) :
    Except RewriteError Rewrite := do
  let tree ←
    match parse.verify source with
    | .ok tree => pure tree
    | .error cause => throw (.unparsable d.file cause)
  let rewrite ← r.rewrite parse d source tree
  match rewrite with
  | .advice _ _ => return rewrite
  | .edit content _ _ =>
    match parse.verify content with
    | .ok _ => return rewrite
    | .error (.faults faults) => throw (.invalidResult faults)
    | .error .noTree => throw (.unparsable d.file .noTree)

end Refactoring

end Amend
