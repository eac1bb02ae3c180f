import Amend.Json
import Amend.Path
import Amend.Text.Blank
import Amend.Text.LetterCase

/-!
# Defect records

A record says that a detector found a defect of some category at some lines of a file. It is read
from JSON, where most fields may be left out, and written back with all of them.
-/

namespace Amend

/-- How bad a defect is. -/
inductive Severity where
  | info
  | minor
  | major
  | critical
deriving DecidableEq, Inhabited

namespace Severity

/-- The severities by their names. -/
def names : List (String × Severity) :=
  [("info", .info), ("minor", .minor), ("major", .major), ("critical", .critical)]

/-- The written name. -/
def name : Severity → String
  | .info => "info"
  | .minor => "minor"
  | .major => "major"
  | .critical => "critical"

end Severity

/-- One reported defect. Lines count from 1. -/
structure Defect where
  category : String
  file : Path
  startLine : Nat
  endLine : Option Nat := none
  message : String := ""
  element : Option String := none
  severity : Severity := .minor
  autoFixAvailable : Option Bool := none

namespace Defect

/-- The last affected line, never before the first. -/
def lastLine (d : Defect) : Nat := max (d.endLine.getD d.startLine) d.startLine

/-- Whether the detector does not rule out a mechanical fix. -/
def autoFixable (d : Defect) : Bool := d.autoFixAvailable.getD true

/-- The name of the affected element, if it is given and not blank. -/
def elementName? (d : Defect) : Option String := d.element.filter fun e => !Text.allBlank e

/-- The category in lower case with hyphens: `Magic_Number` and `magic number` become
`magic-number`. -/
def normalizedCategory (d : Defect) : String :=
  .ofList ((Text.lower (Text.trim d.category)).toList.map fun c =>
    if c == '_' || c == ' ' then '-' else c)

/-- Whether a line is among the affected ones. -/
def coversLine (d : Defect) (line : Nat) : Bool := d.startLine ≤ line && line ≤ d.lastLine

/-- The fields of a written record, and which may be left out at the end of a list. -/
def fieldNames : List (String × Bool) :=
  [("category", false), ("file", false), ("start_line", false), ("end_line", true),
   ("message", true), ("element", true), ("severity", true), ("auto_fix_available", true)]

/-- Reads a record. -/
def ofJson? (j : Json) : Option Defect := do
  match ← j.fields? fieldNames with
  | [category, file, startLine, endLine, message, element, severity, autoFix] =>
    let category ← (← category).str?
    let file ← (← file).str?
    let startLine ← (← startLine).word?
    let endLine ← (endLine.getD .null).nullable? Json.word?
    let message ← (message.getD (.str "")).str?
    let element ← (element.getD .null).nullable? Json.str?
    let severity ← (severity.getD (.str "minor")).case? Severity.names
    let autoFixAvailable ← (autoFix.getD .null).nullable? Json.bool?
    return { category, file := ⟨file⟩, startLine, endLine, message, element, severity,
             autoFixAvailable }
  | _ => none

/-- Writes a record, all fields present. -/
def toJson (d : Defect) : Json :=
  .obj [("category", .str d.category), ("file", .str d.file.text),
    ("start_line", .nat d.startLine), ("end_line", .opt .nat d.endLine),
    ("message", .str d.message), ("element", .opt .str d.element),
    ("severity", .str d.severity.name), ("auto_fix_available", .opt .bool d.autoFixAvailable)]

end Defect

end Amend
