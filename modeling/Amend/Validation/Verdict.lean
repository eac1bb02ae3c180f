import Amend.Build.Diagnostic
import Amend.Build.Process
import Amend.Syntax.Fault

/-!
# Verdicts on a file

What a check says about one file. A file that does not parse fails; beyond that a compiler may be
asked, and its messages decide. A verdict on syntax alone, where a compiler was wanted, is called
degraded.
-/

namespace Amend

/-- How far a file was checked. -/
inductive CheckTier where
  | syntaxOnly
  | full
deriving DecidableEq

/-- The written name of a tier. -/
def CheckTier.name : CheckTier → String
  | .syntaxOnly => "syntax_only"
  | .full => "full"

/-- An error in a file; the code tells who found it. -/
structure FileError where
  line : Nat
  column : Nat
  message : String
  code : String
deriving DecidableEq

/-- A warning about a file. -/
structure FileWarning where
  line : Nat
  message : String
deriving DecidableEq

/-- The result of a check. -/
structure Verdict where
  success : Bool := true
  tier : CheckTier := .syntaxOnly
  degraded : Bool := false
  errors : List FileError := []
  warnings : List FileWarning := []
deriving DecidableEq

namespace Verdict

/-- The verdict on a file that could not be checked. -/
def failure (line : Nat) (message code : String) : Verdict :=
  { success := false, errors := [⟨line, 0, message, code⟩] }

/-- The errors among compiler messages. -/
def compilerErrors (ds : List Build.Diagnostic) : List FileError :=
  (ds.filter (·.level = .error)).map fun d => ⟨d.line, d.column, d.message, "javac"⟩

/-- The warnings among compiler messages. -/
def compilerWarnings (ds : List Build.Diagnostic) : List FileWarning :=
  (ds.filter (·.level = .warning)).map fun d => ⟨d.line, d.message⟩

/-- The error of a compiler that failed without a message that could be read: its first line. -/
def unreadable (output : String) : FileError :=
  let first := (Text.lines output).find? fun l => !(Text.trim l).isEmpty
  ⟨0, 0, Text.trim (first.getD "javac failed without diagnostics"), "javac"⟩

/-- The verdict of a compiler run that succeeded or not and wrote an output. -/
def ofJavac (succeeded : Bool) (output : String) : Verdict :=
  let found := Build.Diagnostic.ofJavac output
  let listed := compilerErrors found
  let errors := if !succeeded && listed.isEmpty then [unreadable output] else listed
  { success := errors.isEmpty, tier := .full, errors, warnings := compilerWarnings found }

/-- All errors in one line. -/
def summary (v : Verdict) : String :=
  "; ".intercalate (v.errors.map fun e =>
    toString e.line ++ ":" ++ toString e.column ++ ": " ++ e.message)

/-- The error that a syntax fault is. -/
def ofFault (f : Syntax.Fault) : FileError :=
  ⟨f.line, f.column,
    "unexpected " ++ f.nodeKind ++ " near \x60" ++ Text.trim f.context ++ "\x60", "syntax"⟩

/-- The verdict on the syntax of a source. -/
def ofSyntax (parse : Syntax.Parser) (source : String) : Verdict :=
  match parse.faults source with
  | .error e => failure 0 e.message "syntax"
  | .ok faults => { success := faults.isEmpty, errors := faults.map ofFault }

/-- What is said where a compiler was wanted and could not be asked. -/
def degradedWarning : String := "full compilation unavailable; syntax-only check performed"

/-- The verdict with that warning. -/
def degrade (v : Verdict) : Verdict :=
  { v with degraded := true, warnings := v.warnings ++ [⟨0, degradedWarning⟩] }

/-- A written verdict. -/
def toJson (v : Verdict) : Json :=
  .obj [("success", .bool v.success), ("tier", .str v.tier.name), ("degraded", .bool v.degraded),
    ("errors", .list (fun e => .obj [("line", .nat e.line), ("column", .nat e.column),
      ("message", .str e.message), ("code", .str e.code)]) v.errors),
    ("warnings", .list (fun w => .obj [("line", .nat w.line), ("message", .str w.message)])
      v.warnings)]

end Verdict

end Amend
