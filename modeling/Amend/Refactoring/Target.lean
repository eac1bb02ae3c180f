import Amend.Refactoring.Rewrite
import Amend.Text.Lines
import Amend.World

/-!
# Refactoring a file

A refactoring is carried out on a file that is Java, is there, may be written and parses. Its
rewrite can also be looked at without writing it.
-/

namespace Amend

/-- Whether a path names a Java source, by its extension. -/
def Path.isJava (p : Path) : Bool := p.extension?.any fun e => e.toLower == "java"

/-- What is wrong with the target of a refactoring. -/
inductive TargetFault where
  | missing
  | notRegular
  | readOnly
  | unparsable (cause : Syntax.ParseError)

/-- The report of a fault. -/
def TargetFault.message : TargetFault → String
  | .missing => "file does not exist"
  | .notRegular => "not a regular file"
  | .readOnly => "file is read-only"
  | .unparsable cause => cause.message

/-- Why a file was not refactored. -/
inductive RefactoringError where
  | notJava (file : Path)
  | badTarget (file : Path) (fault : TargetFault)
  | io (file : Path) (cause : SystemError)
  | rewrite (e : RewriteError)
  | write (e : WriteError)

/-- The report of a file that is not Java. -/
def Path.notJavaMessage (p : Path) : String := p.text ++ " is not a Java source file"

/-- The report of a failure. -/
def RefactoringError.message : RefactoringError → String
  | .notJava file => file.notJavaMessage
  | .badTarget file fault => "Cannot refactor " ++ file.text ++ ": " ++ fault.message
  | .io file cause => "I/O error on " ++ file.text ++ ": " ++ cause.message
  | .rewrite e => e.message
  | .write e => e.message

/-- A rewrite that was not carried out. -/
structure Preview where
  refactoring : String
  description : String
  content : String
  linesBefore : Nat
  linesAfter : Nat

/-- A written preview. -/
def Preview.toJson (p : Preview) : Json :=
  .obj [("strategy", .str p.refactoring), ("description", .str p.description),
    ("content", .str p.content), ("lines_before", .nat p.linesBefore),
    ("lines_after", .nat p.linesAfter)]

namespace Refactoring

/-- The text of the file to refactor. -/
def readTarget (file : Path) : Act RefactoringError String :=
  (World.readText file).mapError (.io file)

/-- Refuses a file that cannot be refactored. -/
def checkTarget (parse : Syntax.Parser) (file : Path) : Act RefactoringError Unit := do
  if !file.isJava then throw (.notJava file)
  match ← Act.look (·.stat file) with
  | .error _ => throw (.badTarget file .missing)
  | .ok (.file _ mode _) =>
    if isReadOnly mode then throw (.badTarget file .readOnly)
    match parse.verify (← readTarget file) with
    | .ok _ => return
    | .error cause => throw (.badTarget file (.unparsable cause))
  | .ok _ => throw (.badTarget file .notRegular)

/-- What the refactoring would make of the file; none for findings and failures. -/
def preview? {ε : Type} (r : Refactoring) (parse : Syntax.Parser) (d : Defect) :
    Act ε (Option Preview) := do
  if r.advisory then return none
  match ← (World.readText d.file).outcome with
  | .error _ => return none
  | .ok source =>
    match r.compute parse d source with
    | .ok (.edit content _ description) =>
      return some ⟨r.name, description, content, Text.lineCount source, Text.lineCount content⟩
    | .ok (.advice ..) | .error _ => return none

/-- Carries the refactoring out and tells what it did. -/
def apply (r : Refactoring) (parse : Syntax.Parser) (d : Defect) : Act RefactoringError String := do
  checkTarget parse d.file
  let source ← readTarget d.file
  let rewrite ← (Act.ofExcept (r.compute parse d source)).mapError .rewrite
  match rewrite with
  | .edit content _ description =>
    (writeFile d.file content.toUTF8).mapError .write
    return description
  | .advice description _ => return description

end Refactoring

end Amend
