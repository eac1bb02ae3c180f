import Amend.Json
import Amend.Text.Alphabet
import Amend.Text.Lines

/-!
# Compiler messages

The messages of compilers and build tools, read line by line from their output. One form is
`FILE.java:LINE: error: MESSAGE`, perhaps with the name of the tool in brackets before it; the
other is `[ERROR] FILE.java:[LINE,COLUMN] MESSAGE`.
-/

namespace Amend.Build

/-- How bad a message is. -/
inductive Level where
  | error
  | warning
deriving DecidableEq

/-- The written name of a level. -/
def Level.name : Level → String
  | .error => "error"
  | .warning => "warning"

/-- One message. The column counts from 1 and is 0 where the tool gives none. -/
structure Diagnostic where
  file : String
  line : Nat
  column : Nat
  message : String
  level : Level
deriving DecidableEq

/-- A written message. -/
def Diagnostic.toJson (d : Diagnostic) : Json :=
  .obj [("file", .str d.file), ("line", .nat d.line), ("column", .nat d.column),
    ("message", .str d.message), ("severity", .str d.level.name)]

/-- The number that digits write, and 0 where they are not ASCII or write no 64-bit word. -/
def wordOrZero (digits : List Char) : Nat :=
  if digits.all fun c => '0' ≤ c && c ≤ '9' then
    let n := digits.foldl (fun n c => 10 * n + (c.toNat - 48)) 0
    if n < MachineWord.card then n else 0
  else 0

namespace Diagnostic

/-- The digits at the front of a text, at least one, and the rest. -/
def digits? (cs : List Char) : Option (List Char × List Char) :=
  let ds := cs.takeWhile Text.isDecimalDigit
  if ds.isEmpty then none else some (ds, cs.dropWhile Text.isDecimalDigit)

/-- What follows a piece of fixed text. -/
def after? (fixed : String) (cs : List Char) : Option (List Char) :=
  Text.afterChars? fixed.toList cs

/-- The text without its blanks at both ends. -/
def trimmed (cs : List Char) : String :=
  .ofList (Text.dropEndWhile Text.isBlank (cs.dropWhile Text.isBlank))

/-- The message that follows the shortest file name ending in `.java` whose rest `readRest` can
read. `name` holds the characters passed so far, last first; the name has one before its ending. -/
def afterFile? (readRest : List Char → Option (String → Diagnostic)) (name : List Char) :
    List Char → Option Diagnostic
  | [] => none
  | c :: cs =>
    let here := do
      if name.isEmpty then none
      let make ← (after? ".java" (c :: cs)).bind readRest
      return make (String.ofList name.reverse ++ ".java")
    here.or (afterFile? readRest (c :: name) cs)

/-- The texts left after dropping `n` blanks, `n - 1` blanks and so on, as long as more than
`least` are dropped. -/
def afterBlanks (least : Nat) (cs : List Char) : List (List Char) :=
  let n := (cs.takeWhile Text.isBlank).length
  ((List.range (n + 1)).filter (least ≤ ·)).reverse.map cs.drop

/-- What follows the file name in the first form. -/
def javacRest? (column : Nat) (cs : List Char) : Option (String → Diagnostic) := do
  let (line, rest) ← digits? (← after? ":" cs)
  let rest := (← after? ":" rest).dropWhile Text.isBlank
  let (level, message) ←
    match after? "error:" rest, after? "warning:" rest with
    | some message, _ => some (Level.error, message)
    | none, some message => some (Level.warning, message)
    | none, none => none
  if message.isEmpty then none
  return fun file => { file, line := wordOrZero line, column, message := trimmed message, level }

/-- A line of the first form, given without blanks at its ends. -/
def ofJavacLine? (column : Nat) (cs : List Char) : Option Diagnostic :=
  let starts :=
    match after? "[javac]" cs with
    | none => [cs]
    | some rest => afterBlanks 0 rest ++ [cs]
  starts.findSome? (afterFile? (javacRest? column) [])

/-- A line without the name of the tool in brackets before it. -/
def withoutTool (line : String) : List Char :=
  let cs := line.toList
  match after? "[javac]" (cs.dropWhile Text.isBlank) with
  | none => cs
  | some (' ' :: rest) => rest
  | some rest => rest

/-- The column marked by a line that holds a caret and else only blanks, 0 for any other line. -/
def caretColumn (line : String) : Nat :=
  let cs := withoutTool line
  if trimmed cs = "^" then (String.ofList (cs.takeWhile (· != '^'))).utf8ByteSize + 1 else 0

/-- The messages of the first form in lines of output. The column is marked two lines below. -/
def ofJavacLines : List String → List Diagnostic
  | [] => []
  | line :: rest =>
    let column := (rest[1]?.map caretColumn).getD 0
    (ofJavacLine? column (Text.trim line).toList).toList ++ ofJavacLines rest

/-- The messages of the first form in an output. -/
def ofJavac (output : String) : List Diagnostic := ofJavacLines (Text.lines output)

/-- What follows the file name in the second form. -/
def mavenRest? (level : Level) (cs : List Char) : Option (String → Diagnostic) := do
  let (line, rest) ← digits? (← after? ":[" cs)
  let (column, rest) ← digits? (← after? "," rest)
  let rest ← after? "]" rest
  match rest with
  | c :: d :: message =>
    if Text.isBlank c then
      some fun file => { file, line := wordOrZero line, column := wordOrZero column,
                         message := trimmed (d :: message), level }
    else none
  | _ => none

/-- A line of the second form, given without blanks at its ends. -/
def ofMavenLine? (cs : List Char) : Option Diagnostic := do
  let (level, rest) ←
    match after? "[ERROR]" cs, after? "[WARNING]" cs with
    | some rest, _ => some (Level.error, rest)
    | none, some rest => some (Level.warning, rest)
    | none, none => none
  (afterBlanks 1 rest).findSome? (afterFile? (mavenRest? level) [])

/-- The messages of the second form in an output. -/
def ofMaven (output : String) : List Diagnostic :=
  (Text.lines output).filterMap fun line => ofMavenLine? (Text.trim line).toList

end Diagnostic

end Amend.Build
