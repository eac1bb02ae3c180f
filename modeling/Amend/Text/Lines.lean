import Amend.Text.Blank
import Amend.Text.Slice
import Amend.MachineWord

/-!
# Lines of a text

A line ends at a line feed, and a carriage return just before that line feed belongs to the line
end. A final line feed does not open another line.
-/

namespace Amend.Text

/-- The number of line feeds in a text. -/
def newlines (s : String) : Nat := s.toList.count '\n'

/-- The pieces of a text up to and including each line feed, with what follows the last one if
it is not empty. -/
def lineSegments (cs : List Char) : List (List Char) :=
  match cs with
  | [] => []
  | c :: cs =>
    if c == '\n' then [c] :: lineSegments cs
    else
      match lineSegments cs with
      | [] => [[c]]
      | seg :: rest => (c :: seg) :: rest

/-- The pieces of a text, each line with its end. -/
def segments (s : String) : List String := (lineSegments s.toList).map .ofList

/-- A line without its end: a final line feed goes, and a carriage return before it. -/
def stripLineEnd (seg : List Char) : List Char :=
  match seg.reverse with
  | '\n' :: '\r' :: rest => rest.reverse
  | '\n' :: rest => rest.reverse
  | _ => seg

/-- The lines of a text, without their ends. -/
def lines (s : String) : List String :=
  (lineSegments s.toList).map fun seg => .ofList (stripLineEnd seg)

/-- The number of lines of a text. -/
def lineCount (s : String) : Nat := (lineSegments s.toList).length

/-- The offset just after the last line feed among the first `i` bytes, 0 if there is none. -/
def lineStart (s : String) : Nat → Nat
  | 0 => 0
  | i + 1 => if byte? s i = some 10 then i + 1 else lineStart s i

/-- The start of the line of a boundary offset. -/
def lineStart? (s : String) (i : Nat) : Option Nat :=
  if isBoundary s i then some (lineStart s i) else none

/-- The number of line feeds among the first `i` bytes: the 0-based line of offset `i`. -/
def rowOf (s : String) : Nat → Nat
  | 0 => 0
  | i + 1 => rowOf s i + if byte? s i = some 10 then 1 else 0

/-- The bytes between the start of its line and offset `i`. -/
def columnOf (s : String) (i : Nat) : Nat := i - lineStart s i

/-- The span of a 1-based line, line feeds and carriage returns at its end excluded. -/
def lineSpan? (s : String) (line : Nat) : Option Span :=
  if line = 0 then none
  else
    let segs := lineSegments s.toList
    match segs[line - 1]? with
    | none => none
    | some seg =>
      let start := MachineWord.total ((segs.take (line - 1)).map fun t => (String.ofList t).utf8ByteSize)
      let body := dropEndWhile (fun c => c == '\n' || c == '\r') seg
      some ⟨start, start + (String.ofList body).utf8ByteSize⟩

/-- The offset of the first line feed at or after offset `i`. -/
def nextNewline? (s : String) (i : Nat) : Option Nat := do
  let rest ← from? s i
  let before := rest.toList.takeWhile (· != '\n')
  if before.length < rest.length then
    return i + (String.ofList before).utf8ByteSize
  else none

/-- A span widened to whole lines, line feed included, when nothing but blanks shares them;
the span itself otherwise. -/
def fullLineSpan? (s : String) (start stop : Nat) : Option Span := do
  let first ← lineStart? s start
  let _ ← from? s stop
  let last := ((nextNewline? s stop).map (· + 1)).getD s.utf8ByteSize
  let before ← slice? s first start
  let after ← slice? s stop last
  if allBlank before && allBlank after then return ⟨first, last⟩ else return ⟨start, stop⟩

end Amend.Text
