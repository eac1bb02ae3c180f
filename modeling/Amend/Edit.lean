import Amend.Json
import Amend.Text.Lines

/-!
# Edits of a source text

An edit replaces a span of a source. A set of edits is accepted when every span lies inside the
source and no two overlap; it is kept in the order of its spans, and its replacements are all
stated in the offsets of the source before any of them.
-/

namespace Amend

/-- The replacement of the bytes `start` to `stop`. Of two insertions at one offset, the one with
the lower priority lands first. -/
structure TextEdit where
  start : Nat
  stop : Nat
  replacement : String
  label : String
  priority : Int := 0
deriving DecidableEq

/-- The lines after `afterLine`, counted from 1 before the edit, move by `delta`. -/
structure LineShift where
  afterLine : Nat
  delta : Int
deriving DecidableEq

/-- A written movement. -/
def LineShift.toJson (s : LineShift) : Json :=
  .obj [("after_line", .nat s.afterLine), ("delta", .int s.delta)]

/-- Reads a movement. -/
def LineShift.ofJson? (j : Json) : Option LineShift := do
  match ← j.fields? [("after_line", false), ("delta", false)] with
  | [some after, some delta] =>
    return ⟨← after.word?, ← delta.signedWord?⟩
  | _ => none

/-- Why a list of edits is refused. -/
inductive EditConflict where
  /-- The second edit starts before the first one ends. -/
  | overlapping (first second : TextEdit)
  /-- The edit's span is reversed or leaves the source. -/
  | outOfBounds (edit : TextEdit) (sourceSize : Nat)

namespace TextEdit

/-- The replacement of a span. -/
def replace (start stop : Nat) (replacement label : String) : TextEdit :=
  ⟨start, stop, replacement, label, 0⟩

/-- The insertion of a text at an offset. -/
def insert (at_ : Nat) (text label : String) : TextEdit := replace at_ at_ text label

/-- The deletion of a span. -/
def delete (start stop : Nat) (label : String) : TextEdit := replace start stop "" label

/-- The fields of a written edit. -/
def fieldNames : List (String × Bool) :=
  [("start", false), ("end", false), ("replacement", false), ("label", false), ("priority", true)]

/-- Reads an edit. -/
def ofJson? (j : Json) : Option TextEdit := do
  match ← j.fields? fieldNames with
  | [some start, some stop, some replacement, some label, priority] =>
    return { start := ← start.word?, stop := ← stop.word?, replacement := ← replacement.str?
             label := ← label.str?
             priority := ← (priority.getD (.int 0)).signedHalfWord? }
  | _ => none

/-- Whether the edit replaces nothing. -/
def isInsertion (e : TextEdit) : Bool := e.start == e.stop

/-- Whether the span is in order and inside a source of the given size. -/
def inBounds (e : TextEdit) (sourceSize : Nat) : Bool := e.start ≤ e.stop && e.stop ≤ sourceSize

/-- The order in which edits are kept: by start, then end, then priority. -/
def before (a b : TextEdit) : Bool :=
  a.start < b.start ||
    (a.start == b.start && (a.stop < b.stop || (a.stop == b.stop && a.priority ≤ b.priority)))

/-- Whether `b`, not before `a`, overlaps it. Two insertions at one offset do not. -/
def clashes (a b : TextEdit) : Bool :=
  !(a.isInsertion && b.isInsertion && a.start == b.start) && a.stop > b.start

/-- `span` written as `[start..end)`. -/
def spanText (e : TextEdit) : String :=
  "[" ++ toString e.start ++ ".." ++ toString e.stop ++ ")"

end TextEdit

/-- The report of a refused list. -/
def EditConflict.message : EditConflict → String
  | .overlapping a b =>
    "Edit '" ++ b.label ++ "' " ++ b.spanText ++ " overlaps '" ++ a.label ++ "' " ++ a.spanText
  | .outOfBounds e size =>
    "Edit '" ++ e.label ++ "' " ++ e.spanText ++ " is outside a source of " ++ toString size ++
      " bytes"

/-- The first pair of neighbours that overlap. -/
def TextEdit.firstClash? : List TextEdit → Option (TextEdit × TextEdit)
  | a :: b :: rest => if a.clashes b then some (a, b) else firstClash? (b :: rest)
  | _ => none

/-- Edits of one source, in order and without overlap. -/
structure EditSet where
  edits : List TextEdit

namespace EditSet

/-- The set of a list of edits of a source of the given size. -/
def ofList (edits : List TextEdit) (sourceSize : Nat) : Except EditConflict EditSet :=
  match edits.find? fun e => !e.inBounds sourceSize with
  | some bad => .error (.outOfBounds bad sourceSize)
  | none =>
    let sorted := edits.mergeSort TextEdit.before
    match TextEdit.firstClash? sorted with
    | some (a, b) => .error (.overlapping a b)
    | none => .ok ⟨sorted⟩

/-- The edited source, the last edit done first so that the offsets of the others stay right.
None when an edit's offset is inside a character of the source. -/
def applyTo? (set : EditSet) (source : String) : Option String :=
  set.edits.foldr
    (fun e text => text.bind fun t => Text.splice? t e.start e.stop e.replacement)
    (some source)

/-- How far an edit moves the lines after it. -/
def delta? (source : String) (e : TextEdit) : Option Int := do
  let removed ← Text.slice? source e.start e.stop
  return (Text.newlines e.replacement : Int) - Text.newlines removed

/-- The last line that an edit leaves in place: the line holding the edit's end moves as a whole
only when the end starts it. -/
def lastFixedLine (source : String) (e : TextEdit) : Nat :=
  let row := Text.rowOf source e.stop
  if Text.lineStart source e.stop = e.stop then row else row + 1

/-- The line movements that the set causes, in the numbering of the source before it. -/
def lineShifts? (set : EditSet) (source : String) : Option (List LineShift) := do
  let shifts ← set.edits.mapM fun e => do
    let delta ← delta? source e
    return ⟨lastFixedLine source e, delta⟩
  return shifts.filter (·.delta ≠ 0)

/-- The number of edits. -/
def size (set : EditSet) : Nat := set.edits.length

/-- Whether there is no edit. -/
def isEmpty (set : EditSet) : Bool := set.edits.isEmpty

end EditSet

end Amend
