import Amend.Text.Lines

/-!
# Indentation

How a source indents its lines, and how inserted code is indented to match.
-/

namespace Amend

/-- One step of indentation. -/
inductive IndentStyle where
  | spaces (width : Nat)
  | tabs
deriving DecidableEq

namespace IndentStyle

/-- What the lines seen so far say: how often indentation grew by each number of spaces, how many
lines start with a tab, and the width of the line before. -/
structure Votes where
  steps : List Nat := []
  tabLines : Nat := 0
  previous : Nat := 0

/-- Counts one line that is not blank. -/
def Votes.count (v : Votes) (line : List Char) : Votes :=
  if line.head? = some '\t' then { v with tabLines := v.tabLines + 1 }
  else
    let width := (line.takeWhile (· == ' ')).length
    let steps :=
      if v.previous < width ∧ width - v.previous ≤ 8 then (width - v.previous) :: v.steps
      else v.steps
    { v with steps, previous := width }

/-- The step that most lines take: a smaller one wins a tie, and 4 where no line is indented. -/
def Votes.width (v : Votes) : Nat :=
  let count (i : Nat) := v.steps.count i
  let best := (List.range' 1 8).foldl (fun best i => if count i > count best then i else best) 0
  if best = 0 then 4 else best

/-- The style of a source, judged by its first 200 lines that are not blank. -/
def infer (source : String) : IndentStyle :=
  let sample := ((Text.lines source).filter fun l => !Text.allBlank l).take 200
  let votes := sample.foldl (fun v l => Votes.count v l.toList) {}
  if votes.tabLines > votes.steps.length then .tabs else .spaces votes.width

/-- The text of one step. -/
def unit : IndentStyle → String
  | .spaces n => .ofList (List.replicate n ' ')
  | .tabs => "\t"

/-- An indentation one step deeper. -/
def deeper (style : IndentStyle) (indent : String) : String := indent ++ style.unit

end IndentStyle

namespace Text

/-- Whether `c` is a space or a tab. -/
def isIndent (c : Char) : Bool := c == ' ' || c == '\t'

/-- The spaces and tabs that start the line of offset `i`. -/
def lineIndent? (s : String) (i : Nat) : Option String := do
  let start ← lineStart? s i
  let line ← from? s start
  return .ofList (line.toList.takeWhile isIndent)

/-- The code with every line but the first indented further. A line that holds only its end is
left alone. -/
def indentRest (code indent : String) : String :=
  match segments code with
  | [] => ""
  | first :: rest =>
    let deepen (seg : String) :=
      if seg.toList.all fun c => c == '\r' || c == '\n' then seg else indent ++ seg
    String.join (first :: rest.map deepen)

end Text

end Amend
