import Amend.Syntax.Node

/-!
# Removing a construct

What goes when a construct is removed: the construct, the comments stacked right above it, a
comment after it on its last line, and the whole lines when nothing else stands on them.
-/

namespace Amend.Layout

open Syntax

/-- The start of the run of comments directly above a row, from siblings given nearest first. -/
def commentsAbove (source : String) : Nat → List Node → Option Nat
  | _, [] => none
  | row, p :: before =>
    if p.isComment && row - Text.rowOf source p.stop ≤ 1 then
      some ((commentsAbove source (Text.rowOf source p.start) before).getD p.start)
    else none

/-- The end of the first comment among siblings that start on a row, given in order. -/
def commentBeside (source : String) (row : Nat) (after : List Node) : Option Nat :=
  ((after.takeWhile fun n => Text.rowOf source n.start = row).find? (·.isComment)).map (·.stop)

/-- The span to delete when a node is removed. -/
def removalSpan (source : String) (n : Node) : Span :=
  let start := (commentsAbove source (Text.rowOf source n.start) n.siblingsBefore).getD n.start
  let stop := (commentBeside source (Text.rowOf source n.stop) n.siblingsAfter).getD n.stop
  (Text.fullLineSpan? source start stop).getD ⟨start, stop⟩

end Amend.Layout
