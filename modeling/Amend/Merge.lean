import Amend.Java.Declaration
import Amend.Syntax.Fault

/-!
# Merging a rewrite into a file

A rewritten source replaces the type declarations of the original and leaves the text around them
as it was, when that text differs from the rewrite's in blanks alone. Otherwise it replaces the
whole file.
-/

namespace Amend

open Syntax

/-- How a rewritten source replaced the original. -/
inductive MergeMode where
  /-- Declarations put between the original's header and trailer. -/
  | structural
  /-- The whole file overwritten. -/
  | textual
deriving DecidableEq

namespace Merge

/-- The span from the first to the last type declaration at the top of a source that parses. -/
def declarationSpan? (parse : Parser) (source : String) : Option Span :=
  match parse.verify source with
  | .error _ => none
  | .ok tree =>
    let found := (Node.root tree).namedChildren.filter (·.isOneOf Java.typeDeclarations)
    match found.head?, found.getLast? with
    | some first, some last => some ⟨first.start, last.stop⟩
    | _, _ => none

/-- Whether two texts differ in blanks alone: the same words in the same order. -/
def sameWords (a b : String) : Bool := Text.words a == Text.words b

/-- The text before a span, inside it and after it. -/
def cut? (source : String) (span : Span) : Option (String × String × String) := do
  return (← Text.upTo? source span.start, ← Text.slice? source span.start span.stop,
    ← Text.from? source span.stop)

end Merge

/-- The file that a rewritten source makes of the original. -/
def merge (parse : Parser) (original candidate : String) : String × MergeMode :=
  let pieces := do
    let o ← Merge.cut? original (← Merge.declarationSpan? parse original)
    let c ← Merge.cut? candidate (← Merge.declarationSpan? parse candidate)
    return (o, c)
  match pieces with
  | some ((oHeader, _, oTrailer), (cHeader, body, cTrailer)) =>
    if Merge.sameWords oHeader cHeader && Merge.sameWords oTrailer cTrailer then
      (oHeader ++ body ++ oTrailer, .structural)
    else (candidate, .textual)
  | none => (candidate, .textual)

end Amend
