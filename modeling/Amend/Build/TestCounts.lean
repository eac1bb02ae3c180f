import Amend.Build.Diagnostic

/-!
# Test summaries

The totals of a test run, read from the last summary in its output. There are two forms:
`Tests run: 7, Failures: 1, Errors: 0, Skipped: 2` and `7 tests completed, 1 failed, 2 skipped`.
-/

namespace Amend.Build

/-- Totals of a test run. -/
structure TestCounts where
  run : Nat
  failures : Nat
  errors : Nat
  skipped : Nat
deriving DecidableEq

namespace TestCounts

/-- A sum of totals, which are 64-bit words. -/
def wordSum (ns : List Nat) : Nat := MachineWord.wrap (MachineWord.total ns)

/-- The tests that neither failed nor were skipped. -/
def passed (t : TestCounts) : Nat := t.run - wordSum [t.failures, t.errors, t.skipped]

/-- The tests that failed in either way. -/
def failing (t : TestCounts) : Nat := wordSum [t.failures, t.errors]

/-- Whether a test failed. -/
def hasFailures (t : TestCounts) : Bool := t.failing > 0

/-- Written totals. -/
def toJson (t : TestCounts) : Json :=
  .obj [("run", .nat t.run), ("failures", .nat t.failures), ("errors", .nat t.errors),
    ("skipped", .nat t.skipped)]

open Diagnostic (after? digits?)

/-- A number after a label and blanks. -/
def labelled? (label : String) (cs : List Char) : Option (Nat × List Char) := do
  let (ds, rest) ← digits? ((← after? label cs).dropWhile Text.isBlank)
  return (wordOrZero ds, rest)

/-- A summary of the first form at the front of a text. -/
def surefireHere? (cs : List Char) : Option (TestCounts × List Char) := do
  let (run, cs) ← labelled? "Tests run:" cs
  let (failures, cs) ← labelled? "Failures:" ((← after? "," cs).dropWhile Text.isBlank)
  let (errors, cs) ← labelled? "Errors:" ((← after? "," cs).dropWhile Text.isBlank)
  let (skipped, cs) ← labelled? "Skipped:" ((← after? "," cs).dropWhile Text.isBlank)
  return (⟨run, failures, errors, skipped⟩, cs)

/-- A number with a fixed text before and after it, 0 and nothing read if it is not there. -/
def counted (before after : String) (cs : List Char) : Nat × List Char :=
  let found := do
    let (ds, rest) ← digits? (← after? before cs)
    return (wordOrZero ds, ← after? after rest)
  found.getD (0, cs)

/-- A summary of the second form at the front of a text. -/
def gradleHere? (cs : List Char) : Option (TestCounts × List Char) := do
  let (run, cs) ← digits? cs
  let cs ← after? " test" cs
  let cs := (after? "s" cs).getD cs
  let cs ← after? " completed" cs
  let (failures, cs) := counted ", " " failed" cs
  let (skipped, cs) := counted ", " " skipped" cs
  return (⟨wordOrZero run, failures, 0, skipped⟩, cs)

/-- The last of the summaries found from left to right, each search going on behind the one
before. The fuel bounds the number of characters. -/
def lastFrom (here : List Char → Option (TestCounts × List Char)) :
    Nat → Option TestCounts → List Char → Option TestCounts
  | 0, found, _ => found
  | _, found, [] => found
  | fuel + 1, found, c :: cs =>
    match here (c :: cs) with
    | some (counts, rest) => lastFrom here fuel (some counts) rest
    | none => lastFrom here fuel found cs

/-- The last summary of a form in an output. -/
def last? (here : List Char → Option (TestCounts × List Char)) (output : String) :
    Option TestCounts :=
  lastFrom here (output.length + 1) none output.toList

/-- The last summary of the first form. -/
def ofSurefire? (output : String) : Option TestCounts := last? surefireHere? output

/-- The last summary of the second form. -/
def ofGradle? (output : String) : Option TestCounts := last? gradleHere? output

end TestCounts

end Amend.Build
