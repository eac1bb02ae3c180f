import Amend.Build.Process
import Amend.Build.Tool

/-!
# Build and test steps

What a build or a test run says about the project. A step passes when its process succeeds; a
test step fails besides when its summary counts a failure.
-/

namespace Amend.Build

/-- The verdict on a step. -/
inductive StepStatus where
  | passed
  | failed
  | skipped
deriving DecidableEq

/-- The written name of a verdict. -/
def StepStatus.name : StepStatus → String
  | .passed => "passed"
  | .failed => "failed"
  | .skipped => "skipped"

/-- The result of a step, with the reason why it failed or was skipped. -/
structure StepOutcome where
  status : StepStatus
  tool : Option String := none
  command : List String := []
  reason : Option String := none
  diagnostics : List Diagnostic := []
  tests : Option TestCounts := none
  process : Option ProcessOutcome := none

namespace StepOutcome

/-- A step that was not run. -/
def skipped (reason : String) : StepOutcome := { status := .skipped, reason := some reason }

/-- Whether the step passed. -/
def hasPassed (s : StepOutcome) : Bool := s.status = .passed

/-- Whether the step failed. -/
def hasFailed (s : StepOutcome) : Bool := s.status = .failed

/-- The number of errors among the compiler messages. -/
def errorCount (s : StepOutcome) : Nat := (s.diagnostics.filter (·.level = .error)).length

/-- A written step. -/
def toJson (s : StepOutcome) : Json :=
  .obj [("status", .str s.status.name), ("tool", .opt .str s.tool),
    ("command", .list .str s.command), ("reason", .opt .str s.reason),
    ("diagnostics", .list Diagnostic.toJson s.diagnostics),
    ("tests", .opt TestCounts.toJson s.tests), ("process", .opt ProcessOutcome.toJson s.process)]

end StepOutcome

/-- What runs a step: its name, its command line and the seconds that it may take, if limited. -/
structure Runner where
  name : String
  command : List String
  timeoutSecs : Option Nat

/-- The steps of a project. A missing runner means that no command is known. -/
structure Verifier where
  tool : Option Tool
  compile : Option Runner
  test : Option Runner
  missing : Option String := none
  requireTool : Bool

namespace Verifier

/-- The step of a finished process. -/
def step (runner : Runner) (process : ProcessOutcome) : StepOutcome where
  status := if process.success then .passed else .failed
  tool := some runner.name
  command := runner.command
  reason :=
    if process.timedOut then
      some ("'" ++ runner.name ++ "' timed out after " ++
        toString (runner.timeoutSecs.getD (process.elapsedMs / 1000)) ++ "s")
    else none
  process := some process

/-- The step with a reason, if it failed and has none. -/
def explain (reason : String) (s : StepOutcome) : StepOutcome :=
  if s.hasFailed && s.reason.isNone then { s with reason := some reason } else s

/-- The build step of a finished process. -/
def buildStep (v : Verifier) (runner : Runner) (process : ProcessOutcome) : StepOutcome :=
  let s := { step runner process with
    diagnostics := diagnostics v.tool process.output }
  explain ("build failed with " ++ toString s.errorCount ++ " compiler error(s)") s

/-- The test step of a finished process. -/
def testStep (v : Verifier) (runner : Runner) (process : ProcessOutcome) : StepOutcome :=
  let counts := testCounts? v.tool process.output
  let s := { step runner process with tests := counts }
  let s := if counts.any (·.hasFailures) then { s with status := .failed } else s
  explain
    (match counts with
      | some c => toString c.failing ++ " of " ++ toString c.run ++ " test(s) failed"
      | none => "test run failed") s

/-- A step without runner: skipped, or an error where a build tool is required. -/
def unavailable (v : Verifier) (name : String) : Except RunError StepOutcome :=
  let reason := v.missing.getD ("no " ++ name ++ " command configured")
  if v.requireTool then .error (.toolNotFound reason) else .ok (.skipped reason)

/-- What it takes to run a step: the finished process, or why it did not run, and the state
afterwards. -/
abbrev Run (σ : Type) := Runner → σ → Except RunError ProcessOutcome × σ

/-- The build step. -/
def verifyBuild {σ : Type} (v : Verifier) (run : Run σ) (s : σ) :
    Except RunError StepOutcome × σ :=
  match v.compile with
  | none => (v.unavailable "compile", s)
  | some runner =>
    match run runner s with
    | (.ok process, s) => (.ok (v.buildStep runner process), s)
    | (.error e, s) => (.error e, s)

/-- The test step. -/
def verifyTests {σ : Type} (v : Verifier) (run : Run σ) (s : σ) :
    Except RunError StepOutcome × σ :=
  match v.test with
  | none => (v.unavailable "test", s)
  | some runner =>
    match run runner s with
    | (.ok process, s) => (.ok (v.testStep runner process), s)
    | (.error e, s) => (.error e, s)

end Verifier

end Amend.Build
