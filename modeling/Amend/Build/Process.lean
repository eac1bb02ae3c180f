import Amend.Settings

/-!
# Supervised processes

A process may run for a time; then it is asked to end, and after a time of grace it is killed.
What it was doing when it ended tells how it ended.
-/

namespace Amend.Build

/-- Where a supervised process stands. -/
inductive ProcessState where
  | running
  | terminating
  | killed
  | completed
deriving DecidableEq

/-- How a process ended. -/
inductive Termination where
  | completed
  | terminated
  | killed
deriving DecidableEq

/-- The written name of an ending. -/
def Termination.name : Termination → String
  | .completed => "completed"
  | .terminated => "terminated"
  | .killed => "killed"

namespace ProcessState

/-- The written name of a state. -/
def name : ProcessState → String
  | .running => "running"
  | .terminating => "terminating"
  | .killed => "killed"
  | .completed => "completed"

/-- The state after the time of this one has passed. -/
def escalate : ProcessState → ProcessState
  | .running => .terminating
  | .terminating => .killed
  | s => s

/-- The state once the process has ended. -/
def exited : ProcessState → ProcessState
  | .running => .completed
  | s => s

/-- How a process ended that ended in this state. -/
def termination : ProcessState → Termination
  | .running | .completed => .completed
  | .terminating => .terminated
  | .killed => .killed

end ProcessState

/-- How long, in milliseconds, a process may run and how long it has to end by itself. -/
structure TerminationPolicy where
  timeoutMs : Nat
  graceMs : Nat
deriving DecidableEq

namespace TerminationPolicy

/-- The policy of the settings. -/
def ofSettings (s : BuildSettings) : TerminationPolicy := ⟨1000 * s.timeout, 1000 * s.grace⟩

/-- The time allowed in a state; none where the end is awaited without limit. -/
def limit? (p : TerminationPolicy) : ProcessState → Option Nat
  | .running => some p.timeoutMs
  | .terminating => some p.graceMs
  | .killed | .completed => none

end TerminationPolicy

/-- What is known of a process that has ended. The exit code is -1 when it was stopped or died of
a signal. -/
structure ProcessOutcome where
  success : Bool
  exitCode : Int
  output : String
  elapsedMs : Nat
  timedOut : Bool
  termination : Termination

/-- The line that marks the output of a stopped process. -/
def timeoutMarker (timeoutMs : Nat) : String :=
  "[refit] timed out after " ++ toString (timeoutMs / 1000) ++ "s\n"

/-- The outcome of a process that ended in a state, with the exit code if it ended by itself. -/
def ProcessOutcome.ofExit (policy : TerminationPolicy) (state : ProcessState)
    (code : Option Int) (output : String) (elapsedMs : Nat) : ProcessOutcome :=
  let timedOut := state ≠ .completed
  let open_ := timedOut && !output.isEmpty && !output.endsWith "\n"
  { success := !timedOut && code = some 0
    exitCode := if timedOut then -1 else code.getD (-1)
    output :=
      output ++ (if open_ then "\n" else "") ++
        (if timedOut then timeoutMarker policy.timeoutMs else "")
    elapsedMs
    timedOut
    termination := state.termination }

/-- A written outcome. -/
def ProcessOutcome.toJson (p : ProcessOutcome) : Json :=
  .obj [("success", .bool p.success), ("exit_code", .int p.exitCode), ("output", .str p.output),
    ("elapsed", .obj [("secs", .nat (p.elapsedMs / 1000)),
      ("nanos", .nat (p.elapsedMs % 1000 * 1000000))]),
    ("timed_out", .bool p.timedOut), ("termination", .str p.termination.name)]

/-- Why a step did not run. -/
inductive RunError where
  /-- The program is not there. -/
  | toolNotFound (tool : String)
  /-- The program could not be started. -/
  | toolExecution (tool cause : String)
  /-- The command line cannot be used. -/
  | badInput (tool reason : String)

/-- The report of a failure. -/
def RunError.message : RunError → String
  | .toolNotFound tool => "Required build tool unavailable: " ++ tool
  | .toolExecution tool cause => "Could not start '" ++ tool ++ "': " ++ cause
  | .badInput tool reason => "Bad input for '" ++ tool ++ "': " ++ reason

end Amend.Build
