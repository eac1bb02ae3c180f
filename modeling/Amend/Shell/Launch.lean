import Amend.Build.Command
import Amend.Shell.Eval

/-!
# Starting programs

A command line is started in a directory, watched under a time policy and, once it has ended, told
of by its output and status. What is still in the background may write for a short time more.
-/

namespace Amend.Shell

/-- Why a program cannot be started. -/
inductive StartError where
  /-- The program, its interpreter or the directory is not there. -/
  | missing
  | refused (cause : SystemError)
  | zeroInText

/-- The failure of a command line whose program cannot be started. -/
def StartError.toRunError (program : String) : StartError → Build.RunError
  | .missing => .toolNotFound program
  | .refused cause => .toolExecution program cause.message
  | .zeroInText => .toolExecution program "nul byte found in provided data"

/-- What the system says to a missing entry. -/
def StartError.ofSystem : SystemError → StartError
  | .notFound => .missing
  | e => .refused e

/-- The path of a program that is started in a directory. -/
def programPath? (w : World) (dir : Path) (program : String) : Option Path :=
  if program.contains '/' then some (dir.join ⟨program⟩) else w.program? program

/-- Refuses a directory in which nothing can be started. -/
def checkDirectory (w : World) (dir : Path) : Except StartError Unit :=
  match w.disk.stat dir with
  | .ok .directory => .ok ()
  | .ok _ => .error (.refused .notDirectory)
  | .error e => .error (.ofSystem e)

/-- Refuses a file that the system cannot run. -/
def checkImage (w : World) (bytes : ByteArray) : Except StartError Unit :=
  if (Utility.imageName? bytes).isSome then .ok ()
  else
    match interpreterOf? bytes with
    | none => .error (.refused .notExecutableFormat)
    | some (interpreter, _) =>
      match w.disk.stat ⟨interpreter⟩ with
      | .ok (.file _ mode _) =>
        if isExecutable mode then .ok () else .error (.refused .permissionDenied)
      | .ok _ => .error (.refused .permissionDenied)
      | .error e => .error (.ofSystem e)

/-- The path and the file of a program, if it can be started. -/
def findProgram (w : World) (dir : Path) (argv : List String) (program : String) :
    Except StartError (Path × ByteArray) := do
  if argv.any (·.contains '\x00') then throw .zeroInText
  checkDirectory w dir
  match programPath? w dir program with
  | none => throw .missing
  | some path =>
    match w.disk.stat path with
    | .error e => throw (.ofSystem e)
    | .ok (.file bytes mode _) =>
      if !isExecutable mode then throw (.refused .permissionDenied)
      checkImage w bytes
      return (path, bytes)
    | .ok _ => throw (.refused .permissionDenied)

/-- The number of the first process. -/
def firstPid : Nat := 4242

/-- The variables that a program is given. -/
def environment (w : World) (dir : Path) : Arithmetic.Variables :=
  [("PATH", ":".intercalate (w.programDirs.map (·.text))), ("HOME", "/root"), ("PWD", dir.text)]

/-- The machine on which a program starts. -/
def initialMachine (w : World) (dir : Path) (policy : Build.TerminationPolicy) (program : String) :
    Machine where
  frame :=
    { pid := firstPid, shownPid := firstPid, name := program, directory := dir
      bindings := environment w dir, exported := ["PATH", "HOME"]
      streams := [(0, .discard), (1, .terminal), (2, .terminal)] }
  world := w
  termAt := policy.timeoutMs
  killAt := policy.timeoutMs + policy.graceMs

/-- Enough fuel for any script that ends within the step limit. -/
def fuel : Nat := 1000000

/-- For how long output is awaited after the end, in milliseconds. -/
def drainMs : Nat := 2000

/-- The output up to a time, in the order in which it was written. -/
def outputUntil (time : Nat) (output : List Chunk) : ByteArray :=
  let inTime := output.reverse.filter fun c => c.time ≤ time
  (inTime.mergeSort fun a b => a.time ≤ b.time).foldl (fun acc c => acc ++ c.bytes) .empty

/-- The state in which a process ended. -/
def endState (m : Machine) (how : Except Leave Unit) : Build.ProcessState :=
  if !m.termSent then .completed
  else
    match how with
    | .error (.died _ signal) => if signal = killSignal && m.killAt ≤ m.time then .killed else .terminating
    | _ => .terminating

/-- Starts programs and watches them. -/
def launch : Build.Launcher := fun policy argv cwd => Act.ofFun fun w =>
  match argv with
  | [] => (.error (.badInput "command" "empty command line"), w)
  | program :: _ =>
    let dir := w.absolute cwd
    match findProgram w dir argv program with
    | .error e => (.error (e.toRunError program), w)
    | .ok (path, bytes) =>
      let dir := (w.disk.canonical dir).toOption.getD dir
      match (image fuel path.text bytes argv).run (initialMachine w dir policy program) with
      | (how, m) =>
        let code : Option Int := match how with
          | .error (.died ..) => none
          | _ => some m.frame.status
        let text := Text.decodeLossy (outputUntil (m.time + drainMs) m.output)
        let outcome := Build.ProcessOutcome.ofExit policy (endState m how) code text m.time
        (.ok outcome, { m.world with now := w.now + m.time })

end Amend.Shell
