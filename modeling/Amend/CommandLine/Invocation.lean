import Amend.CommandLine.Words
import Amend.Path

/-!
# Invocations

What a command line asks for. The options for the project and its settings may stand before or
after the command; the later place wins.
-/

namespace Amend

/-- What is to be put back. -/
inductive RollbackTarget where
  | snapshot (id : Uid)
  /-- The newest snapshot of a file. -/
  | latest (file : Path)
  | set (id : Uid)
deriving DecidableEq

/-- What the program is to do. -/
inductive Command where
  /-- Mend the defects of a list. -/
  | run (defects : Path) (dryRun : Bool)
  /-- List snapshots, those of a file if one is given. -/
  | snapshots (file : Option Path)
  | rollback (target : Option RollbackTarget) (force : Bool)
deriving DecidableEq

/-- A command line that was understood. -/
structure Invocation where
  /-- A place in the project. -/
  start : Path
  settings : Option Path
  command : Command
deriving DecidableEq

namespace CommandLine

/-- Options that stand before or after the command. -/
def commonOptions : List (String × ValueKind) := [("project-root", .path), ("config", .path)]

/-- The level of the program. -/
def programLevel : Level where
  options := commonOptions
  commands := ["run", "snapshots", "rollback", "help"]

/-- The level of `run`. -/
def runLevel : Level where
  options := commonOptions
  flags := ["dry-run"]
  operands := 1

/-- The level of `snapshots`. -/
def snapshotsLevel : Level where
  options := ("path", .path) :: commonOptions

/-- The level of `rollback`. -/
def rollbackLevel : Level where
  options := [("id", .identifier), ("latest", .path), ("set", .identifier)] ++ commonOptions
  flags := ["force"]

/-- Everything on a level that no command ends. -/
def readAll (l : Level) (args : List String) : Except Refusal Words := do
  let (s, _) ← l.read {} args
  s.settle l

/-- The command of `run`. -/
def runCommand (s : Words) : Except Refusal Command :=
  match s.operands with
  | [defects] => .ok (.run ⟨defects⟩ (s.flags.contains "dry-run"))
  | _ => .error .misuse

/-- The command of `snapshots`. -/
def snapshotsCommand (s : Words) : Command := .snapshots ((s.value? "path").map Path.mk)

/-- The command of `rollback`: at most one target is given. -/
def rollbackCommand (s : Words) : Except Refusal Command :=
  let targets : List RollbackTarget :=
    (((s.value? "id").bind Uid.ofText?).map RollbackTarget.snapshot).toList ++
    ((s.value? "latest").map fun file => RollbackTarget.latest ⟨file⟩).toList ++
    (((s.value? "set").bind Uid.ofText?).map RollbackTarget.set).toList
  if targets.length ≤ 1 then .ok (.rollback targets.head? (s.flags.contains "force"))
  else .error .misuse

/-- The words behind a command and what they ask for. -/
def readCommand (name : String) (args : List String) : Except Refusal (Words × Command) := do
  match name with
  | "run" =>
    let s ← readAll runLevel args
    return (s, ← runCommand s)
  | "snapshots" =>
    let s ← readAll snapshotsLevel args
    return (s, snapshotsCommand s)
  | "rollback" =>
    let s ← readAll rollbackLevel args
    return (s, ← rollbackCommand s)
  | _ =>
    match args with
    | [] => throw .help
    | [topic] => throw (if programLevel.commands.contains topic then .help else .misuse)
    | _ => throw .misuse

end CommandLine

open CommandLine in
/-- What a list of arguments asks for. -/
def Invocation.ofArgs (args : List String) : Except Refusal Invocation := do
  let (outer, found) ← programLevel.read {} args
  match found with
  | none => throw .misuse
  | some (name, rest) =>
    let (inner, command) ← readCommand name rest
    let outer ← outer.settle programLevel
    let common (option : String) := (inner.value? option).or (outer.value? option)
    return { start := ⟨(common "project-root").getD "."⟩
             settings := (common "config").map Path.mk, command }

end Amend
