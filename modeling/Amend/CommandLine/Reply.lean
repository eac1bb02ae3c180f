import Amend.CommandLine.Invocation
import Amend.Project
import Amend.Workflow.Run

/-!
# Replies

What the program answers to a command line: a JSON value or none, a report of what went wrong, and
an exit code, which is 0 if all went well, 1 if the command failed and 2 if there was none. A run
that did not succeed fails and still shows its outcome.
-/

namespace Amend

/-- Why a command failed. -/
inductive CommandError where
  /-- The project cannot be entered. -/
  | start (cause : SystemError)
  | settings (e : SettingsError)
  /-- The list of defects cannot be read. -/
  | unreadable (cause : SystemError)
  /-- What was read is not a list of defects. -/
  | malformed
  | snapshot (e : SnapshotError)
  | rollback (e : RollbackError)
  | outside (e : Path.OutsideRoot)
  /-- Nothing was named to be put back. -/
  | noTarget

/-- The report of a failure. -/
def CommandError.message : CommandError → String
  | .start cause | .unreadable cause => cause.message
  | .settings e => e.message
  | .malformed => "not a JSON array of defect records"
  | .snapshot e => e.message
  | .rollback e => e.message
  | .outside e => e.message
  | .noTarget => "rollback needs one of --id, --latest or --set"

/-- What the program answers. -/
structure Reply where
  output : Option Json := none
  report : Option String := none
  code : Nat := 0

/-- How the program is used. -/
def usage : String :=
  "Safe automated refactoring for Java projects\n\n" ++
  "Usage: [OPTIONS] <COMMAND>\n\n" ++
  "Commands:\n" ++
  "  run <DEFECTS> [--dry-run]   fix the defects of a JSON array, or of standard input for '-'\n" ++
  "  snapshots [--path <FILE>]   list stored snapshots, newest first\n" ++
  "  rollback [--id <ID> | --latest <FILE> | --set <ID>] [--force]\n" ++
  "                              restore files from the snapshot store\n" ++
  "  help [COMMAND]              show this text\n\n" ++
  "Options:\n" ++
  "  --project-root <PATH>       path inside the project [default: .]\n" ++
  "  --config <FILE>             settings file [default: .refit/config.json in the project]\n" ++
  "  -h, --help                  show this text\n"

namespace Reply

/-- The reply to a command line that starts nothing. -/
def ofRefusal : Refusal → Reply
  | .help => { report := some usage }
  | .misuse => { report := some usage, code := 2 }

/-- The reply to a command that failed. -/
def ofError (e : CommandError) : Reply := { report := some ("Error: " ++ e.message), code := 1 }

/-- The reply that shows the outcome of a run. -/
def ofOutcome (o : RunOutcome) : Reply :=
  if o.success then { output := some o.toJson }
  else
    { output := some o.toJson
      report := some ("Error: workflow ended " ++ o.state.name ++ " in phase " ++ o.phase.name)
      code := 1 }

end Reply

namespace Invocation

/-- The root of the project that a place is in: where a marker stands, else the place itself. -/
def projectRoot (i : Invocation) : Act CommandError Path := do
  let start ← (World.operation fun w =>
    (w.disk.canonical (w.absolute i.start)).map (·, w)).mapError .start
  return (← Act.look (Project.findRoot? · start)).getD start

/-- The defects of a list, which is read from standard input for a dash. -/
def readDefects (source : Path) (input : String) : Act CommandError (List Defect) := do
  let text ← if source.same ⟨"-"⟩ then pure input else (World.readText source).mapError .unreadable
  match (Json.parse? text).bind (Json.list? Defect.ofJson?) with
  | some defects => return defects
  | none => throw .malformed

/-- A file named on a command line, which has to lie in the project. -/
def inProject (root file : Path) : Act CommandError Path :=
  (Act.ofExcept (Path.resolveWithin root file)).mapError .outside

/-- Runs a list of defects. -/
def runDefects (parse : Syntax.Parser) (launch : Build.Launcher) (input : String) (root : Path)
    (s : Settings) (source : Path) (dryRun : Bool) : Act CommandError RunOutcome := do
  let s := if dryRun then { s with workflow := { s.workflow with dryRun := some true } } else s
  let defects ← readDefects source input
  let bench ← (Workbench.ofSettings parse launch root s).mapError .snapshot
  Act.always (bench.run defects)

/-- Lists snapshots. -/
def listSnapshots (store : SnapshotStore) (root : Path) (file : Option Path) :
    Act CommandError (List Snapshot) := do
  match file with
  | some file =>
    let file ← inProject root file
    (store.listFor file).mapError .snapshot
  | none => store.listAll.mapError .snapshot

/-- Puts back what was named. -/
def putBack (store : SnapshotStore) (root : Path) (force : Bool) :
    Option RollbackTarget → Act CommandError (List RestoreReport)
  | some (.snapshot id) => do return [← (store.rollbackId id force).mapError .rollback]
  | some (.latest file) => do
    let file ← inProject root file
    return [← (store.rollbackLatest file force).mapError .rollback]
  | some (.set id) => (store.rollbackSet id force).mapError .rollback
  | none => throw .noTarget

/-- Does what the command line asks for. -/
def perform (parse : Syntax.Parser) (launch : Build.Launcher) (input : String) (i : Invocation) :
    Act CommandError Reply := do
  let root ← i.projectRoot
  let s ← (Settings.load root i.settings).mapError .settings
  let opened : Act CommandError SnapshotStore :=
    (SnapshotStore.openAt (s.snapshots.directory root) s.snapshots).mapError .snapshot
  match i.command with
  | .run source dryRun =>
    return .ofOutcome (← runDefects parse launch input root s source dryRun)
  | .snapshots file =>
    let store ← opened
    return { output := some (.list Snapshot.toJson (← listSnapshots store root file)) }
  | .rollback target force =>
    let store ← opened
    return { output := some (.list RestoreReport.toJson (← putBack store root force target)) }

end Invocation

/-- The reply to a list of arguments and a text on standard input. -/
def Reply.ofArgs (parse : Syntax.Parser) (launch : Build.Launcher) (args : List String)
    (input : String) : StateM World Reply := do
  match Invocation.ofArgs args with
  | .error refusal => return .ofRefusal refusal
  | .ok i =>
    match ← (i.perform parse launch input).settle with
    | .ok reply => return reply
    | .error e => return .ofError e

end Amend
