import Amend.CommandLine.Reply
import Amend.Shell.Launch
import Amend.Syntax.Listing
import Std.Time.DateTime.Timestamp

/-!
# The program

The reply to a command line is computed on a disk in memory. This module fills that disk with the
project that the command line is about, prints the reply and carries what changed back to the file
system. Syntax trees come from a list in the project, `.refit/trees.json`; a text that it does not
know does not parse.
-/

namespace Amend.Program

/-- The file of known syntax trees. -/
def treesFile : String := ".refit/trees.json"

/-- The permission bits of a loaded file: a script can be run. -/
def modeOf (content : ByteArray) : Nat :=
  if content.data.toList.take 2 = "#!".toUTF8.data.toList then 0o755 else defaultMode

/-- The disk with a file of the file system, if there is one of that name. -/
def loadFile (d : Disk) (file : String) : IO Disk := do
  match ← (IO.FS.readBinFile file).toBaseIO with
  | .ok content => return d.install ⟨file⟩ content (modeOf content) 0
  | .error _ => return d

/-- The disk with all that is below a directory of the file system. -/
partial def loadTree (d : Disk) (dir : String) : IO Disk := do
  let mut d := (d.makeDirectories ⟨dir⟩).toOption.getD d
  for entry in ← (← IO.FS.realPath dir).readDir do
    let path := entry.path.toString
    d ← if ← entry.path.isDir then loadTree d path else loadFile d path
  return d

/-- The disk with the root markers in a directory and in those above it. -/
def loadMarkers (d : Disk) (start : Path) : IO Disk :=
  (start.ancestors.flatMap fun dir => Project.rootMarkers.map fun m => (dir ++ m).text).foldlM
    loadFile ((d.makeDirectories start).toOption.getD d)

/-- Changes in the file system what differs between two disks below a directory. -/
def carryBack (before after : Disk) (root : Path) : IO Unit := do
  let below (l : Location) : Bool := root.resolvedNames.isPrefixOf l
  for (l, _) in before.entries do
    if below l && (after.at? l).isNone then IO.FS.removeFile l.path.text
  for (l, e) in after.entries.reverse do
    if below l then
      match e, before.at? l with
      | .file content _ _, some (.file old _ _) =>
        if content.data.toList ≠ old.data.toList then IO.FS.writeBinFile l.path.text content
      | .file content _ _, _ =>
        IO.FS.createDirAll (Location.path l.dropLast).text
        IO.FS.writeBinFile l.path.text content
      | .directory, none => IO.FS.createDirAll l.path.text
      | _, _ => pure ()

/-- The world of a process that starts in a directory. -/
def world (disk : Disk) (directory : Path) : IO World := do
  let seed := (← IO.getRandomBytes 16).data.toList.foldl (fun n b => 256 * n + b.toNat) 0
  let time := (← Std.Time.Timestamp.now).toNanosecondsSinceUnixEpoch.toInt.toNat
  let epoch := ({ (default : Timestamp) with year := 1970, month := 1, day := 1 }).seconds
  return {
    disk, directory
    programDirs := [⟨"/usr/bin"⟩, ⟨"/bin"⟩]
    now := ← IO.monoMsNow
    clock := fun n => .ofSeconds (epoch + (time + n) / 1000000000) ((time + n) % 1000000000)
    ids := fun n => .random (seed + n) }

/-- The text on standard input, read only by a run that takes its defects from there. -/
def readInput (args : List String) : IO String := do
  match Invocation.ofArgs args with
  | .ok { command := .run source _, .. } =>
    if source.same ⟨"-"⟩ then
      let text := String.fromUTF8? (← (← IO.getStdin).readBinToEnd)
      return text.getD ""
    else return ""
  | _ => return ""

/-- The disk that a command line works on, and the root of its project. -/
def prepare (args : List String) (directory : Path) : IO (Disk × Path) := do
  let disk := (Shell.Utility.install .empty).makeDirectories World.temporaryDir
  let disk ← loadMarkers (disk.toOption.getD .empty) directory
  match Invocation.ofArgs args with
  | .error _ => return (disk, directory)
  | .ok i =>
    let start := (directory.join i.start).normalize
    let disk ← loadMarkers disk start
    let named := i.settings.toList ++ (match i.command with | .run source _ => [source] | _ => [])
    let disk ← (named.map fun p => (directory.join p).text).foldlM loadFile disk
    let w ← world disk directory
    let root := (Project.findRoot? w start).getD start
    return (← loadTree disk root.text, root)

/-- The known syntax trees of a project. -/
def parser (d : Disk) (root : Path) : Syntax.Parser :=
  let known := do Json.parse? (← (d.readText (root ++ treesFile)).toOption)
  Syntax.ParsedText.parser (Syntax.ParsedText.listOfJson (known.getD .null))

end Amend.Program

open Amend in
/-- Answers a command line. -/
def main (args : List String) : IO UInt32 := do
  let directory : Path := ⟨(← IO.currentDir).toString⟩
  let (disk, root) ← Program.prepare args directory
  let input ← Program.readInput args
  let w ← Program.world disk directory
  let (reply, after) := Reply.ofArgs (Program.parser disk root) Shell.launch args input w
  if let some output := reply.output then IO.println output.document
  if let some report := reply.report then
    if reply.code = 0 then IO.println report else IO.eprintln report
  Program.carryBack disk after.disk root
  return reply.code.toUInt32
