import Amend.Disk
import Amend.Timestamp
import Amend.Uid

/-!
# What a run works on

A run reads and changes a disk, reads a clock and draws identifiers, and its process remembers
which locks it holds and which snapshots it must keep. All of that is one value, a world, and an
action is a function on worlds that may fail; what it has done before it fails stays done.

The system may refuse any single operation on files: `trouble` tells in advance which of the
operations to come it refuses, and why. An operation that is refused changes nothing.
-/

namespace Amend

/-- The surroundings of a process and its memory. -/
structure World where
  disk : Disk
  /-- The working directory, an absolute path. -/
  directory : Path
  /-- The directories in which programs are looked for. -/
  programDirs : List Path := []
  /-- Milliseconds since some moment; it never goes back. -/
  now : Nat := 0
  /-- What the calendar clock shows at its first, second, third reading and so on. -/
  clock : Nat → Timestamp
  /-- How often the clock was read. -/
  readings : Nat := 0
  /-- The identifiers to draw. -/
  ids : Nat → Uid
  /-- How many identifiers were drawn. -/
  drawn : Nat := 0
  /-- What the system says to the operations to come; to all further ones it says nothing. -/
  trouble : List (Option SystemError) := []
  /-- The locks that this process holds. -/
  held : List Path := []
  /-- The snapshots that this process must not drop. -/
  pinned : List Uid := []

/-- An action that may fail and always leaves a world behind. -/
abbrev Act (ε : Type) : Type → Type := ExceptT ε (StateM World)

namespace Act

variable {ε ε' α : Type}

/-- The action of a function on worlds. -/
def ofFun (f : World → Except ε α × World) : Act ε α := f

/-- The result of an action and the world that it leaves. -/
def apply (a : Act ε α) (w : World) : Except ε α × World := a w

/-- The action with its failure put in other words. -/
def mapError (f : ε → ε') (a : Act ε α) : Act ε' α := ofFun fun w =>
  match a.apply w with
  | (.ok x, w) => (.ok x, w)
  | (.error e, w) => (.error (f e), w)

/-- The action with its outcome as a value. -/
def outcome (a : Act ε α) : Act ε' (Except ε α) := ofFun fun w =>
  match a.apply w with
  | (r, w) => (.ok r, w)

/-- Whether the action succeeds. -/
def succeeds (a : Act ε α) : Act ε' Bool := do return (← a.outcome).toOption.isSome

/-- The action with a given outcome. -/
def ofExcept (r : Except ε α) : Act ε α := ofFun fun w => (r, w)

/-- A value computed from the world. -/
def look (f : World → α) : Act ε α := ofFun fun w => (.ok (f w), w)

/-- An action that cannot fail. -/
def always (f : StateM World α) : Act ε α := ofFun fun w =>
  match f w with
  | (x, w) => (.ok x, w)

/-- The action with its outcome as a value, as one that cannot fail. -/
def settle (a : Act ε α) : StateM World (Except ε α) := a.apply

/-- A change of the world that cannot fail. -/
def change (f : World → World) : Act ε Unit := ofFun fun w => (.ok (), f w)

end Act

namespace World

/-- A path from the working directory. -/
def absolute (w : World) (p : Path) : Path := w.directory.join p

/-- Whether a path leads to an entry. -/
def pathExists (w : World) (p : Path) : Bool := w.disk.pathExists (w.absolute p)

/-- Whether a path leads to a regular file. -/
def isFile (w : World) (p : Path) : Bool := w.disk.isFile (w.absolute p)

/-- Whether a path leads to a directory. -/
def isDirectory (w : World) (p : Path) : Bool := w.disk.isDirectory (w.absolute p)

/-- What a path leads to. -/
def stat (w : World) (p : Path) : Except SystemError Entry := w.disk.stat (w.absolute p)

/-- The identity of a file: its path free of links if it exists, else the path resolved by its
text. -/
def identity (w : World) (p : Path) : Path :=
  match w.disk.canonical (w.absolute p) with
  | .ok q => if p.text = "" then (w.absolute p).normalize else q
  | .error _ => (w.absolute p).normalize

/-- The program of that name in the first directory that has one. -/
def program? (w : World) (name : String) : Option Path :=
  (w.programDirs.map (·.join ⟨name⟩)).find? fun p =>
    match w.disk.stat p with
    | .ok (.file _ mode _) => isExecutable mode
    | _ => false

/-! ## Operations on files -/

variable {ε α : Type}

/-- An operation that the system may refuse. -/
def operation (f : World → Except SystemError (α × World)) : Act SystemError α :=
  Act.ofFun fun w =>
    match w.trouble with
    | some e :: rest => (.error e, { w with trouble := rest })
    | saysNothing =>
      let w := { w with trouble := saysNothing.tail }
      match f w with
      | .ok (x, w) => (.ok x, w)
      | .error e => (.error e, w)

/-- An operation that changes the disk. -/
def diskOperation (f : World → Except SystemError Disk) : Act SystemError Unit :=
  operation fun w => (f w).map fun disk => ((), { w with disk })

/-- The bytes of a file. -/
def readBytes (p : Path) : Act SystemError ByteArray :=
  operation fun w => (w.disk.read (w.absolute p)).map (·, w)

/-- The text of a file. -/
def readText (p : Path) : Act SystemError String :=
  operation fun w => (w.disk.readText (w.absolute p)).map (·, w)

/-- Creates a directory and those above it. -/
def makeDirectories (p : Path) : Act SystemError Unit :=
  diskOperation fun w =>
    if p.text = "" then .ok w.disk else w.disk.makeDirectories (w.absolute p)

/-- Creates a file where nothing is yet. -/
def createNew (p : Path) (content : ByteArray) : Act SystemError Unit :=
  diskOperation fun w => w.disk.create (w.absolute p) content w.now

/-- Removes a file. -/
def removeFile (p : Path) : Act SystemError Unit :=
  diskOperation fun w => w.disk.remove (w.absolute p)

/-- Where temporary files go. -/
def temporaryDir : Path := ⟨"/tmp"⟩

/-- A name in the directory of temporary files that nothing has, with the least number. -/
def temporaryName (w : World) : Path :=
  let candidates := (List.range (w.disk.entries.length + 1)).map fun n =>
    temporaryDir ++ (".tmp" ++ toString n)
  (candidates.find? fun p => !w.pathExists p).getD temporaryDir

/-- Creates a directory for temporary files. -/
def makeTemporaryDirectory : Act SystemError Path :=
  operation fun w => do
    let dir := w.temporaryName
    return (dir, { w with disk := ← w.disk.makeDirectory dir })

/-- Removes a directory with all that it holds, as far as it is there. -/
def removeTree (p : Path) : Act ε Unit := Act.change fun w =>
  match w.disk.locate (w.absolute p) false with
  | .ok l => { w with disk := w.disk.prune l }
  | .error _ => w

/-! ## Clock and identifiers -/

/-- Reads the calendar clock. -/
def readClock : Act ε Timestamp := Act.ofFun fun w =>
  (.ok (w.clock w.readings), { w with readings := w.readings + 1 })

/-- Draws an identifier. -/
def drawId : Act ε Uid := Act.ofFun fun w => (.ok (w.ids w.drawn), { w with drawn := w.drawn + 1 })

/-- Lets time pass. -/
def sleep (ms : Nat) : Act ε Unit := Act.change fun w => { w with now := w.now + ms }

end World

/-! ## Writing in one step -/

/-- Why a file could not be written. -/
inductive WriteError where
  | makeDirectory (path : Path) (cause : SystemError)
  | write (path : Path) (cause : SystemError)
  | rename (path : Path) (cause : SystemError)
deriving DecidableEq

/-- The report of a failure. -/
def WriteError.message : WriteError → String
  | .makeDirectory path cause => "Cannot create directory " ++ path.text ++ ": " ++ cause.message
  | .write path cause => "Cannot write " ++ path.text ++ ": " ++ cause.message
  | .rename path cause =>
    "Cannot move temporary file over " ++ path.text ++ ": " ++ cause.message

/-- The permission bits of a file written in one step where none was. -/
def temporaryMode : Nat := 0o600

/-- The permission bits that a file keeps when it is written anew. -/
def World.keptMode (w : World) (p : Path) : Nat :=
  match w.stat p with
  | .ok (.file _ mode _) => mode
  | _ => temporaryMode

/-- Writes a file so that a reader sees the old bytes or the new ones: the bytes go to a new file
beside the target, which is then moved over it. The target keeps its permission bits. -/
def writeFile (target : Path) (content : ByteArray) : Act WriteError Unit := do
  match target.parent? with
  | none => throw (.write target .noParent)
  | some dir =>
    let dir := if dir.text = "" then ⟨"."⟩ else dir
    (World.makeDirectories dir).mapError (.makeDirectory dir)
    (World.operation fun w => .ok ((), w)).mapError (.write target)
    (World.diskOperation fun w =>
      w.disk.replace (w.absolute target) content (w.keptMode target) w.now).mapError (.rename target)

end Amend
