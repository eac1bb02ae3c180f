import Amend.Build.Process
import Amend.Shell.Arithmetic
import Amend.Shell.Pattern
import Amend.World

/-!
# What a script runs on

A process and the shells in it, one inside the other, with their variables, traps and open files,
on a clock of their own. Time passes only while something sleeps or waits, or when a script has run
for so many steps that it is taken for endless. Under a time policy the whole group is asked to end
at one moment and killed at a later one. A command in the background is run at once on a clock that
is put back afterwards; its output carries the times at which it was written.
-/

namespace Amend.Shell

/-- Where an open file leads. -/
inductive Stream where
  /-- The output of the whole process. -/
  | terminal
  | discard
  | buffer (n : Nat)
  | file (l : Location)

/-- A piece of output, and which job wrote it when. -/
structure Chunk where
  time : Nat
  job : Nat
  bytes : ByteArray

/-- Output in memory, newest first, of which some bytes are read. It is closed at a time. -/
structure Buffer where
  chunks : List Chunk := []
  taken : Nat := 0
  closedAt : Nat := 0

/-- The bytes of chunks, given newest first. -/
def bytesOf (chunks : List Chunk) : ByteArray :=
  chunks.foldr (fun c acc => acc ++ c.bytes) ByteArray.empty

/-- The bytes that are not read yet. -/
def Buffer.rest (b : Buffer) : ByteArray :=
  let all := bytesOf b.chunks
  all.extract b.taken all.size

/-- When the first `n` bytes were all there. -/
def Buffer.timeOf (b : Buffer) (n : Nat) : Nat :=
  go n b.chunks.reverse
where
  /-- When the first `n` bytes of chunks, given oldest first, were all there. -/
  go (n : Nat) : List Chunk → Nat
    | [] => b.closedAt
    | c :: cs => if n ≤ c.bytes.size then c.time else go (n - c.bytes.size) cs

/-- A command that was put in the background. -/
structure Job where
  pid : Nat
  endsAt : Nat
  /-- How it ended: with a status, or by a signal. -/
  how : Except Nat Nat
  ignoresTerm : Bool

/-- One shell. -/
structure Frame where
  pid : Nat
  /-- The number that the shell gives out as its own. -/
  shownPid : Nat
  name : String
  arguments : List String := []
  bindings : Arithmetic.Variables := []
  exported : List String := []
  functions : List (String × Script) := []
  /-- Actions on signals; an empty one ignores the signal, 0 stands for the end of the shell. -/
  traps : List (Nat × String) := []
  /-- Signals that came and whose action is due. -/
  pending : List Nat := []
  status : Nat := 0
  /-- The status of the last command substitution of the current command. -/
  substituted : Option Nat := none
  lastJob : Option Nat := none
  streams : List (Nat × Stream)
  directory : Path
  line : Nat := 1
  stopOnFailure : Bool := false
  failOnUnset : Bool := false
  /-- Whether each command is shown before it runs. -/
  trace : Bool := false
  /-- Variables to put back at the end of the function that is run. -/
  saved : List (String × Option String) := []
  /-- How many conditions stand around the command that is run. -/
  tested : Nat := 0

/-- All that a run has to do with. -/
structure Machine where
  frame : Frame
  /-- The shells around the current one, innermost first. -/
  outer : List Frame := []
  world : World
  time : Nat := 0
  termAt : Nat
  killAt : Nat
  /-- Whether the group was asked to end. -/
  termSent : Bool := false
  /-- Whether the clock is the one that the time policy watches. -/
  live : Bool := true
  steps : Nat := 0
  buffers : Array Buffer := #[]
  /-- Output, newest first. -/
  output : List Chunk := []
  jobs : List Job := []
  nextPid : Nat := 4243
  job : Nat := 0

/-- Why the normal course of commands is left. -/
inductive Leave where
  | breakLoop (n : Nat)
  | continueLoop (n : Nat)
  | returned
  | exited
  /-- The shell of that number was ended by a signal. -/
  | died (pid signal : Nat)

/-- A run that may be left early. -/
abbrev Run := ExceptT Leave (StateM Machine)

/-- The signals by their names. -/
def signals : List (String × Nat) :=
  [("EXIT", 0), ("HUP", 1), ("INT", 2), ("QUIT", 3), ("ILL", 4), ("TRAP", 5), ("ABRT", 6),
   ("BUS", 7), ("FPE", 8), ("KILL", 9), ("USR1", 10), ("SEGV", 11), ("USR2", 12), ("PIPE", 13),
   ("ALRM", 14), ("TERM", 15), ("STKFLT", 16), ("CHLD", 17), ("CONT", 18), ("STOP", 19),
   ("TSTP", 20), ("TTIN", 21), ("TTOU", 22), ("URG", 23), ("XCPU", 24), ("XFSZ", 25),
   ("VTALRM", 26), ("PROF", 27), ("WINCH", 28), ("POLL", 29), ("PWR", 30), ("SYS", 31)]

/-- The signal to end. -/
def termSignal : Nat := 15

/-- The signal that kills. -/
def killSignal : Nat := 9

/-- Signals that do nothing by themselves. -/
def harmless : List Nat := [17, 18, 23, 28]

/-- Signals that stop a process. -/
def stopping : List Nat := [19, 20, 21, 22]

/-- What is said of a command that a signal ended. -/
def signalWords (n : Nat) : String :=
  ([(1, "Hangup"), (3, "Quit"), (4, "Illegal instruction"), (5, "Trace/breakpoint trap"),
    (6, "Aborted"), (7, "Bus error"), (8, "Floating point exception"), (9, "Killed"),
    (10, "User defined signal 1"), (11, "Segmentation fault"), (12, "User defined signal 2"),
    (14, "Alarm clock"), (15, "Terminated"), (31, "Bad system call")].lookup n).getD
    ("Signal " ++ toString n)

namespace Frame

/-- The value of a variable. -/
def value? (f : Frame) (name : String) : Option String := f.bindings.lookup name

/-- The shell with a variable set. -/
def assign (f : Frame) (name value : String) : Frame :=
  { f with bindings := (name, value) :: f.bindings.filter (·.1 != name) }

/-- The shell with a variable as it was before. -/
def putBack (f : Frame) (name : String) (value : Option String) : Frame :=
  { f with bindings :=
      (value.toList.map fun v => (name, v)) ++ f.bindings.filter (·.1 != name) }

/-- Whether a signal is ignored. -/
def ignores (f : Frame) (signal : Nat) : Bool := f.traps.lookup signal == some ""

/-- Whether a signal has its usual effect. -/
def isDefault (f : Frame) (signal : Nat) : Bool := (f.traps.lookup signal).isNone

/-- The shell with a signal noted, if there is an action on it. -/
def note (f : Frame) (signal : Nat) : Frame :=
  if f.isDefault signal || f.ignores signal then f else { f with pending := f.pending ++ [signal] }

/-- The traps of a shell inside this one: what was ignored stays ignored. -/
def inheritedTraps (f : Frame) : List (Nat × String) := f.traps.filter (·.2 == "")

end Frame

namespace Run

/-- A value computed from the machine. -/
def look {α : Type} (f : Machine → α) : Run α := return f (← get)

/-- The current shell. -/
def frame : Run Frame := look (·.frame)

/-- Changes the current shell. -/
def changeFrame (f : Frame → Frame) : Run Unit := modify fun m => { m with frame := f m.frame }

/-- Sets the status of the last command. -/
def setStatus (n : Nat) : Run Unit := changeFrame fun f => { f with status := n }

/-- A path from the current directory. -/
def absolute (p : String) : Run Path := return (← frame).directory.join ⟨p⟩

/-- The disk. -/
def disk : Run Disk := look (·.world.disk)

/-- The time for which files are marked as changed. -/
def now : Run Nat := look fun m => m.world.now + m.time

/-- Changes the disk, or tells why not. -/
def changeDisk (f : Disk → Nat → Except SystemError Disk) : Run (Except SystemError Unit) := do
  match f (← disk) (← now) with
  | .ok d =>
    modify fun m => { m with world := { m.world with disk := d } }
    return .ok ()
  | .error e => return .error e

/-! ## Output and input -/

/-- Appends to a file. -/
def appendTo (l : Location) (bytes : ByteArray) : Run Unit := do
  let t ← now
  modify fun m =>
    match m.world.disk.at? l with
    | some (.file content mode _) =>
      let d := m.world.disk.put l (.file (content ++ bytes) mode t)
      { m with world := { m.world with disk := d } }
    | _ => m

/-- Writes to an open file. -/
def write (number : Nat) (bytes : ByteArray) : Run Unit := do
  if bytes.isEmpty then return
  match (← frame).streams.lookup number with
  | some .terminal =>
    modify fun m => { m with output := ⟨m.time, m.job, bytes⟩ :: m.output }
  | some (.buffer n) =>
    modify fun m => { m with
      buffers := m.buffers.modify n fun b =>
        { b with chunks := ⟨m.time, m.job, bytes⟩ :: b.chunks } }
  | some (.file l) => appendTo l bytes
  | some .discard | none => return

/-- Writes text to the usual output. -/
def say (s : String) : Run Unit := write 1 s.toUTF8

/-- Writes a line to the output of errors. -/
def complain (s : String) : Run Unit := write 2 (s ++ "\n").toUTF8

/-- Writes a message of the shell, with its name and line. -/
def report (s : String) : Run Unit := do
  let f ← frame
  complain (f.name ++ ": " ++ toString f.line ++ ": " ++ s)

/-- A new buffer with bytes in it. -/
def newBuffer (bytes : ByteArray) : Run Nat := do
  let m ← get
  set { m with buffers := m.buffers.push { chunks := [⟨m.time, m.job, bytes⟩], closedAt := m.time } }
  return m.buffers.size

/-! ## Time -/

/-- The output without what a job wrote after a time. -/
def truncated (output : List Chunk) (pid time : Nat) : List Chunk :=
  output.filter fun c => c.job != pid || c.time ≤ time

/-- Ends a job at a time, if it runs so long. -/
def endJob (pid time signal : Nat) : Run Unit := modify fun m =>
  { m with
    output := truncated m.output pid time
    jobs := m.jobs.map fun j =>
      if j.pid = pid && time < j.endsAt then { j with endsAt := time, how := .error signal } else j }

/-- The shells from the outermost to the current one. -/
def chain (m : Machine) : List Frame := (m.frame :: m.outer).reverse

/-- Asks the whole group to end. Shells with an action on the signal note it; the outermost shell
without a trap dies with all inside it. -/
def askToEnd : Run Unit := do
  modify fun m => { m with
    termSent := true, time := max m.time m.termAt
    frame := m.frame.note termSignal, outer := m.outer.map (·.note termSignal) }
  let m ← get
  for j in m.jobs do
    if !j.ignoresTerm then endJob j.pid m.time termSignal
  match (chain m).find? (·.isDefault termSignal) with
  | some f => throw (.died f.pid termSignal)
  | none => return

/-- Kills the whole group. -/
def killAll : Run Unit := do
  modify fun m => { m with time := max m.time m.killAt }
  let m ← get
  for j in m.jobs do
    endJob j.pid m.time killSignal
  throw (.died (((chain m).head?.map (·.pid)).getD 0) killSignal)

/-- Stops for good: nothing ends a stopped process but being killed. -/
def suspend : Run Unit := do
  modify fun m => { m with termSent := true }
  killAll

/-- Lets the clock come to a time. Tells whether it did: not if the shell has an action on the
signal to end and that signal comes before. -/
def passUntil (t : Nat) : Run Bool := do
  let m ← get
  if !m.live then
    modify fun m => { m with time := max m.time t }
    return true
  if !m.termSent && m.termAt ≤ t then
    askToEnd
    if !(← frame).ignores termSignal then return false
  let m ← get
  if m.termSent && m.killAt ≤ t then killAll
  modify fun m => { m with time := max m.time t }
  return true

/-- After how many steps a script is taken for endless. -/
def stepLimit : Nat := 1000000

/-- A time that never comes. -/
def never : Nat := 1000000000000000

/-- Counts a step. A script that takes too many runs until the next signal. -/
def step : Run Unit := do
  modify fun m => { m with steps := m.steps + 1 }
  let m ← get
  if m.steps > stepLimit then
    modify fun m => { m with steps := 0 }
    if m.live then
      let _ ← passUntil (if m.termSent then m.killAt else m.termAt)
    else
      modify fun m => { m with time := never }
      throw (.died m.frame.pid killSignal)

/-- Marks bytes of a buffer as read. -/
def take (n count : Nat) : Run Unit := modify fun m =>
  { m with buffers := m.buffers.modify n fun b => { b with taken := b.taken + count } }

/-- The buffer that the input comes from. -/
def inputBuffer? : Run (Option (Nat × Buffer)) := do
  match (← frame).streams.lookup 0 with
  | some (.buffer n) => return some (n, (← get).buffers.getD n {})
  | _ => return none

/-- All bytes that are left in the input, once it is closed. -/
def readAll : Run ByteArray := do
  match ← inputBuffer? with
  | some (n, b) =>
    let _ ← passUntil b.closedAt
    take n b.rest.size
    return b.rest
  | none => return .empty

/-- Hands on the input as it comes. -/
def copyInput (use : ByteArray → Run Unit) : Run Unit := do
  match ← inputBuffer? with
  | some (n, b) =>
    let mut skip := b.taken
    for c in b.chunks.reverse do
      let bytes := c.bytes.extract skip c.bytes.size
      skip := skip - c.bytes.size
      if !bytes.isEmpty then
        let _ ← passUntil c.time
        use bytes
    let _ ← passUntil b.closedAt
    take n b.rest.size
  | none => return

/-- The next line of the input without its end, and whether it has one. -/
def readLine : Run (ByteArray × Bool) := do
  match ← inputBuffer? with
  | some (n, b) =>
    let rest := b.rest.toList
    let line := rest.takeWhile (· != 10)
    let ended := line.length < rest.length
    let count := line.length + if ended then 1 else 0
    let _ ← passUntil (if ended then b.timeOf (b.taken + count) else b.closedAt)
    take n count
    return (⟨line.toArray⟩, ended)
  | none => return (.empty, false)

/-! ## Shells inside shells -/

/-- Runs something with a changed copy of the current shell, and tells how it ended: normally with
a status, or by a signal. What ends a shell around this one is passed on. -/
def inside (change : Frame → Nat → Frame) (body : Run Unit) : Run (Except Nat Nat) := do
  let m ← get
  let pid := m.nextPid
  set { m with frame := change { m.frame with pid, pending := [] } pid
               outer := m.frame :: m.outer, nextPid := pid + 1 }
  let result ← (fun s => match body s with
    | (r, s) => (.ok r, s) : Run (Except Leave Unit))
  let inner ← frame
  modify fun m =>
    match m.outer with
    | f :: outer => { m with frame := f, outer }
    | [] => m
  match result with
  | .error (.died p signal) => if p = pid then return .error signal else throw (.died p signal)
  | _ => return .ok inner.status

/-- The status of a command that ended so. -/
def statusOf (how : Except Nat Nat) : Nat :=
  match how with
  | .ok status => status
  | .error signal => 128 + signal

/-- Reports that a signal ended a command, unless the user or a reader that is gone did. -/
def tellEnd (how : Except Nat Nat) : Run Unit := do
  match how with
  | .ok _ => return
  | .error signal => if signal != 2 && signal != 13 then complain (signalWords signal)

/-- The status of a command that ended so; what a signal ended is reported. -/
def settle (how : Except Nat Nat) : Run Nat := do
  tellEnd how
  return statusOf how

end Run

end Amend.Shell
