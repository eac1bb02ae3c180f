import Amend.Path

/-!
# Disks

A tree of files, directories and symbolic links as one value. Each entry is found under its
location, the list of names that leads to it from the root; the root itself is always there. A
path is turned into a location by following it name by name: `..` leads to the directory above
the one reached so far, and a link on the way is replaced by its target.

Writing, creating and removing change one location, so what another location holds stays the same.
-/

namespace Amend

/-- Why the system refuses an operation. -/
inductive SystemError where
  | notFound
  | alreadyExists
  | isDirectory
  | notDirectory
  | permissionDenied
  | notEmpty
  | nameTooLong
  | tooManyLinks
  | notExecutableFormat
  | busy
  | invalidArgument
  | notText
  | zeroInName
  | noParent
deriving DecidableEq, Inhabited

/-- The system's words. -/
def SystemError.words : SystemError → String
  | .notFound => "No such file or directory"
  | .alreadyExists => "File exists"
  | .isDirectory => "Is a directory"
  | .notDirectory => "Not a directory"
  | .permissionDenied => "Permission denied"
  | .notEmpty => "Directory not empty"
  | .nameTooLong => "File name too long"
  | .tooManyLinks => "Too many levels of symbolic links"
  | .notExecutableFormat => "Exec format error"
  | .busy => "Device or resource busy"
  | .invalidArgument => "Invalid argument"
  | .notText => "stream did not contain valid UTF-8"
  | .zeroInName => "file name contained an unexpected NUL byte"
  | .noParent => "target has no parent"

/-- The system's number for an error, if it has one. -/
def SystemError.number? : SystemError → Option Nat
  | .notFound => some 2
  | .alreadyExists => some 17
  | .isDirectory => some 21
  | .notDirectory => some 20
  | .permissionDenied => some 13
  | .notEmpty => some 39
  | .nameTooLong => some 36
  | .tooManyLinks => some 40
  | .notExecutableFormat => some 8
  | .busy => some 16
  | .invalidArgument => some 22
  | .notText | .zeroInName | .noParent => none

/-- The words with the number behind them. -/
def SystemError.message (e : SystemError) : String :=
  match e.number? with
  | some n => e.words ++ " (os error " ++ toString n ++ ")"
  | none => e.words

/-- The names that lead from the root to an entry. -/
abbrev Location := List String

/-- The absolute path of a location. -/
def Location.path (l : Location) : Path := .ofNames true l

/-- What a location holds. A file has its bytes, its permission bits and the time, in
milliseconds, of its last change. -/
inductive Entry where
  | file (content : ByteArray) (mode : Nat) (modified : Nat)
  | directory
  | link (target : Path)

instance : Inhabited Entry := ⟨.directory⟩

/-- Whether an entry is a directory. -/
def Entry.isDirectory : Entry → Bool
  | .directory => true
  | _ => false

/-- Whether an entry is a regular file. -/
def Entry.isFile : Entry → Bool
  | .file .. => true
  | _ => false

/-- The permission bits of a new file. -/
def defaultMode : Nat := 0o644

/-- Whether permission bits let nobody write. -/
def isReadOnly (mode : Nat) : Bool := mode &&& 0o222 = 0

/-- Whether permission bits let somebody run the file. -/
def isExecutable (mode : Nat) : Bool := mode &&& 0o111 ≠ 0

/-- The entries of a file system by their locations. -/
structure Disk where
  entries : List (Location × Entry) := []

namespace Disk

/-- The disk with only a root. -/
def empty : Disk := {}

/-- The entry at a location. -/
def at? (d : Disk) (l : Location) : Option Entry :=
  if l.isEmpty then some .directory else d.entries.lookup l

/-- The disk with a location cleared. -/
def erase (d : Disk) (l : Location) : Disk := ⟨d.entries.filter (·.1 ≠ l)⟩

/-- The disk without a location and all locations below it. -/
def prune (d : Disk) (l : Location) : Disk := ⟨d.entries.filter fun (m, _) => !l.isPrefixOf m⟩

/-- The disk with an entry put at a location. -/
def put (d : Disk) (l : Location) (e : Entry) : Disk := ⟨(l, e) :: (d.erase l).entries⟩

@[simp] theorem at?_erase_self (d : Disk) (l : Location) (h : l ≠ []) :
    (d.erase l).at? l = none := by
  obtain ⟨es⟩ := d
  have : l.isEmpty = false := by simpa using h
  simp only [at?, erase, this]
  induction es with
  | nil => rfl
  | cons e es ih =>
    obtain ⟨k, v⟩ := e
    by_cases hk : k = l
    · simpa [hk] using ih
    · have : (l == k) = false := by simpa using Ne.symm hk
      simpa [hk, Ne.symm hk, List.lookup_cons, this] using ih

theorem at?_erase_of_ne (d : Disk) {l m : Location} (h : m ≠ l) :
    (d.erase l).at? m = d.at? m := by
  obtain ⟨es⟩ := d
  simp only [at?, erase]
  split
  · rfl
  · induction es with
    | nil => rfl
    | cons e es ih =>
      obtain ⟨k, v⟩ := e
      by_cases hk : k = l
      · subst hk
        have : (m == k) = false := by simpa using h
        simpa [List.lookup_cons, this] using ih
      · simp only [List.filter_cons, decide_not, hk, decide_false, Bool.not_false, if_true,
          List.lookup_cons]
        simp only [decide_not] at ih
        rw [ih]

@[simp] theorem at?_put_self (d : Disk) (l : Location) (e : Entry) (h : l ≠ []) :
    (d.put l e).at? l = some e := by
  have : l.isEmpty = false := by simpa using h
  simp [at?, put, this]

theorem at?_put_of_ne (d : Disk) {l m : Location} (e : Entry) (h : m ≠ l) :
    (d.put l e).at? m = d.at? m := by
  rw [← at?_erase_of_ne d h]
  have : (m == l) = false := by simpa using h
  simp [at?, put, List.lookup_cons, this]

/-! ## Following a path -/

/-- The longest name in bytes. -/
def maxNameBytes : Nat := 255

/-- Follows components from a directory whose names are given last first. The last name need not
exist, and is followed as a link only if `followLast`. `follow` goes on behind a link, from the
directory that holds it. -/
def walkFrom (d : Disk) (followLast : Bool)
    (follow : List String → List Path.Component → Except SystemError Location)
    (done : List String) : List Path.Component → Except SystemError Location
  | [] => .ok done.reverse
  | .root :: rest => walkFrom d followLast follow [] rest
  | .current :: rest => walkFrom d followLast follow done rest
  | .parent :: rest => walkFrom d followLast follow done.tail rest
  | .normal name :: rest =>
    if name.utf8ByteSize > maxNameBytes then .error .nameTooLong
    else
      let here := (name :: done).reverse
      match d.at? here with
      | none => if rest.isEmpty then .ok here else .error .notFound
      | some .directory => walkFrom d followLast follow (name :: done) rest
      | some (.file ..) => if rest.isEmpty then .ok here else .error .notDirectory
      | some (.link target) =>
        if rest.isEmpty && !followLast then .ok here
        else follow done (target.components ++ rest)

/-- Follows components from a directory whose names are given last first. `links` is how many
links may still be replaced by their targets. -/
def walk (d : Disk) (followLast : Bool) :
    Nat → List String → List Path.Component → Except SystemError Location
  | 0 => walkFrom d followLast fun _ _ => .error .tooManyLinks
  | links + 1 => walkFrom d followLast (walk d followLast links)

/-- Whether a path ends in a slash or in a point, and so can only mean a directory. -/
def meansDirectory (p : Path) : Bool :=
  match p.text.toList.reverse with
  | '/' :: _ | '.' :: '/' :: _ => true
  | _ => false

/-- The location of an absolute path, which need not hold an entry but lies in a directory. -/
def locate (d : Disk) (p : Path) (followLast : Bool := true) : Except SystemError Location :=
  if p.text = "" then .error .notFound
  else if p.text.toList.contains '\x00' then .error .zeroInName
  else do
    let l ← d.walk (followLast || meansDirectory p) 40 [] p.components
    match d.at? l with
    | some (.file ..) => if meansDirectory p then .error .notDirectory else return l
    | _ => return l

/-- The entry that a path leads to. -/
def stat (d : Disk) (p : Path) : Except SystemError Entry := do
  match d.at? (← d.locate p) with
  | some e => return e
  | none => .error .notFound

/-- Whether a path leads to an entry. -/
def pathExists (d : Disk) (p : Path) : Bool := (d.stat p).toOption.isSome

/-- Whether a path leads to a regular file. -/
def isFile (d : Disk) (p : Path) : Bool := (d.stat p).toOption.any (·.isFile)

/-- Whether a path leads to a directory. -/
def isDirectory (d : Disk) (p : Path) : Bool := (d.stat p).toOption.any (·.isDirectory)

/-- The path of the entry itself, free of links. -/
def canonical (d : Disk) (p : Path) : Except SystemError Path := do
  let l ← d.locate p
  match d.at? l with
  | some _ => return l.path
  | none => .error .notFound

/-- The names in a directory, sorted. -/
def names (d : Disk) (l : Location) : List String :=
  let below := d.entries.filterMap fun (m, _) =>
    if m.dropLast = l then m.getLast? else none
  below.mergeSort fun a b => a ≤ b

/-! ## Reading and writing -/

/-- The bytes of a file. -/
def read (d : Disk) (p : Path) : Except SystemError ByteArray := do
  match ← d.stat p with
  | .file content _ _ => return content
  | _ => .error .isDirectory

/-- The text of a file. -/
def readText (d : Disk) (p : Path) : Except SystemError String := do
  match String.fromUTF8? (← d.read p) with
  | some s => return s
  | none => .error .notText

/-- The disk with a file written in place: what a link leads to is written, and the permission
bits of an existing file stay. -/
def write (d : Disk) (p : Path) (content : ByteArray) (now : Nat) (mode : Nat := defaultMode) :
    Except SystemError Disk := do
  let l ← d.locate p
  match d.at? l with
  | some (.file _ mode _) => return d.put l (.file content mode now)
  | some _ => .error .isDirectory
  | none => return d.put l (.file content mode now)

/-- Whether the last name of a path is `.` or `..`, which nothing can be moved to. -/
def endsInPoints (p : Path) : Bool :=
  match (p.text.toList.reverse.dropWhile (· == '/')).takeWhile (· != '/') with
  | ['.'] | ['.', '.'] => true
  | _ => false

/-- The disk with a finished file moved to a path: an existing file or link there is replaced. A
path that can only mean a directory is refused. -/
def replace (d : Disk) (p : Path) (content : ByteArray) (mode now : Nat) :
    Except SystemError Disk := do
  if p.text.toList.contains '\x00' then .error .invalidArgument
  let l ← d.locate p false
  match d.at? l with
  | none =>
    if endsInPoints p then .error .notFound
    else if meansDirectory p then .error .notDirectory
    else return d.put l (.file content mode now)
  | some .directory =>
    if endsInPoints p then .error .busy
    else if meansDirectory p then .error .notDirectory
    else .error .isDirectory
  | some _ => return d.put l (.file content mode now)

/-- The disk with a new file, refused where anything is already. -/
def create (d : Disk) (p : Path) (content : ByteArray) (now : Nat) : Except SystemError Disk := do
  let l ← d.locate p false
  match d.at? l with
  | some _ => .error .alreadyExists
  | none => return d.put l (.file content defaultMode now)

/-- The disk without a file or link. -/
def remove (d : Disk) (p : Path) : Except SystemError Disk := do
  let l ← d.locate p false
  match d.at? l with
  | none => .error .notFound
  | some .directory => .error .isDirectory
  | some _ => return d.erase l

/-- The disk with one more directory. -/
def makeDirectory (d : Disk) (p : Path) : Except SystemError Disk := do
  let l ← d.locate p false
  match d.at? l with
  | some _ => .error .alreadyExists
  | none => return d.put l .directory

/-- The disk with a directory and those above it, created from the top as far as they are missing.
-/
def makeDirectories (d : Disk) (p : Path) : Except SystemError Disk :=
  go p.components.length p
where
  /-- Creates a path and at most `n` directories above it. -/
  go (n : Nat) (p : Path) : Except SystemError Disk :=
    if p.text = "" then .ok d
    else
      match d.makeDirectory p with
      | .ok d => .ok d
      | .error .notFound =>
        match n, p.parent? with
        | n + 1, some q =>
          match go n q with
          | .ok d => d.makeDirectory p
          | .error e => .error e
        | _, _ => .error .notFound
      | .error e => if d.isDirectory p then .ok d else .error e

/-- The disk with a file put where a path leads, and the directories above it created. What
stands in the way of either is left as it is. -/
def install (d : Disk) (p : Path) (content : ByteArray) (mode now : Nat) : Disk :=
  let d := (d.makeDirectories (p.parent?.getD p)).toOption.getD d
  match d.write p content now, d.locate p with
  | .ok d, .ok l => d.put l (.file content mode now)
  | _, _ => d

end Disk

end Amend
