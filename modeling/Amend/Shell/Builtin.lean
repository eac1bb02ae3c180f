import Amend.Shell.Utility

/-!
# Commands of the shell itself

Commands that change the shell or that it carries out without a program, as far as they run no
other commands.
-/

namespace Amend.Shell.Builtin

/-! ## Tests -/

/-- A test that cannot be made. -/
inductive Fault where
  | badNumber (text : String)
  | unexpected (text : String)
  | missing (text : String)
  | noOperand (text : String)

/-- The report of a fault. -/
def Fault.message : Fault → String
  | .badNumber text => "Illegal number: " ++ text
  | .unexpected text => text ++ ": unexpected operator"
  | .missing text => "missing " ++ text
  | .noOperand text => text ++ ": argument expected"

/-- The entry at a path, a link followed or not. -/
def entryAt (w : World) (dir : Path) (p : String) (follow : Bool) : Option Entry :=
  match w.disk.locate (dir.join ⟨p⟩) follow with
  | .ok l => w.disk.at? l
  | .error _ => none

/-- Tests of one operand. -/
def unary? (w : World) (dir : Path) (o : String) : Option (String → Bool) :=
  let entry := (entryAt w dir · true)
  match o with
  | "-n" => some (· != "")
  | "-z" => some (· == "")
  | "-e" => some fun p => (entry p).isSome
  | "-f" => some fun p => (entry p).any (·.isFile)
  | "-d" => some fun p => (entry p).any (·.isDirectory)
  | "-r" | "-w" => some fun p => (entry p).isSome
  | "-x" => some fun p => match entry p with
    | some (.file _ mode _) => isExecutable mode
    | some _ => true
    | none => false
  | "-s" => some fun p => match entry p with
    | some (.file content _ _) => !content.isEmpty
    | some _ => true
    | none => false
  | "-h" | "-L" => some fun p => match entryAt w dir p false with
    | some (.link _) => true
    | _ => false
  | "-t" | "-b" | "-c" | "-p" | "-S" | "-u" | "-g" | "-k" => some fun _ => false
  | "-O" | "-G" => some fun p => (entry p).isSome
  | _ => none

/-- The number that an operand writes. -/
def operand (s : String) : Except Fault Int :=
  match Arithmetic.numberTo? 10 ((s.toList.dropWhile (· == ' ')).dropWhile (· == '-')) with
  | some n => .ok (if (s.toList.dropWhile (· == ' ')).head? == some '-' then -n else n)
  | none => .error (.badNumber s)

/-- When a file was last changed. -/
def modifiedAt (w : World) (dir : Path) (p : String) : Nat :=
  match entryAt w dir p true with
  | some (.file _ _ modified) => modified + 1
  | _ => 0

/-- Tests of two operands. -/
def binary? (w : World) (dir : Path) (o : String) : Option (String → String → Except Fault Bool) :=
  let compare (f : Int → Int → Bool) (a b : String) : Except Fault Bool := do
    return f (← operand a) (← operand b)
  match o with
  | "=" | "==" => some fun a b => .ok (a == b)
  | "!=" => some fun a b => .ok (a != b)
  | "<" => some fun a b => .ok (a < b)
  | ">" => some fun a b => .ok (b < a)
  | "-eq" => some (compare (· == ·))
  | "-ne" => some (compare (· != ·))
  | "-lt" => some (compare (· < ·))
  | "-le" => some (compare (· ≤ ·))
  | "-gt" => some (compare (· > ·))
  | "-ge" => some (compare (· ≥ ·))
  | "-nt" => some fun a b => .ok (modifiedAt w dir a > modifiedAt w dir b)
  | "-ot" => some fun a b => .ok (modifiedAt w dir a < modifiedAt w dir b)
  | _ => none

mutual

/-- Alternatives of tests, and what follows them. -/
def anyOf (w : World) (dir : Path) : Nat → List String → Except Fault (Bool × List String)
  | 0, args => .ok (false, args)
  | fuel + 1, args => do
    let (first, rest) ← allOf w dir fuel args
    match rest with
    | "-o" :: rest =>
      let (second, rest) ← anyOf w dir fuel rest
      return (first || second, rest)
    | _ => return (first, rest)

/-- Tests that must all hold. -/
def allOf (w : World) (dir : Path) : Nat → List String → Except Fault (Bool × List String)
  | 0, args => .ok (false, args)
  | fuel + 1, args => do
    let (first, rest) ← one w dir fuel args
    match rest with
    | "-a" :: rest =>
      let (second, rest) ← allOf w dir fuel rest
      return (first && second, rest)
    | _ => return (first, rest)

/-- One test. -/
def one (w : World) (dir : Path) : Nat → List String → Except Fault (Bool × List String)
  | 0, args => .ok (false, args)
  | fuel + 1, args => do
    match args with
    | [] => return (false, [])
    | a :: o :: b :: rest =>
      match binary? w dir o with
      | some f => return (← f a b, rest)
      | none => simple w dir fuel args
    | [a, o] =>
      if (binary? w dir o).isSome then throw (.noOperand o)
      else if a == "!" || (unary? w dir a).isSome then simple w dir fuel args
      else throw (.unexpected a)
    | args => simple w dir fuel args

/-- A negation, a test in brackets, a test of one operand or a text that must not be empty. -/
def simple (w : World) (dir : Path) : Nat → List String → Except Fault (Bool × List String)
  | 0, args => .ok (false, args)
  | fuel + 1, args => do
    match args with
    | [] => return (false, [])
    | [a] => return (a != "", [])
    | "!" :: rest =>
      let (value, rest) ← one w dir fuel rest
      return (!value, rest)
    | "(" :: rest =>
      let (value, rest) ← anyOf w dir fuel rest
      match rest with
      | ")" :: rest => return (value, rest)
      | _ => throw (.missing ")")
    | o :: a :: rest =>
      match unary? w dir o with
      | some f => return (f a, rest)
      | none => return (o != "", a :: rest)

end

/-- The value of a test. -/
def evaluate (w : World) (dir : Path) (args : List String) : Except Fault Bool := do
  let (value, rest) ← anyOf w dir (4 * args.length + 8) args
  match rest with
  | [] => return value
  | r :: _ => throw (.unexpected r)

/-- Makes a test, under the name by which it was called. -/
def test (name : String) : Utility := fun args => do
  let m ← get
  let failWith (e : Fault) : Run Nat := do
    Run.report (name ++ ": " ++ e.message)
    return 2
  let inner : Except Fault (List String) :=
    if name == "[" then
      if args.getLast? == some "]" then .ok args.dropLast else .error (.missing "]")
    else .ok args
  match inner with
  | .error e => failWith e
  | .ok args =>
    match evaluate m.world m.frame.directory args with
    | .ok value => return if value then 0 else 1
    | .error e => failWith e

/-! ## Output and input -/

def echo : Utility := fun args => do
  let (args, line) : List String × Bool := match args with
    | "-n" :: rest => (rest, false)
    | args => (args, true)
  let text := " ".intercalate args
  let (bytes, ended) := Format.unescape .behindZero false (text.length + 1) text.toList
  Run.write 1 ⟨(bytes ++ if ended || !line then [] else [10]).toArray⟩
  return 0

def printf : Utility := fun args => do
  let args := if args.head? == some "--" then args.drop 1 else args
  match args with
  | [] =>
    Run.report "printf: usage: printf format [arg ...]"
    return 2
  | format :: rest =>
    let r := Format.printf false format rest
    for f in r.faults do Run.report ("printf: " ++ f ++ ": expected numeric value")
    match r.badDirective with
    | some d =>
      Run.report ("printf: %" ++ d ++ ": invalid directive")
      Run.write 1 ⟨r.output.toArray⟩
      return 2
    | none =>
      Run.write 1 ⟨r.output.toArray⟩
      return if r.faults.isEmpty then 0 else 1

/-- The characters that separate fields. -/
def separators (f : Frame) : List Char := ((f.value? "IFS").getD " \t\n").toList

/-- The fields of a line for some names: the last name takes the rest. -/
def fieldsOf (seps : List Char) : Nat → List Char → List (List Char)
  | 0, _ => []
  | count + 1, cs =>
    let blank (c : Char) : Bool := seps.contains c && (c == ' ' || c == '\t' || c == '\n')
    let cs := cs.dropWhile blank
    if count = 0 then [(cs.reverse.dropWhile blank).reverse]
    else
      let field := cs.takeWhile (!seps.contains ·)
      let rest := (cs.drop field.length).dropWhile blank
      let rest := if (cs.drop field.length).head?.any blank then rest else rest.drop 1
      field :: fieldsOf seps count rest

def read : Utility := fun args => do
  let o := Utility.parse "pt" args
  let (line, ended) ← Run.readLine
  let text := (Text.decodeLossy line).toList
  let text := if o.has 'r' then text else text.filter (· != '\\')
  let f ← Run.frame
  let fields := fieldsOf (separators f) o.operands.length text
  for (name, i) in o.operands.zipIdx do
    Run.changeFrame (·.assign name (.ofList (fields.getD i [])))
  return if ended then 0 else 1

/-! ## The state of the shell -/

def cd : Utility := fun args => do
  let f ← Run.frame
  let target := match args.filter (fun a => a != "-P" && a != "-L" && a != "--") with
    | "-" :: _ => (f.value? "OLDPWD").getD f.directory.text
    | t :: _ => t
    | [] => (f.value? "HOME").getD "/root"
  let path := (f.directory.join ⟨target⟩).normalize
  if target != "" && (← Run.disk).isDirectory path then
    Run.changeFrame fun f =>
      { (f.assign "OLDPWD" f.directory.text).assign "PWD" path.text with directory := path }
    if args == ["-"] then Run.say (path.text ++ "\n")
    return 0
  else
    Run.report ("cd: can't cd to " ++ target)
    return 2

def pwd : Utility := fun _ => do
  Run.say ((← Run.frame).directory.text ++ "\n")
  return 0

/-- The name and the value of an assignment among arguments. -/
def assignmentOf (a : String) : String × Option String :=
  let name := String.ofList (a.toList.takeWhile (· != '='))
  (name, if name.length < a.length then some (.ofList (a.toList.drop (name.length + 1))) else none)

/-- Sets variables, and marks them as ones that programs see if so wanted. -/
def declare (forPrograms : Bool) : Utility := fun args => do
  for a in args.filter (!·.startsWith "-") do
    let (name, value) := assignmentOf a
    match value with
    | some v => Run.changeFrame (·.assign name v)
    | none => pure ()
    if forPrograms then
      Run.changeFrame fun f =>
        if f.exported.contains name then f else { f with exported := f.exported ++ [name] }
  return 0

/-- Sets variables for as long as the current function runs. -/
def localVariables : Utility := fun args => do
  Run.changeFrame fun f =>
    { f with saved := (args.map fun a =>
        let name := (assignmentOf a).1
        (name, f.value? name)) ++ f.saved }
  declare false args

def unset : Utility := fun args => do
  let o := Utility.parse "" args
  for name in o.operands do
    Run.changeFrame fun f =>
      if o.has 'f' then { f with functions := f.functions.filter (·.1 != name) }
      else { f with bindings := f.bindings.filter (·.1 != name)
                    exported := f.exported.filter (· != name) }
  return 0

/-- The shell with an option switched. -/
def switch (f : Frame) (on : Bool) (c : Char) : Frame :=
  match c with
  | 'e' => { f with stopOnFailure := on }
  | 'u' => { f with failOnUnset := on }
  | 'x' => { f with trace := on }
  | _ => f

/-- The shell after the arguments of `set`. -/
def setOptions : Nat → Frame → List String → Frame
  | 0, f, _ => f
  | fuel + 1, f, args =>
    match args with
    | [] => f
    | "--" :: rest => { f with arguments := rest }
    | "-o" :: name :: rest | "+o" :: name :: rest =>
      let on := args.head? == some "-o"
      let f := if name == "errexit" then switch f on 'e'
        else if name == "nounset" then switch f on 'u'
        else if name == "xtrace" then switch f on 'x' else f
      setOptions fuel f rest
    | a :: rest =>
      match a.toList with
      | '-' :: cs@(_ :: _) => setOptions fuel (cs.foldl (switch · true) f) rest
      | '+' :: cs@(_ :: _) => setOptions fuel (cs.foldl (switch · false) f) rest
      | _ => { f with arguments := args }

def setCommand : Utility := fun args => do
  Run.changeFrame fun f => setOptions (args.length + 1) f args
  return 0

def shift : Utility := fun args => do
  if args.head?.any (·.toNat?.isNone) then
    Run.report ("shift: Illegal number: " ++ args.headD "")
    Run.setStatus 2
    throw .exited
  let n := ((args.head?).bind String.toNat?).getD 1
  if n > (← Run.frame).arguments.length then
    Run.report "shift: can't shift that many"
    Run.setStatus 2
    throw .exited
  Run.changeFrame fun f => { f with arguments := f.arguments.drop n }
  return 0

/-- The number of a signal by its number or name. -/
def signalOf? (s : String) : Option Nat :=
  match s.toNat? with
  | some n => if n < 65 then some n else none
  | none =>
    let name := s.toUpper
    signals.lookup (if name.startsWith "SIG" then (name.drop 3).toString else name)

def trap : Utility := fun args => do
  match (if args.head? == some "--" then args.drop 1 else args) with
  | [] => return 0
  | action :: names =>
    let (action, names) : Option String × List String :=
      if action == "-" then (none, names)
      else if names.isEmpty then (none, [action])
      else (some action, names)
    let mut status := 0
    for name in names do
      match signalOf? name with
      | none =>
        Run.report ("trap: " ++ name ++ ": bad trap")
        status := 1
      | some n =>
        Run.changeFrame fun f =>
          { f with traps := (action.toList.map fun a => (n, a)) ++ f.traps.filter (·.1 != n) }
    return status

/-! ## Signals and jobs -/

/-- Sends a signal to one of the shells or to a job. -/
def send (pid signal : Nat) : Run Nat := do
  let m ← get
  let shells := m.frame :: m.outer
  match shells.find? (·.pid = pid) with
  | some f =>
    if signal = 0 || harmless.contains signal then return 0
    if stopping.contains signal then
      Run.suspend
      return 0
    if signal = killSignal || f.isDefault signal then throw (.died pid signal)
    modify fun m => { m with
      frame := if m.frame.pid = pid then m.frame.note signal else m.frame
      outer := m.outer.map fun g => if g.pid = pid then g.note signal else g }
    return 0
  | none =>
    match m.jobs.find? (·.pid = pid) with
    | some j =>
      if j.endsAt < m.time then
        Run.report "kill: No such process\n"
        return 1
      if signal != 0 && !harmless.contains signal then Run.endJob pid m.time signal
      return 0
    | none =>
      Run.report "kill: No such process\n"
      return 1

def kill : Utility := fun args => do
  let (signal, targets) : Option Nat × List String := match args with
    | "-s" :: name :: rest => (signalOf? name, rest)
    | "--" :: rest => (some termSignal, rest)
    | "-l" :: _ => (some termSignal, [])
    | a :: rest =>
      match a.toList with
      | '-' :: cs@(_ :: _) =>
        (signalOf? (.ofList cs), if rest.head? == some "--" then rest.drop 1 else rest)
      | _ => (some termSignal, args)
    | [] => (some termSignal, [])
  match signal with
  | none =>
    let named := (args.headD "").toList.dropWhile (· == '-')
    Run.report (if args.head? == some "-s" then
        "kill: invalid signal number or name: " ++ args.getD 1 ""
      else "kill: Illegal option -" ++ .ofList (named.take 1))
    return 2
  | some n =>
    let mut status := 0
    if args.isEmpty then
      Run.report ("kill: Usage: kill [-s sigspec | -signum | -sigspec] [pid | job]... or\n" ++
        "kill -l [exitstatus]")
      return 2
    for t in targets do
      let group := t.startsWith "-"
      let m ← get
      let main := ((Run.chain m).head?.map (·.pid)).getD 0
      let pid := if t.startsWith "%" then m.frame.lastJob
        else if group || t == "0" then some main else t.toNat?
      match pid with
      | some p =>
        if group || p = 0 then
          for j in m.jobs do Run.endJob j.pid m.time n
        status := max status (← send p n)
      | none =>
        Run.report ("kill: Illegal number: " ++ t)
        status := 2
    return status

/-- Waits for jobs, until they end or a signal comes. -/
def wait : Utility := fun args => do
  let m ← get
  let all := args.isEmpty
  let awaited := if all then m.jobs
    else args.filterMap fun a =>
      m.jobs.find? fun j => some j.pid = (if a.startsWith "%" then m.frame.lastJob else a.toNat?)
  if let some bad := args.find? fun a => a.toNat?.isNone && !a.startsWith "%" then
    Run.report ("wait: Illegal number: " ++ bad)
    return 2
  if !all && awaited.isEmpty then return 127
  let stop := awaited.foldl (fun t j => max t j.endsAt) m.time
  if ← Run.passUntil stop then
    let m ← get
    match awaited.getLast?.bind fun j => m.jobs.find? (·.pid = j.pid) with
    | some j => if all then return 0 else Run.settle j.how
    | none => return 0
  else return 128 + termSignal

def umask : Utility := fun args => do
  if args.isEmpty then Run.say "0022\n"
  return 0

/-- Commands by their names. -/
def table : List (String × Utility) :=
  [(":", fun _ => pure 0), ("true", fun _ => pure 0), ("false", fun _ => pure 1),
   ("echo", echo), ("printf", printf), ("read", read), ("test", test "test"), ("[", test "["),
   ("cd", cd), ("pwd", pwd), ("export", declare true), ("readonly", declare false),
   ("local", localVariables), ("unset", unset), ("set", setCommand), ("shift", shift),
   ("trap", trap), ("kill", kill), ("wait", wait), ("umask", umask), ("ulimit", umask),
   ("alias", fun _ => pure 0), ("hash", fun _ => pure 0), ("jobs", fun _ => pure 0),
   ("times", fun _ => pure 0)]

/-- Commands whose mistakes end the shell and whose assignments stay. -/
def special : List String :=
  [":", ".", "break", "continue", "eval", "exec", "exit", "export", "readonly", "return", "set",
   "shift", "times", "trap", "unset"]

end Amend.Shell.Builtin
