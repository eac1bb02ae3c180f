import Amend.Shell.Builtin

/-!
# Running scripts

How words are expanded and commands carried out. All functions take fuel, which is never used up:
a script that goes on for too long runs into the step limit of its machine.
-/

namespace Amend.Shell

/-! ## Fields -/

/-- A part of an expanded word: a character, which stands for itself if it is literal, a place
where fields are separated, or a mark that there is a field though it may be empty. -/
inductive Atom where
  | char (c : Char) (literal : Bool)
  | blank
  | separator
  | boundary
  | mark

/-- The atoms of a quoted text. -/
def quotedAtoms (s : String) : List Atom := .mark :: s.toList.map (.char · true)

/-- The atoms of an unquoted value: it is split at separators. -/
def splitAtoms (seps : List Char) (s : String) : List Atom :=
  s.toList.map fun c =>
    if seps.contains c then
      if c == ' ' || c == '\t' || c == '\n' then .blank else .separator
    else .char c false

/-- An atom of a word that is split as a value is. -/
def splitAtom (seps : List Char) : Atom → List Atom
  | .char c false => splitAtoms seps (.singleton c)
  | a => [a]

/-- A word with a home directory for a tilde at its start. -/
def withHome (w : Word) : Word :=
  match w with
  | .text s false :: rest =>
    match s.toList with
    | ['~'] => .parameter "HOME" .plain true :: rest
    | '~' :: '/' :: cs => .parameter "HOME" .plain true :: .text (.ofList ('/' :: cs)) false :: rest
    | _ => w
  | _ => w

/-- The atoms of a value in a word that is split or not. -/
def valueAtoms (seps : List Char) (split quoted : Bool) (s : String) : List Atom :=
  if quoted then quotedAtoms s
  else if split then splitAtoms seps s
  else s.toList.map (.char · false)

/-- Adds an atom to fields; the last field is open and given last character first. -/
def addAtom (acc : List (List Glyph) × Option (List Glyph)) (a : Atom) :
    List (List Glyph) × Option (List Glyph) :=
  let (done, current) := acc
  match a with
  | .char c literal => (done, some ((c, literal) :: current.getD []))
  | .mark => (done, some (current.getD []))
  | .blank | .boundary =>
    match current with
    | some f => (done ++ [f.reverse], none)
    | none => (done, none)
  | .separator => (done ++ [(current.getD []).reverse], none)

/-- The fields of atoms. -/
def fieldsOfAtoms (atoms : List Atom) : List (List Glyph) :=
  let (done, current) := atoms.foldl addAtom ([], none)
  done ++ (current.map (·.reverse)).toList

/-- The text of a field. -/
def fieldText (f : List Glyph) : String := .ofList (f.map (·.1))

/-- The text of atoms that are not split. -/
def atomsText (atoms : List Atom) : String :=
  .ofList (atoms.filterMap fun a =>
    match a with
    | .char c _ => some c
    | .boundary | .blank | .separator => some ' '
    | .mark => none)

/-- The characters of atoms that are a pattern. -/
def atomsPattern (atoms : List Atom) : List Glyph :=
  atoms.filterMap fun a =>
    match a with
    | .char c literal => some (c, literal)
    | _ => none

/-- A field cut at slashes. -/
def pathParts (field : List Glyph) : List (List Glyph) :=
  field.foldr (fun g acc =>
    match acc with
    | part :: rest => if g.1 == '/' then [] :: part :: rest else (g :: part) :: rest
    | [] => [[g]]) [[]]

/-- The paths that start with one of some paths and go on as a part of a pattern says. -/
def extendPaths (d : Disk) (dir : Path) (starts : List String) (part : List Glyph) :
    List String :=
  if isPattern part then
    let p := Pattern.ofGlyphs part
    let hidden := part.head?.any (·.1 == '.')
    starts.flatMap fun start =>
      match d.locate (if start.isEmpty then dir else dir.join ⟨start⟩) with
      | .ok l =>
        (d.names l).filterMap fun name =>
          if (name.startsWith "." && !hidden) || !p.accepts name.toList then none
          else some (start ++ name)
      | .error _ => []
  else starts.map (· ++ fieldText part)

/-- The paths that match a field, sorted. -/
def matchingPaths (d : Disk) (dir : Path) (field : List Glyph) : List String :=
  let go := fun (acc : List String × Bool) part =>
    let starts := if acc.2 then acc.1 else acc.1.map (· ++ "/")
    (extendPaths d dir starts part, false)
  let (paths, _) := (pathParts field).foldl go ([""], true)
  (paths.filter fun p => (Builtin.entryAt { disk := d, directory := dir
                                            clock := fun _ => ⟨1970, 1, 1, 0, 0, 0, 0⟩
                                            ids := fun _ => Uid.nil } dir p false).isSome).mergeSort
    fun a b => a ≤ b

/-- The texts that a field stands for: paths if it is a pattern that some match, else itself. -/
def fieldTexts (d : Disk) (dir : Path) (field : List Glyph) : List String :=
  if isPattern field then
    match matchingPaths d dir field with
    | [] => [fieldText field]
    | paths => paths
  else [fieldText field]

/-! ## Helpers of commands -/

namespace Run

/-- Ends the shell with a message of it. -/
def abort {α : Type} (message : String) (status : Nat) : Run α := do
  report message
  setStatus status
  throw .exited

/-- The value of a parameter, none if it is not set. -/
def parameter? (name : String) : Run (Option String) := do
  let f ← frame
  match name with
  | "?" => return some (toString f.status)
  | "$" => return some (toString f.shownPid)
  | "!" => return some ((f.lastJob.map toString).getD "")
  | "#" => return some (toString f.arguments.length)
  | "-" => return some ((if f.stopOnFailure then "e" else "") ++ (if f.failOnUnset then "u" else ""))
  | "@" | "*" => return if f.arguments.isEmpty then none else some (" ".intercalate f.arguments)
  | "PPID" => return some "4241"
  | _ =>
    match name.toNat? with
    | some 0 => return some f.name
    | some n => return f.arguments[n - 1]?
    | none => return f.value? name

/-- Runs something and lets nothing leave it but the death of a shell. -/
def contain (body : Run Unit) : Run Unit := fun m =>
  match body m with
  | (.error (.died p s), m) => (.error (.died p s), m)
  | (_, m) => (.ok (), m)

/-- Runs something with other open files, which are put back afterwards whatever happens. -/
def withStreams (body : Run Unit) : Run Unit := fun m =>
  let streams := m.frame.streams
  match body m with
  | (r, m) => (r, { m with frame := { m.frame with streams } })

/-- Leads a file number elsewhere. -/
def connect (number : Nat) (s : Option Stream) : Run Unit :=
  changeFrame fun f =>
    { f with streams := (s.toList.map fun s => (number, s)) ++ f.streams.filter (·.1 != number) }

/-- Shows a command if that is asked for. -/
def announce (words : List String) : Run Unit := do
  if (← frame).trace then complain ("+ " ++ " ".intercalate words)

/-- What the shell says of a file that it cannot open. -/
def openWords (writing : Bool) (e : SystemError) : String :=
  match e with
  | .notFound => if writing then "Directory nonexistent" else "No such file"
  | e => e.words

/-- Opens a file for a redirection; tells whether it could. -/
def openFile (r : Redirect) (target : String) : Run Bool := do
  let path ← absolute target
  let deny (writing : Bool) (e : SystemError) : Run Bool := do
    report ((if writing then "cannot create " else "cannot open ") ++ target ++ ": " ++
      openWords writing e)
    return false
  let special : Option Stream := if path.text == "/dev/null" then some .discard else none
  match r.kind, special with
  | .read, some s | .write, some s | .append, some s | .readWrite, some s =>
    connect r.number (some s)
    return true
  | .read, none | .readWrite, none =>
    match (← disk).read path with
    | .ok bytes =>
      let n ← newBuffer bytes
      connect r.number (some (.buffer n))
      return true
    | .error e => deny false e
  | .write, none | .append, none =>
    let keep := match r.kind with
      | .append => true
      | _ => false
    let result ← changeDisk fun d now =>
      let before := if keep then (d.read path).toOption.getD .empty else .empty
      d.write path before now
    match result, (← disk).locate path with
    | .ok (), .ok l =>
      connect r.number (some (.file l))
      return true
    | .error e, _ | _, .error e => deny true e
  | .duplicate, _ =>
    if target == "-" then
      connect r.number none
      return true
    match target.toNat? with
    | some n =>
      match (← frame).streams.lookup n with
      | some s =>
        connect r.number (some s)
        return true
      | none =>
        report (target ++ ": Bad file descriptor")
        return false
    | none =>
      report "Bad fd number"
      return false
  | .inline, _ =>
    let n ← newBuffer target.toUTF8
    connect r.number (some (.buffer n))
    return true

/-- The file of a program: a path as it is, a name in the directories of the search path. -/
def programFile? (name : String) : Run (Option Path) := do
  if name.contains '/' then return some (← absolute name)
  let f ← frame
  let names : List String := (((f.value? "PATH").getD "").splitOn ":").filter (· != "")
  let dirs := names.map fun d => f.directory.join ⟨d⟩
  return { (← get).world with programDirs := dirs }.program? name

/-- How a test of a condition is run: failures in it are no reason to stop. -/
def asCondition (body : Run Unit) : Run Unit := fun m =>
  let m := { m with frame := { m.frame with tested := m.frame.tested + 1 } }
  match body m with
  | (r, m) => (r, { m with frame := { m.frame with tested := m.frame.tested - 1 } })

/-- Stops the shell if it is to stop on failures and the last command failed. -/
def checkFailure : Run Unit := do
  let f ← frame
  if f.stopOnFailure && f.status ≠ 0 && f.tested = 0 then throw .exited

/-- Runs the body of a loop; tells whether the loop goes on. -/
def loopBody (body : Run Unit) : Run Bool := fun m =>
  match body m with
  | (.ok (), m) => (.ok true, m)
  | (.error (.breakLoop n), m) =>
    if n ≤ 1 then (.ok false, m) else (.error (.breakLoop (n - 1)), m)
  | (.error (.continueLoop n), m) =>
    if n ≤ 1 then (.ok true, m) else (.error (.continueLoop (n - 1)), m)
  | (.error e, m) => (.error e, m)

/-- Runs the body of a function, from which it can return. -/
def callBody (body : Run Unit) : Run Unit := fun m =>
  match body m with
  | (.error .returned, m) => (.ok (), m)
  | r => r

/-- Runs something on a clock that no time policy watches, and tells when it ended. The clock is
put back. -/
def aside {α : Type} (body : Run α) : Run (Except Leave α × Nat) := fun m =>
  match body { m with live := false } with
  | (r, n) => (.ok (r, n.time), { n with time := m.time, live := m.live })

end Run

/-- The shell that a program sees: what its parent ignores, and no traps. -/
def Frame.forProgram (f : Frame) (pid : Nat) : Frame :=
  { f with pid, shownPid := pid, traps := f.inheritedTraps, pending := [] }

/-- The shell that a part of a script runs in. -/
def Frame.forSubshell (f : Frame) (pid : Nat) : Frame :=
  { f with pid, traps := f.inheritedTraps, pending := [] }

/-- The shell that is started as a program. -/
def Frame.fresh (f : Frame) (name : String) (arguments : List String) : Frame :=
  { f with name, arguments, functions := [], status := 0, line := 1, tested := 0
           stopOnFailure := false, failOnUnset := false, lastJob := none
           bindings := f.bindings.filter fun (n, _) => f.exported.contains n || n == "PWD" }

/-- The first line of a script that tells its interpreter: the program and an argument. -/
def interpreterOf? (bytes : ByteArray) : Option (String × Option String) :=
  let text := (Text.decodeLossy (bytes.extract 0 256)).toList
  match text with
  | '#' :: '!' :: rest =>
    let line := ((rest.takeWhile (· != '\n')).dropWhile (· == ' ')).reverse.dropWhile
      (fun c => c == ' ' || c == '\t') |>.reverse
    let program := line.takeWhile fun c => c != ' ' && c != '\t'
    let argument := (line.drop program.length).dropWhile fun c => c == ' ' || c == '\t'
    if program.isEmpty then none
    else some (.ofList program, if argument.isEmpty then none else some (.ofList argument))
  | _ => none

mutual

/-- The atoms of a word. -/
def atomsOf : Nat → Bool → Word → Run (List Atom)
  | 0, _, _ => return []
  | _, _, [] => return []
  | fuel + 1, split, piece :: rest => do
    let here ← pieceAtoms fuel split piece
    return here ++ (← atomsOf fuel split rest)

/-- The atoms of a piece. -/
def pieceAtoms : Nat → Bool → Piece → Run (List Atom)
  | 0, _, _ => return []
  | fuel + 1, split, piece => do
    let seps := Builtin.separators (← Run.frame)
    match piece with
    | .text s quoted =>
      return if quoted then quotedAtoms s else s.toList.map (.char · false)
    | .arithmetic source quoted =>
      let text ← textOf fuel source true
      match Arithmetic.evaluate text (← Run.frame).bindings with
      | .ok (value, bindings) =>
        Run.changeFrame fun f => { f with bindings }
        return valueAtoms seps split quoted (toString value)
      | .error e => Run.abort e.message 2
    | .output source quoted =>
      let n ← Run.newBuffer .empty
      let how ← Run.inside (fun f pid => f.forSubshell pid) do
        Run.connect 1 (some (.buffer n))
        shell fuel source
      let status ← Run.settle how
      Run.changeFrame fun f => { f with substituted := some status }
      let bytes := ((← get).buffers.getD n {}).rest
      let text := (Text.decodeLossy bytes).toList.filter (· != '\x00')
      return valueAtoms seps split quoted (.ofList (text.reverse.dropWhile (· == '\n')).reverse)
    | .parameter name form quoted => parameterAtoms fuel split name form quoted

/-- The text of words in a script text, quoted as a whole or not. -/
def textOf : Nat → String → Bool → Run String
  | 0, _, _ => return ""
  | fuel + 1, source, quoted => do
    match (if quoted then quotedOfText source else wordOfText source) with
    | .ok w => return atomsText (← atomsOf fuel false w)
    | .error (e, _) => Run.abort e.message 2

/-- The atoms of a parameter. -/
def parameterAtoms : Nat → Bool → String → ParameterForm → Bool → Run (List Atom)
  | 0, _, _, _, _ => return []
  | fuel + 1, split, name, form, quoted => do
    let f ← Run.frame
    let seps := Builtin.separators f
    let value? ← Run.parameter? name
    let atoms (s : String) : List Atom := valueAtoms seps split quoted s
    let missing (emptyToo : Bool) : Bool := value?.isNone || (emptyToo && value? == some "")
    let otherwise (source : String) : Run (List Atom) := do
      if quoted then return quotedAtoms (← textOf fuel source true)
      match wordOfText source with
      | .ok w =>
        let atoms ← atomsOf fuel split w
        return if split then atoms.flatMap (splitAtom seps) else atoms
      | .error (e, _) => Run.abort e.message 2
    let pattern (source : String) : Run Pattern := do
      match wordOfText source with
      | .ok w => return .ofGlyphs (atomsPattern (← atomsOf fuel false w))
      | .error (e, _) => Run.abort e.message 2
    match form with
    | .plain =>
      if name == "@" || (name == "*" && !quoted) then
        let each := f.arguments.map fun a =>
          if quoted then quotedAtoms a else valueAtoms seps split false a
        return (each.intersperse [.boundary]).flatten
      if value?.isNone && f.failOnUnset then Run.abort (name ++ ": parameter not set") 2
      if name == "*" then
        return quotedAtoms ((String.ofList (seps.take 1)).intercalate f.arguments)
      return atoms (value?.getD "")
    | .length => return atoms (toString (value?.getD "").length)
    | .orElse emptyToo w => if missing emptyToo then otherwise w else return atoms (value?.getD "")
    | .instead emptyToo w => if missing emptyToo then return [] else otherwise w
    | .orAssign emptyToo w =>
      if missing emptyToo then
        let text ← textOf fuel w false
        Run.changeFrame (·.assign name text)
        return atoms text
      return atoms (value?.getD "")
    | .orFail emptyToo w =>
      if missing emptyToo then
        let text ← textOf fuel w false
        Run.abort (name ++ ": " ++ if text.isEmpty then "parameter not set or null" else text) 2
      return atoms (value?.getD "")
    | .cutEnd longest w =>
      return atoms (.ofList ((← pattern w).cutEnd longest (value?.getD "").toList))
    | .cutStart longest w =>
      return atoms (.ofList ((← pattern w).cutStart longest (value?.getD "").toList))

/-- The fields that words expand to. -/
def fields : Nat → List Word → Run (List String)
  | 0, _ => return []
  | _, [] => return []
  | fuel + 1, w :: ws => do
    let found := fieldsOfAtoms (← atomsOf fuel true (withHome w))
    let dir := (← Run.frame).directory
    let d ← Run.disk
    let here := found.flatMap (fieldTexts d dir)
    return here ++ (← fields fuel ws)

/-- Opens the files of redirections; tells whether all could be opened. -/
def openAll : Nat → List Redirect → Run Bool
  | 0, _ => return true
  | _, [] => return true
  | fuel + 1, r :: rs => do
    let target := atomsText (← atomsOf fuel false r.target)
    if ← Run.openFile r target then openAll fuel rs else return false

/-- Runs the text of a script, a complete command at a time. -/
def source : Nat → Source → Run Unit
  | 0, _ => return
  | fuel + 1, s => do
    match nextCommand s with
    | .error (e, line) =>
      Run.changeFrame fun f => { f with line }
      Run.abort e.message 2
    | .ok none => return
    | .ok (some (script, rest)) =>
      run fuel script
      source fuel rest

/-- Runs the text of a whole script as a shell does: what is left to do at its end is done. -/
def shell : Nat → String → Run Unit
  | 0, _ => return
  | fuel + 1, text => do
    Run.contain (source fuel (.ofText text))
    match (← Run.frame).traps.lookup 0 with
    | some action =>
      if action != "" then
        Run.changeFrame fun f => { f with traps := f.traps.filter (·.1 != 0) }
        let status := (← Run.frame).status
        let after ← (fun m => match source fuel (.ofText action) m with
          | (.error (.died p s), m) => (.error (.died p s), m)
          | (.error .exited, m) => (.ok false, m)
          | (_, m) => (.ok true, m) : Run Bool)
        if after then Run.setStatus status
    | none => return

/-- Carries out the actions of signals that came. -/
def actOnSignals : Nat → Run Unit
  | 0 => return
  | fuel + 1 => do
    let f ← Run.frame
    match f.pending with
    | [] => return
    | signal :: rest =>
      Run.changeFrame fun f => { f with pending := rest }
      match f.traps.lookup signal with
      | some action =>
        source fuel (.ofText action)
        Run.setStatus f.status
      | none => return
      actOnSignals fuel

/-- Runs a script. -/
def run : Nat → Script → Run Unit
  | 0, _ => return
  | fuel + 1, s => do
    match s with
    | .empty => return
    | .simple line assignments words redirects =>
      Run.step
      Run.changeFrame fun f => { f with line, substituted := none }
      simpleCommand fuel assignments words redirects
      actOnSignals fuel
      Run.checkFailure
    | .sequence first second =>
      run fuel first
      run fuel second
    | .both first second =>
      Run.asCondition (run fuel first)
      if (← Run.frame).status = 0 then run fuel second
    | .either first second =>
      Run.asCondition (run fuel first)
      if (← Run.frame).status ≠ 0 then run fuel second
    | .not inner =>
      Run.asCondition (run fuel inner)
      let status := (← Run.frame).status
      Run.setStatus (if status = 0 then 1 else 0)
    | .pipe first second =>
      let n ← Run.newBuffer .empty
      let start ← Run.look (·.time)
      let pid ← Run.look (·.nextPid)
      let job ← Run.look (·.job)
      let (how, stop) ← Run.aside (do
        modify fun m => { m with job := pid }
        Run.inside (fun f pid => f.forSubshell pid) do
          Run.connect 1 (some (.buffer n))
          Run.contain (run fuel first))
      modify fun m => { m with job }
      match how with
      | .error leave => throw leave
      | .ok how =>
        let stop := if stop ≥ Run.never then start else stop
        let ignoresTerm := (← Run.frame).ignores termSignal
        modify fun m => { m with
          buffers := m.buffers.modify n fun b => { b with closedAt := stop }
          jobs := ⟨pid, stop, how, ignoresTerm⟩ :: m.jobs }
        let last ← Run.inside (fun f pid => f.forSubshell pid) do
          Run.connect 0 (some (.buffer n))
          Run.contain (run fuel second)
        let _ ← Run.passUntil ((← Run.look (·.jobs)).foldl
          (fun t j => if j.pid = pid then j.endsAt else t) stop)
        let jobs ← Run.look (·.jobs)
        modify fun m => { m with jobs := m.jobs.filter (·.pid ≠ pid) }
        if let some j := jobs.find? (·.pid = pid) then
          if j.endsAt < stop then Run.tellEnd j.how
        Run.setStatus (← Run.settle last)
        actOnSignals fuel
        Run.checkFailure
    | .background inner =>
      let f ← Run.frame
      let m ← get
      let pid := m.nextPid
      let (how, stop) ← Run.aside (do
        modify fun m => { m with job := pid }
        Run.inside (fun f pid => f.forSubshell pid) do
          Run.connect 0 (some .discard)
          Run.contain (run fuel inner))
      modify fun n => { n with
        job := m.job
        jobs := n.jobs ++ [⟨pid, stop, how.toOption.getD (.ok 0), f.ignores termSignal⟩]
        frame := { n.frame with lastJob := some pid, status := 0 } }
      match how with
      | .error leave => throw leave
      | .ok _ => return
    | .subshell inner =>
      let how ← Run.inside (fun f pid => f.forSubshell pid) do
        Run.contain (run fuel inner)
        match (← Run.frame).traps.lookup 0 with
        | some action => Run.contain (source fuel (.ofText action))
        | none => return
      Run.setStatus (← Run.settle how)
      actOnSignals fuel
      Run.checkFailure
    | .redirected inner redirects =>
      Run.withStreams do
        if ← openAll fuel redirects then run fuel inner else Run.setStatus 2
    | .branch condition yes no =>
      Run.asCondition (run fuel condition)
      if (← Run.frame).status = 0 then run fuel yes
      else
        match no with
        | .empty => Run.setStatus 0
        | no => run fuel no
    | .loop untilSuccess condition body => loop fuel untilSuccess condition body 0
    | .each name words body =>
      let values ← match words with
        | some ws => fields fuel ws
        | none => pure (← Run.frame).arguments
      Run.setStatus 0
      each fuel name values body
    | .choice subject arms =>
      let text := atomsText (← atomsOf fuel false subject)
      Run.setStatus 0
      choose fuel text arms
    | .arm .. => return
    | .define name body =>
      Run.changeFrame fun f =>
        { f with functions := (name, body) :: f.functions.filter (·.1 != name), status := 0 }

/-- Runs a loop; `status` is that of the body when it last ran. -/
def loop : Nat → Bool → Script → Script → Nat → Run Unit
  | 0, _, _, _, _ => return
  | fuel + 1, untilSuccess, condition, body, status => do
    Run.step
    Run.asCondition (run fuel condition)
    if ((← Run.frame).status = 0) != untilSuccess then
      if ← Run.loopBody (run fuel body) then
        loop fuel untilSuccess condition body (← Run.frame).status
      else return
    else Run.setStatus status

/-- Runs a body for each of some values of a name. -/
def each : Nat → String → List String → Script → Run Unit
  | 0, _, _, _ => return
  | _, _, [], _ => return
  | fuel + 1, name, value :: values, body => do
    Run.step
    Run.changeFrame (·.assign name value)
    if ← Run.loopBody (run fuel body) then each fuel name values body else return

/-- Runs the first arm that has a pattern for a text. -/
def choose : Nat → String → Script → Run Unit
  | 0, _, _ => return
  | fuel + 1, text, arms => do
    match arms with
    | .arm patterns body rest =>
      if ← accepts fuel text patterns then run fuel body else choose fuel text rest
    | _ => return

/-- Whether one of some patterns takes a text. -/
def accepts : Nat → String → List Word → Run Bool
  | 0, _, _ => return false
  | _, _, [] => return false
  | fuel + 1, text, w :: ws => do
    let p := Pattern.ofGlyphs (atomsPattern (← atomsOf fuel false w))
    if p.accepts text.toList then return true else accepts fuel text ws

/-- Sets variables to the values of words, in order. -/
def assignAll : Nat → List (String × Word) → Run Unit
  | 0, _ => return
  | _, [] => return
  | fuel + 1, (name, w) :: rest => do
    let text := atomsText (← atomsOf fuel false (withHome w))
    Run.changeFrame (·.assign name text)
    Run.announce [name ++ "=" ++ text]
    assignAll fuel rest

/-- Runs a simple command. -/
def simpleCommand : Nat → List (String × Word) → List Word → List Redirect → Run Unit
  | 0, _, _, _ => return
  | fuel + 1, assignments, words, redirects => do
    match ← fields fuel words with
    | [] =>
      assignAll fuel assignments
      let status := (← Run.frame).substituted.getD 0
      if redirects.isEmpty then Run.setStatus status
      else Run.withStreams do
        Run.setStatus (if ← openAll fuel redirects then status else 2)
    | name :: args =>
      Run.announce (name :: args)
      if name == "exec" then
        assignAll fuel assignments
        if !(← openAll fuel redirects) then Run.setStatus 2; throw .exited
        if !args.isEmpty then
          Run.changeFrame fun f => { f with traps := f.inheritedTraps }
          program fuel "exec: " args
          throw .exited
        Run.setStatus 0
      else
        let before := (← Run.frame).bindings
        let exported := (← Run.frame).exported
        assignAll fuel assignments
        let special := Builtin.special.contains name
        if !special then
          Run.changeFrame fun f => { f with exported := f.exported ++ assignments.map (·.1) }
        Run.withStreams do
          if ← openAll fuel redirects then call fuel name args
          else
            Run.setStatus 2
            if special then throw .exited
        if !special && !assignments.isEmpty then
          let names := assignments.map (·.1)
          Run.changeFrame fun f =>
            { f with exported
                     bindings := before.filter (fun (n, _) => names.contains n) ++
                       f.bindings.filter fun (n, _) => !names.contains n }

/-- Runs a function, a command of the shell or a program. -/
def call : Nat → String → List String → Run Unit
  | 0, _, _ => return
  | fuel + 1, name, args => do
    let f ← Run.frame
    match f.functions.lookup name with
    | some body =>
      Run.changeFrame fun f => { f with arguments := args, saved := [] }
      Run.callBody (run fuel body)
      Run.changeFrame fun g =>
        { g.saved.foldl (fun g (name, value) => g.putBack name value) g with
          arguments := f.arguments, saved := f.saved }
    | none =>
      let number (default : Nat) : Run Nat := do
        match args with
        | [] => return default
        | a :: _ =>
          match a.toNat? with
          | some n => return n
          | none => Run.abort (name ++ ": Illegal number: " ++ a) 2
      match name with
      | "exit" =>
        Run.setStatus ((← number f.status) % 256)
        throw .exited
      | "return" =>
        Run.setStatus ((← number f.status) % 256)
        throw .returned
      | "break" => throw (.breakLoop (← number 1))
      | "continue" => throw (.continueLoop (← number 1))
      | "eval" =>
        Run.setStatus 0
        source fuel { Source.ofText (" ".intercalate args) with line := f.line }
      | "." =>
        match ← Run.programFile? (args.headD "") with
        | none => Run.abort (".: " ++ args.headD "" ++ ": not found") 2
        | some path =>
          match (← Run.disk).readText path with
          | .ok text =>
            Run.setStatus 0
            Run.callBody (source fuel (.ofText text))
          | .error e =>
            Run.abort (".: cannot open " ++ args.headD "" ++ ": " ++ Run.openWords false e) 2
      | "command" =>
        match args with
        | "-v" :: names | "-V" :: names =>
          let name := names.headD ""
          if (Builtin.table.lookup name).isSome || Builtin.special.contains name then
            Run.say (name ++ "\n")
            Run.setStatus 0
          else
            match ← Run.programFile? name with
            | some p =>
              if (← Run.disk).pathExists p then
                Run.say (p.text ++ "\n")
                Run.setStatus 0
              else Run.setStatus 127
            | none => Run.setStatus 127
        | inner :: rest => call fuel inner rest
        | [] => Run.setStatus 0
      | "type" =>
        let name := args.headD ""
        if (Builtin.table.lookup name).isSome || Builtin.special.contains name then
          Run.say (name ++ " is a shell builtin\n")
          Run.setStatus 0
        else
          match ← Run.programFile? name with
          | some p =>
            Run.say (name ++ " is " ++ p.text ++ "\n")
            Run.setStatus 0
          | none =>
            Run.say (name ++ ": not found\n")
            Run.setStatus 127
      | _ =>
        match Builtin.table.lookup name with
        | some builtin =>
          let status ← builtin args
          Run.setStatus status
          if status ≥ 2 && status < 126 && Builtin.special.contains name then throw .exited
        | none =>
          let how ← Run.inside (fun f pid => f.forProgram pid) (program fuel "" (name :: args))
          Run.setStatus (← Run.settle how)

/-- Runs a program by its command line. Messages start with the name of what asks for it. -/
def program : Nat → String → List String → Run Unit
  | 0, _, _ => return
  | _, _, [] => return
  | fuel + 1, asker, name :: args => do
    let fail (words : String) (status : Nat) : Run Unit := do
      Run.report (asker ++ name ++ ": " ++ words)
      Run.setStatus status
    match ← Run.programFile? name with
    | none => fail "not found" 127
    | some path =>
      match (← Run.disk).stat path with
      | .error .notFound => fail "not found" 127
      | .error e => fail e.words 126
      | .ok (.file bytes mode _) =>
        if !isExecutable mode then fail "Permission denied" 126
        else image fuel path.text bytes (name :: args)
      | .ok _ => fail "Permission denied" 126

/-- Runs the file of a program with a command line. -/
def image : Nat → String → ByteArray → List String → Run Unit
  | 0, _, _, _ => return
  | fuel + 1, path, bytes, argv => do
    let args := argv.drop 1
    match Utility.imageName? bytes with
    | some name =>
      match Utility.table.lookup name with
      | some utility => Run.setStatus (← utility args)
      | none => runner fuel name args
    | none =>
      match interpreterOf? bytes with
      | some (interpreter, option) =>
        let file := argv.headD path
        match (← Run.disk).stat ⟨interpreter⟩ with
        | .ok (.file bytes _ _) =>
          image fuel interpreter bytes (interpreter :: option.toList ++ file :: args)
        | _ =>
          Run.report (file ++ ": not found")
          Run.setStatus 127
      | none =>
        Run.changeFrame (·.fresh (argv.headD path) args)
        shell fuel (Text.decodeLossy bytes)

/-- Runs a program that runs others. -/
def runner : Nat → String → List String → Run Unit
  | 0, _, _ => return
  | fuel + 1, name, args => do
    match name with
    | "sh" | "dash" | "bash" => shellProgram fuel name args
    | "env" =>
      let settings := args.takeWhile fun a => a.contains '=' || a.startsWith "-"
      let _ ← Builtin.declare true settings
      match args.drop settings.length with
      | [] => Run.setStatus (← Utility.env [])
      | command => runOther fuel "env" command
    | "nohup" | "setsid" | "nice" => runOther fuel name (args.dropWhile (·.startsWith "-"))
    | "timeout" =>
      let rest := (args.dropWhile (·.startsWith "-"))
      match rest with
      | [] => Run.setStatus 125
      | limit :: command =>
        let start ← Run.look (·.time)
        let pid ← Run.look (·.nextPid)
        let job ← Run.look (·.job)
        let (how, stop) ← Run.aside (do
          modify fun m => { m with job := pid }
          Run.inside (fun f pid => f.forProgram pid) (runOther fuel "timeout" command))
        modify fun m => { m with job }
        let limit := start + (Utility.duration? limit).getD 0
        match how with
        | .error leave => throw leave
        | .ok how =>
          if limit < stop then
            modify fun m => { m with output := Run.truncated m.output pid limit }
            let _ ← Run.passUntil limit
            Run.setStatus 124
          else
            let _ ← Run.passUntil stop
            Run.setStatus (Run.statusOf how)
    | "xargs" =>
      let words := (Utility.linesOf (← Run.readAll)).flatMap fun l =>
        (l.splitOn " ").filter (· != "")
      let command := args.dropWhile (·.startsWith "-")
      runOther fuel "xargs" ((if command.isEmpty then ["echo"] else command) ++ words)
    | "test" | "[" => Run.setStatus (← Builtin.test name args)
    | "kill" => Run.setStatus (← Builtin.kill args)
    | _ => Run.setStatus 127

/-- Runs the program that another one was asked to run. -/
def runOther : Nat → String → List String → Run Unit
  | 0, _, _ => return
  | _, _, [] => return
  | fuel + 1, asker, name :: args => do
    let fail (e : SystemError) (status : Nat) : Run Unit := do
      Run.complain (asker ++ ": " ++ (match asker with
        | "env" => Utility.quoted name
        | "xargs" => name
        | _ => "failed to run command " ++ Utility.quoted name) ++ ": " ++ e.words)
      Run.setStatus status
    match ← Run.programFile? name with
    | some path =>
      match (← Run.disk).stat path with
      | .ok (.file bytes mode _) =>
        if isExecutable mode then image fuel path.text bytes (name :: args)
        else fail .permissionDenied 126
      | _ => fail .notFound 127
    | none => fail .notFound 127

/-- Runs the shell program: a script in an argument, in a file or in the input. -/
def shellProgram : Nat → String → List String → Run Unit
  | 0, _, _ => return
  | fuel + 1, name, args => do
    let flags := args.takeWhile fun a => a.startsWith "-" && a.length > 1
    let letters := flags.flatMap fun a => a.toList.drop 1
    let keep (f : Frame) : Frame := letters.foldl (Builtin.switch · true) f
    match letters.contains 'c', args.drop flags.length with
    | true, script :: rest =>
      Run.changeFrame fun f => keep (f.fresh (rest.headD name) (rest.drop 1))
      shell fuel script
    | true, [] =>
      Run.changeFrame fun f => { f.fresh name [] with line := 0 }
      Run.abort "-c requires an argument" 2
    | false, file :: rest => scriptFile fuel name keep file rest
    | false, [] =>
      Run.changeFrame fun f => keep (f.fresh name [])
      shell fuel (Text.decodeLossy (← Run.readAll))

/-- Runs a script in a file. -/
def scriptFile : Nat → String → (Frame → Frame) → String → List String → Run Unit
  | 0, _, _, _, _ => return
  | fuel + 1, name, keep, file, args => do
    match (← Run.disk).read (← Run.absolute file) with
    | .ok bytes =>
      Run.changeFrame fun f => keep (f.fresh file args)
      shell fuel (Text.decodeLossy bytes)
    | .error e =>
      Run.changeFrame (·.fresh name [])
      Run.changeFrame fun f => { f with line := 0 }
      Run.abort ("cannot open " ++ file ++ ": " ++ Run.openWords false e) 2

end

end Amend.Shell
