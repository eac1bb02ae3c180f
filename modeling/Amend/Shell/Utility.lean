import Amend.Shell.Format
import Amend.Shell.Machine
import Amend.Shell.Regex
import Amend.Text.Lossy

/-!
# Utilities

The programs that a script finds installed besides the shell itself: each takes its arguments,
works on files and on its input, writes output and messages and ends with a status.
-/

namespace Amend.Shell

/-- A program: what it does with its arguments, and the status with which it ends. -/
abbrev Utility := List String → Run Nat

namespace Utility

/-! ## Arguments -/

/-- Options of one letter, with the value of those that take one, and what is no option. -/
structure Options where
  given : List (Char × String) := []
  operands : List String := []

/-- Whether an option was given. -/
def Options.has (o : Options) (c : Char) : Bool := o.given.any (·.1 == c)

/-- The value of an option, the last one given. -/
def Options.value? (o : Options) (c : Char) : Option String :=
  (o.given.reverse.find? (·.1 == c)).map (·.2)

/-- The options in one argument, with the value that the last of them takes from the rest of the
argument or from the next one. -/
def lettersOf (withValue : String) : List Char → List String → List (Char × String) × List String
  | [], rest => ([], rest)
  | c :: cs, rest =>
    if withValue.toList.contains c then
      if cs.isEmpty then
        match rest with
        | v :: rest => ([(c, v)], rest)
        | [] => ([(c, "")], [])
      else ([(c, .ofList cs)], rest)
    else
      let (more, rest) := lettersOf withValue cs rest
      ((c, "") :: more, rest)

/-- Sorts arguments into options and operands, which may come in any order. -/
def options (withValue : String) : Nat → List String → Options
  | 0, args => { operands := args }
  | fuel + 1, args =>
    match args with
    | [] => {}
    | "--" :: rest => { operands := rest }
    | a :: rest =>
      match a.toList with
      | '-' :: c :: cs =>
        if c == '-' then options withValue fuel rest
        else
          let (here, rest) := lettersOf withValue (c :: cs) rest
          let more := options withValue fuel rest
          { more with given := here ++ more.given }
      | _ =>
        let more := options withValue fuel rest
        { more with operands := a :: more.operands }

/-- The options and operands of a program. -/
def parse (withValue : String) (args : List String) : Options :=
  options withValue (args.length + 1) args

/-- Writes a message of a program. -/
def complain (program text : String) : Run Unit := Run.complain (program ++ ": " ++ text)

/-- A text in quotes. -/
def quoted (s : String) : String := "'" ++ s ++ "'"

/-! ## Texts -/

/-- The lines of bytes, shown as text. -/
def linesOf (bytes : ByteArray) : List String :=
  let cs := (Text.decodeLossy bytes).toList
  (go cs.length cs).map .ofList
where
  /-- The lines of characters, at most as many as the fuel. -/
  go : Nat → List Char → List (List Char)
    | 0, _ => []
    | fuel + 1, cs =>
      match cs with
      | [] => []
      | cs =>
        let line := cs.takeWhile (· != '\n')
        line :: go fuel ((cs.drop line.length).drop 1)

/-- Lines, each with its end. -/
def joinLines (lines : List String) : String := String.join (lines.map (· ++ "\n"))

/-- The content of an operand; `-` is the input. -/
def contentOf (operand : String) : Run (Except SystemError ByteArray) := do
  if operand == "-" then return .ok (← Run.readAll)
  return (← Run.disk).read (← Run.absolute operand)

/-- Goes through operands, or the input if there are none. Each that cannot be read is reported
in the program's words and makes the given status. -/
def eachContent (operands : List String) (failed : Nat) (report : String → SystemError → Run Unit)
    (use : String → ByteArray → Run Unit) : Run Nat := do
  let mut status := 0
  for operand in (if operands.isEmpty then ["-"] else operands) do
    match ← contentOf operand with
    | .ok bytes => use operand bytes
    | .error e =>
      report operand e
      status := failed
  return status

/-- A report that names the operand and the error. -/
def plainReport (program operand : String) (e : SystemError) : Run Unit :=
  complain program (operand ++ ": " ++ e.words)

def cat : Utility := fun args => do
  let operands := (parse "" args).operands
  if operands.isEmpty then
    Run.copyInput (Run.write 1)
    return 0
  eachContent operands 1 (plainReport "cat") fun _ bytes => Run.write 1 bytes

/-- A count in an option, with a default. -/
def countOf (value : Option String) (default : Nat) : Nat :=
  match value with
  | some v => (Arithmetic.integer? (v.replace "-" "")).getD 0 |>.toNat
  | none => default

/-- Arguments in which `-5` is written `-n 5`. -/
def spelledCount (args : List String) : List String :=
  args.flatMap fun a =>
    match a.toList with
    | '-' :: c :: cs => if c.isDigit then ["-n", .ofList (c :: cs)] else [a]
    | _ => [a]

/-- The first `n` lines of bytes, ends included. -/
def firstLines (n : Nat) (bytes : List UInt8) : List UInt8 :=
  match n, bytes with
  | 0, _ | _, [] => []
  | n + 1, b :: rest => b :: firstLines (if b == 10 then n else n + 1) rest

/-- A header over each of several files. -/
def header (several first : Bool) (operand : String) : Run Unit := do
  if several then Run.say ((if first then "" else "\n") ++ "==> " ++ operand ++ " <==\n")

def head : Utility := fun args => do
  let o := parse "nc" (spelledCount args)
  let report (operand : String) (e : SystemError) : Run Unit :=
    match e with
    | .isDirectory => complain "head" ("error reading " ++ quoted operand ++ ": " ++ e.words)
    | e => complain "head" ("cannot open " ++ quoted operand ++ " for reading: " ++ e.words)
  eachContent o.operands 1 report fun operand bytes => do
    header (o.operands.length > 1) (o.operands.head? == some operand) operand
    match o.value? 'c' with
    | some c => Run.write 1 (bytes.extract 0 (countOf (some c) 0))
    | none => Run.write 1 ⟨(firstLines (countOf (o.value? 'n') 10) bytes.toList).toArray⟩

def tail : Utility := fun args => do
  let o := parse "nc" (spelledCount args)
  let report (operand : String) (e : SystemError) : Run Unit :=
    complain "tail" ("cannot open " ++ quoted operand ++ " for reading: " ++ e.words)
  eachContent o.operands 1 report fun operand bytes => do
    header (o.operands.length > 1) (o.operands.head? == some operand) operand
    match o.value? 'c' with
    | some c => Run.write 1 (bytes.extract (bytes.size - countOf (some c) 0) bytes.size)
    | none =>
      let value := (o.value? 'n').getD "10"
      let all := bytes.toList
      let breaks := all.count 10 + (if all.getLast?.any (· != 10) then 1 else 0)
      let skip := if value.startsWith "+" then countOf (some (value.drop 1).toString) 1 - 1
        else breaks - countOf (some value) 10
      Run.write 1 ⟨(all.drop (firstLines skip all).length).toArray⟩

/-- The number of words in bytes. -/
def wordCount (bytes : ByteArray) : Nat :=
  (bytes.toList.foldl (fun (n, inWord) b =>
    let blank := b == 32 || (9 ≤ b && b ≤ 13)
    (if !blank && !inWord then n + 1 else n, !blank)) (0, false)).1

/-- A number filled up with blanks in front. -/
def padded (width n : Nat) : String :=
  let s := toString n
  String.ofList (List.replicate (width - s.length) ' ') ++ s

def wc : Utility := fun args => do
  let o := parse "" args
  let chosen := ['l', 'w', 'c'].filter fun c =>
    o.has c || (c == 'c' && o.has 'm') || o.given.isEmpty
  let d ← Run.disk
  let paths ← o.operands.mapM Run.absolute
  let total := MachineWord.total (paths.map fun p => ((d.read p).toOption.map (·.size)).getD 0)
  let width := if chosen.length = 1 && o.operands.length ≤ 1 then 1
    else if o.operands.isEmpty then 7 else (toString total).length
  let count (bytes : ByteArray) (c : Char) : Nat :=
    if c == 'l' then bytes.toList.count 10 else if c == 'w' then wordCount bytes else bytes.size
  let line (counts : List Nat) (name : String) : String :=
    " ".intercalate (counts.map (padded width)) ++ (if name.isEmpty then "" else " " ++ name) ++ "\n"
  let status ← eachContent o.operands 1 (plainReport "wc") fun operand bytes =>
    Run.say (line (chosen.map (count bytes)) (if o.operands.isEmpty then "" else operand))
  if o.operands.length > 1 then
    let contents := paths.filterMap fun p => (d.read p).toOption
    Run.say (line (chosen.map fun c => MachineWord.total (contents.map (count · c))) "total")
  return status

/-- All lines of operands. -/
def allLines (program : String) (operands : List String) : Run (List String × Nat) := do
  let mut lines : List String := []
  let mut status := 0
  for operand in (if operands.isEmpty then ["-"] else operands) do
    match ← contentOf operand with
    | .ok bytes => lines := lines ++ linesOf bytes
    | .error e =>
      complain program (operand ++ ": " ++ e.words)
      status := 2
  return (lines, status)

/-- Lines without those that equal the one before, each with how often it came. -/
def runsOf : List String → List (Nat × String)
  | [] => []
  | l :: ls =>
    match runsOf ls with
    | (n, m) :: rest => if l == m then (n + 1, m) :: rest else (1, l) :: (n, m) :: rest
    | [] => [(1, l)]

def sort : Utility := fun args => do
  let o := parse "ktoS" args
  let (lines, status) ← allLines "sort" o.operands
  let number (s : String) : Int := (Arithmetic.integer? s).getD 0
  let below (a b : String) : Bool :=
    if o.has 'n' then number a < number b || (number a = number b && a ≤ b) else a ≤ b
  let sorted := lines.mergeSort below
  let sorted := if o.has 'r' then sorted.reverse else sorted
  Run.say (joinLines (if o.has 'u' then (runsOf sorted).map (·.2) else sorted))
  return status

def uniq : Utility := fun args => do
  let o := parse "" args
  let (lines, status) ← allLines "uniq" (o.operands.take 1)
  Run.say (joinLines ((runsOf lines).map fun (n, l) =>
    if o.has 'c' then padded 7 n ++ " " ++ l else l))
  return status

def seq : Utility := fun args => do
  let values := args.filterMap Arithmetic.integer?
  let (first, by_, last) : Int × Int × Int := match values with
    | [last] => (1, 1, last)
    | [first, last] => (first, 1, last)
    | [first, by_, last] => (first, by_, last)
    | _ => (1, 1, 0)
  let count := if by_ > 0 then (last - first) / by_ + 1
    else if by_ < 0 then (first - last) / (-by_) + 1 else 0
  Run.say (joinLines ((List.range count.toNat).map fun (i : Nat) => toString (first + by_ * i)))
  return 0

/-- The characters of a set as `tr` writes it. -/
def trSet : Nat → List Char → List Char
  | 0, _ => []
  | fuel + 1, cs =>
    match cs with
    | [] => []
    | '[' :: ':' :: rest =>
      let name := rest.takeWhile Char.isAlpha
      let ranges := (namedClasses.lookup (.ofList name)).getD []
      (ranges.flatMap fun (lo, hi) => between lo hi) ++ trSet fuel (rest.drop (name.length + 2))
    | '\\' :: rest =>
      match Format.escape .direct false rest with
      | (some bs, rest) => bs.map (fun b => Char.ofNat b.toNat) ++ trSet fuel rest
      | (none, _) => []
    | lo :: '-' :: hi :: rest => between lo hi ++ trSet fuel rest
    | c :: rest => c :: trSet fuel rest
where
  /-- The characters of a range. -/
  between (lo hi : Char) : List Char :=
    (List.range (hi.toNat + 1 - lo.toNat)).map fun n => Char.ofNat (lo.toNat + n)

def tr : Utility := fun args => do
  let o := parse "" args
  let set (i : Nat) : List Char :=
    let cs := (o.operands.getD i "").toList
    trSet (cs.length + 1) cs
  let text := (Text.decodeLossy (← Run.readAll)).toList
  let listed (c : Char) : Bool := (set 0).contains c != (o.has 'c' || o.has 'C')
  if o.has 'd' then Run.say (.ofList (text.filter (!listed ·)))
  else
    let mapped := text.map fun c =>
      if o.operands.length < 2 || !listed c then c
      else if o.has 'c' || o.has 'C' then (set 1).getLast?.getD c
      else ((set 1)[(set 0).idxOf c]?).getD ((set 1).getLast?.getD c)
    let squeezed := if o.has 's' then
        mapped.foldr (fun c acc =>
          if acc.head? == some c && (if o.operands.length < 2 then set 0 else set 1).contains c
          then acc else c :: acc) []
      else mapped
    Run.say (.ofList squeezed)
  return 0

/-- The places that a list such as `1,3-5` names. -/
def inRanges (text : String) (n : Nat) : Bool :=
  (text.splitOn ",").any fun part =>
    match part.splitOn "-" with
    | [a] => a.toNat? == some n
    | [a, b] => (a.isEmpty || (a.toNat?.getD 1) ≤ n) && (b.isEmpty || n ≤ b.toNat?.getD 0)
    | _ => false

/-- Entries of a list at the places that a text names. -/
def chosen {α : Type} (text : String) (xs : List α) : List α :=
  ((xs.zipIdx).filter fun (_, i) => inRanges text (i + 1)).map (·.1)

def cut : Utility := fun args => do
  let o := parse "dfcb" args
  let (lines, status) ← allLines "cut" o.operands
  let sep := (o.value? 'd').getD "\t"
  let cutLine (l : String) : Option String :=
    match o.value? 'f', (o.value? 'c').or (o.value? 'b') with
    | some f, _ =>
      if (l.splitOn sep).length < 2 then if o.has 's' then none else some l
      else some (sep.intercalate (chosen f (l.splitOn sep)))
    | none, some c => some (.ofList (chosen c l.toList))
    | none, none => some l
  Run.say (joinLines (lines.filterMap cutLine))
  return status

/-! ## Searching and replacing -/

/-- Whether a character belongs to a word. -/
def isWordChar (c : Char) : Bool := c.isAlphanum || c == '_'

/-- Whether a line is selected by a pattern. -/
def selects (o : Options) (r : Regex) (line : String) : Bool :=
  let fold := o.has 'i'
  let cs := line.toList
  if o.has 'x' then r.takesWhole fold cs
  else
    match r.find? fold cs with
    | none => false
    | some m =>
      !o.has 'w' || (!(m.before.getLast?.any isWordChar) && !(m.after.head?.any isWordChar))

/-- The matches in a line. -/
def matchesIn (r : Regex) (fold : Bool) : Nat → List Char → List String
  | 0, _ => []
  | fuel + 1, cs =>
    match r.find? fold cs with
    | none => []
    | some m => if m.text.isEmpty then [] else .ofList m.text :: matchesIn r fold fuel m.after

/-- The files below an operand, if directories are gone through. -/
def filesBelow (recursive : Bool) (operand : String) : Run (List String) := do
  if !recursive then return [operand]
  match (← Run.disk).locate (← Run.absolute operand) with
  | .error _ => return [operand]
  | .ok l =>
    let d ← Run.disk
    if d.at? l |>.any (·.isDirectory) then
      let below := d.entries.filterMap fun (m, e) =>
        if l.isPrefixOf m && m ≠ l && e.isFile then
          some (operand ++ "/" ++ "/".intercalate (m.drop l.length))
        else none
      return below.mergeSort fun a b => a ≤ b
    else return [operand]

def grepAs (kind : Char) : Utility := fun args => do
  let o := parse "efmAB" args
  let extended := kind == 'E' || o.has 'E'
  let fixed := kind == 'F' || o.has 'F'
  let (patterns, operands) : List String × List String := match o.given.filter (·.1 == 'e') with
    | [] => (o.operands.take 1, o.operands.drop 1)
    | given => (given.map (·.2), o.operands)
  if patterns.isEmpty then
    complain "grep" "no pattern given"
    return 2
  let regexes := (patterns.flatMap (·.splitOn "\n")).map fun p =>
    if fixed then Regex.literal p else Regex.ofText extended p
  let recursive := o.has 'r' || o.has 'R'
  let operands := if recursive && operands.isEmpty then ["."] else operands
  let files ← if operands.isEmpty then pure ["-"]
    else (← operands.mapM (filesBelow recursive)) |>.flatten |> pure
  let named := (files.length > 1 || recursive || o.has 'H') && !o.has 'h'
  let mut found := false
  let mut broken := false
  for file in files do
    match ← contentOf file with
    | .error e =>
      if !o.has 's' then complain "grep" (file ++ ": " ++ e.words)
      broken := true
    | .ok bytes =>
      let hits := ((linesOf bytes).zipIdx).filter fun (l, _) =>
        (regexes.any (selects o · l)) != o.has 'v'
      if !hits.isEmpty then found := true
      let front := if named then file ++ ":" else ""
      if o.has 'q' then pure ()
      else if o.has 'l' then
        if !hits.isEmpty then Run.say (file ++ "\n")
      else if o.has 'L' then
        if hits.isEmpty then Run.say (file ++ "\n")
      else if o.has 'c' then Run.say (front ++ toString hits.length ++ "\n")
      else
        for (l, i) in hits do
          let front := front ++ (if o.has 'n' then toString (i + 1) ++ ":" else "")
          if o.has 'o' then
            for r in regexes do
              for part in matchesIn r (o.has 'i') (l.length + 1) l.toList do
                Run.say (front ++ part ++ "\n")
          else Run.say (front ++ l ++ "\n")
  return if broken && !(found && o.has 'q') then 2 else if found then 0 else 1

/-- A command of `sed` on the lines that its addresses select. -/
inductive SedCommand where
  | substitute (r : Regex) (fold everywhere print : Bool) (replacement : List Char)
  | delete
  | print
  | quit

/-- A place in a text by line number or by pattern. -/
inductive SedAddress where
  | line (n : Nat)
  | last
  | matching (r : Regex)

/-- A command with the addresses of the lines on which it acts. -/
structure SedRule where
  first : Option SedAddress
  last : Option SedAddress
  command : SedCommand

/-- The text up to a delimiter that no backslash guards, and what follows it. -/
def delimited (d : Char) : List Char → List Char × List Char
  | [] => ([], [])
  | '\\' :: c :: rest =>
    let (inside, after) := delimited d rest
    (if c == d then (c :: inside, after) else ('\\' :: c :: inside, after))
  | c :: rest =>
    if c == d then ([], rest)
    else
      let (inside, after) := delimited d rest
      (c :: inside, after)

/-- An address at the start of a command. -/
def sedAddress (extended : Bool) (cs : List Char) : Option SedAddress × List Char :=
  match cs with
  | '$' :: rest => (some .last, rest)
  | '/' :: rest =>
    let (text, after) := delimited '/' rest
    (some (.matching (.ofText extended (.ofList text))), after)
  | _ =>
    let ds := cs.takeWhile Char.isDigit
    if ds.isEmpty then (none, cs)
    else (some (.line (numberOf ds)), cs.drop ds.length)

/-- A rule as `sed` writes it. -/
def sedRule? (extended : Bool) (text : List Char) : Option SedRule := do
  let cs := text.dropWhile (· == ' ')
  let (first, cs) := sedAddress extended cs
  let (last, cs) := match cs with
    | ',' :: rest => sedAddress extended rest
    | cs => (none, cs)
  match cs.dropWhile (· == ' ') with
  | ['d'] => some ⟨first, last, .delete⟩
  | ['p'] => some ⟨first, last, .print⟩
  | ['q'] => some ⟨first, last, .quit⟩
  | 's' :: d :: rest =>
    let (pattern, rest) := delimited d rest
    let (replacement, flags) := delimited d rest
    some ⟨first, last, .substitute (.ofText extended (.ofList pattern)) (flags.contains 'I')
      (flags.contains 'g') (flags.contains 'p') replacement⟩
  | _ => none

/-- The rules of a program of `sed`: one a line or between semicolons. -/
def sedRules? (extended : Bool) (program : String) : Option (List SedRule) :=
  ((pieces (program.length + 1) program.toList []).filter
    fun p => !(p.all (· == ' '))).mapM (sedRule? extended)
where
  /-- Cuts at line breaks and at semicolons that end a command. -/
  pieces : Nat → List Char → List Char → List (List Char)
    | 0, _, acc => [acc.reverse]
    | fuel + 1, cs, acc =>
      match cs with
      | [] => [acc.reverse]
      | '\n' :: rest => acc.reverse :: pieces fuel rest []
      | ';' :: rest =>
        if (sedRule? extended acc.reverse).isSome && !(openSubstitution acc.reverse) then
          acc.reverse :: pieces fuel rest []
        else pieces fuel rest (';' :: acc)
      | c :: rest => pieces fuel rest (c :: acc)
  /-- Whether a substitution lacks its last delimiter. -/
  openSubstitution (cs : List Char) : Bool :=
    match cs.dropWhile (fun c => c == ' ' || c.isDigit) with
    | 's' :: d :: rest => (rest.filter (· == d)).length < 2
    | _ => false

/-- The text that replaces a match. -/
def replacementText (m : Regex.Match) : List Char → List Char
  | '\\' :: c :: rest =>
    (if c.isDigit then
      if c == '0' then m.text else (m.groups.lookup (c.toNat - 48)).getD []
    else if c == 'n' then ['\n'] else if c == 't' then ['\t'] else [c]) ++ replacementText m rest
  | '&' :: rest => m.text ++ replacementText m rest
  | c :: rest => c :: replacementText m rest
  | [] => []

/-- A line with the first or every match replaced, and whether there was one. -/
def substitute (r : Regex) (fold everywhere : Bool) (replacement : List Char) :
    Nat → Bool → List Char → List Char × Bool
  | 0, _, cs => (cs, false)
  | fuel + 1, atStart, cs =>
    match Regex.findFrom r fold atStart [] cs with
    | none => (cs, false)
    | some m =>
      let new := m.before ++ replacementText m replacement
      if !everywhere then (new ++ m.after, true)
      else if m.text.isEmpty then
        match m.after with
        | c :: rest =>
          (new ++ c :: (substitute r fold everywhere replacement fuel false rest).1, true)
        | [] => (new, true)
      else (new ++ (substitute r fold everywhere replacement fuel false m.after).1, true)

/-- Whether an address is met. -/
def SedAddress.meets (a : SedAddress) (n total : Nat) (line : List Char) : Bool :=
  match a with
  | .line m => n == m
  | .last => n == total
  | .matching r => (r.find? false line).isSome

/-- The output of a program of `sed` on lines. `open_` tells which ranges are entered. -/
def sedLines (silent : Bool) (rules : List SedRule) (total : Nat) :
    Nat → List Nat → List String → List String
  | _, _, [] => []
  | n, entered, l :: ls =>
    let (line, out, deleted, quits, entered) :=
      rules.zipIdx.foldl (fun (line, out, deleted, quits, entered) (rule, i) =>
        if deleted || quits then (line, out, deleted, quits, entered)
        else
          let (acts, entered) : Bool × List Nat := match rule.first, rule.last with
            | none, _ => (true, entered)
            | some a, none => (a.meets n total line, entered)
            | some a, some b =>
              if entered.contains i then
                (true, if b.meets n total line then entered.erase i else entered)
              else if a.meets n total line then
                let closed : Bool := match b with
                  | .line m => m ≤ n
                  | _ => false
                (true, if closed then entered else i :: entered)
              else (false, entered)
          if !acts then (line, out, deleted, quits, entered)
          else
            match rule.command with
            | .delete => (line, out, true, quits, entered)
            | .print => (line, out ++ [line], deleted, quits, entered)
            | .quit => (line, out, deleted, true, entered)
            | .substitute r fold everywhere print replacement =>
              let (new, hit) :=
                substitute r fold everywhere replacement (line.length + 1) true line
              (new, if hit && print then out ++ [new] else out, deleted, quits, entered))
        (l.toList, [], false, false, entered)
    let shown := (out ++ if silent || deleted then [] else [line]).map String.ofList
    shown ++ if quits then [] else sedLines silent rules total (n + 1) entered ls

def sed : Utility := fun args => do
  let o := parse "ef" (args.map fun a => if a.startsWith "-i" then "-i" else a)
  let extended := o.has 'E' || o.has 'r'
  let (programs, operands) : List String × List String := match o.given.filter (·.1 == 'e') with
    | [] => (o.operands.take 1, o.operands.drop 1)
    | given => (given.map (·.2), o.operands)
  match sedRules? extended ("\n".intercalate programs) with
  | none =>
    complain "sed" "-e expression #1, char 1: unknown command"
    return 1
  | some rules =>
    let work (bytes : ByteArray) : String :=
      let lines := linesOf bytes
      let text := joinLines (sedLines (o.has 'n') rules lines.length 1 [] lines)
      if bytes.toList.getLast?.any (· != 10) && text.endsWith "\n" then (text.dropEnd 1).toString
      else text
    if o.has 'i' then
      let mut status := 0
      for operand in operands do
        match ← contentOf operand with
        | .ok bytes =>
          let path ← Run.absolute operand
          let _ ← Run.changeDisk fun d now => d.write path (work bytes).toUTF8 now
        | .error e =>
          complain "sed" ("can't read " ++ operand ++ ": " ++ e.words)
          status := 2
      return status
    else
      eachContent operands 2 (fun operand e =>
        complain "sed" ("can't read " ++ operand ++ ": " ++ e.words)) fun _ bytes =>
          Run.say (work bytes)

/-! ## Files -/

/-- Goes through operands with an operation that may fail with a message. -/
def eachOperand (program : String) (operands : List String)
    (f : String → Run (Except String Unit)) : Run Nat := do
  let mut status := 0
  for operand in operands do
    match ← f operand with
    | .ok () => pure ()
    | .error text =>
      complain program text
      status := 1
  return status

/-- A result with the error told in words behind a text. -/
def worded {α : Type} (text : String) (r : Except SystemError α) : Except String α :=
  r.mapError fun e => text ++ ": " ++ e.words

def ls : Utility := fun args => do
  let o := parse "wIT" args
  let operands := if o.operands.isEmpty then ["."] else o.operands
  let d ← Run.disk
  let mut status := 0
  let mut files : List String := []
  let mut dirs : List (String × Location) := []
  for operand in operands do
    let path ← Run.absolute operand
    match d.stat path, d.locate path with
    | .ok e, .ok l =>
      if e.isDirectory && !o.has 'd' then dirs := dirs ++ [(operand, l)]
      else files := files ++ [operand]
    | .error e, _ | _, .error e =>
      complain "ls" ("cannot access " ++ quoted operand ++ ": " ++ e.words)
      status := 2
  Run.say (joinLines (files.mergeSort fun a b => a ≤ b))
  let mut first := files.isEmpty
  for (operand, l) in dirs.mergeSort fun a b => a.1 ≤ b.1 do
    if operands.length > 1 then
      Run.say ((if first then "" else "\n") ++ operand ++ ":\n")
    first := false
    let names := d.names l
    let names := if o.has 'a' then "." :: ".." :: names
      else if o.has 'A' then names else names.filter (!·.startsWith ".")
    Run.say (joinLines (if o.has 'r' then names.reverse else names))
  return status

def rm : Utility := fun args => do
  let o := parse "" args
  let force := o.has 'f'
  let deep := o.has 'r' || o.has 'R'
  eachOperand "rm" o.operands fun operand => do
    let path ← Run.absolute operand
    let d ← Run.disk
    let text := "cannot remove " ++ quoted operand
    match d.locate path false with
    | .error .notFound => return if force then .ok () else worded text (.error .notFound)
    | .error e => return worded text (.error e)
    | .ok l =>
      match d.at? l with
      | none => return if force then .ok () else worded text (.error .notFound)
      | some .directory =>
        if deep then return worded text (← Run.changeDisk fun d _ => .ok (d.prune l))
        else if o.has 'd' && (d.names l).isEmpty then
          return worded text (← Run.changeDisk fun d _ => .ok (d.erase l))
        else return worded text (.error .isDirectory)
      | some _ => return worded text (← Run.changeDisk fun d _ => .ok (d.erase l))

def rmdir : Utility := fun args =>
  eachOperand "rmdir" (parse "" args).operands fun operand => do
    let path ← Run.absolute operand
    let text := "failed to remove " ++ quoted operand
    return worded text (← Run.changeDisk fun d _ => do
      let l ← d.locate path false
      match d.at? l with
      | some .directory => if (d.names l).isEmpty then .ok (d.erase l) else .error .notEmpty
      | some _ => .error .notDirectory
      | none => .error .notFound)

def mkdir : Utility := fun args => do
  let o := parse "m" args
  eachOperand "mkdir" o.operands fun operand => do
    let path ← Run.absolute operand
    let text := "cannot create directory " ++ quoted operand
    return worded text (← Run.changeDisk fun d _ =>
      if o.has 'p' then d.makeDirectories path else d.makeDirectory path)

def touch : Utility := fun args => do
  let o := parse "drt" args
  eachOperand "touch" o.operands fun operand => do
    let path ← Run.absolute operand
    let text := "cannot touch " ++ quoted operand
    return worded text (← Run.changeDisk fun d now =>
      match d.stat path with
      | .ok (.file content _ _) => d.write path content now
      | .ok _ => .ok d
      | .error _ => if o.has 'c' then .ok d else d.write path .empty now)

/-- The path of an entry put into a directory, if the target is one. -/
def intoDirectory (d : Disk) (source target : Path) : Path :=
  if d.isDirectory target then target ++ (source.fileName?.getD "") else target

/-- The disk with a tree copied to a location. -/
def copyTree (d : Disk) (source target : Location) (now : Nat) : Disk :=
  d.entries.foldl (fun acc (l, e) =>
    if source.isPrefixOf l then
      acc.put (target ++ l.drop source.length)
        (match e with
          | .file content mode _ => .file content mode now
          | e => e)
    else acc) d

def cp : Utility := fun args => do
  let o := parse "t" args
  match o.operands.reverse with
  | target :: sources@(_ :: _) =>
    let targetPath ← Run.absolute target
    if sources.length > 1 && !(← Run.disk).isDirectory targetPath then
      complain "cp" ("target " ++ quoted target ++ ": No such file or directory")
      return 1
    eachOperand "cp" sources.reverse fun operand => do
      let path ← Run.absolute operand
      let d ← Run.disk
      let goal := intoDirectory d path targetPath
      match d.stat path with
      | .error e => return worded ("cannot stat " ++ quoted operand) (.error e)
      | .ok (.file content mode _) =>
        return worded ("cannot create regular file " ++ quoted target)
          (← Run.changeDisk fun d now => d.write goal content now mode)
      | .ok _ =>
        if !(o.has 'r' || o.has 'R' || o.has 'a') then
          return .error ("-r not specified; omitting directory " ++ quoted operand)
        return worded ("cannot create directory " ++ quoted target)
          (← Run.changeDisk fun d now => do
            return copyTree d (← d.locate path) (← d.locate goal) now)
  | _ =>
    complain "cp" "missing file operand"
    return 1

def mv : Utility := fun args => do
  let o := parse "t" args
  match o.operands.reverse with
  | target :: sources@(_ :: _) =>
    let targetPath ← Run.absolute target
    eachOperand "mv" sources.reverse fun operand => do
      let path ← Run.absolute operand
      let goal := intoDirectory (← Run.disk) path targetPath
      match (← Run.disk).stat path with
      | .error e => return worded ("cannot stat " ++ quoted operand) (.error e)
      | .ok _ =>
        return worded ("cannot move " ++ quoted operand ++ " to " ++ quoted target)
          (← Run.changeDisk fun d now => do
            let source ← d.locate path false
            let goal ← d.locate goal false
            if source = goal then .ok d
            else .ok ((copyTree (d.prune goal) source goal now).prune source))
  | _ =>
    complain "mv" "missing file operand"
    return 1

def ln : Utility := fun args => do
  let o := parse "t" args
  match o.operands with
  | [target, name] =>
    eachOperand "ln" [name] fun name => do
      let path := intoDirectory (← Run.disk) ⟨target⟩ (← Run.absolute name)
      let source ← Run.absolute target
      return worded ("failed to create link " ++ quoted name)
        (← Run.changeDisk fun d _ => do
          let l ← d.locate path false
          if (d.at? l).isSome && !o.has 'f' then .error .alreadyExists
          else if o.has 's' then .ok (d.put l (.link ⟨target⟩))
          else .ok (d.put l (← d.stat source)))
  | _ =>
    complain "ln" "missing file operand"
    return 1

/-- The permission bits that a mode such as `755` or `u+x` makes of some. -/
def modeOf (text : String) (mode : Nat) : Nat :=
  if !text.isEmpty && text.toList.all (fun c => '0' ≤ c && c ≤ '7') then
    text.toList.foldl (fun n c => 8 * n + (c.toNat - 48)) 0 % 4096
  else
    (text.splitOn ",").foldl (fun mode part =>
      let cs := part.toList
      let who := cs.takeWhile fun c => "ugoa".toList.contains c
      let bits := (cs.drop (who.length + 1)).foldl (fun n c =>
        Nat.lor n (if c == 'r' then 4 else if c == 'w' then 2 else if c == 'x' then 1 else 0)) 0
      let whole := who.isEmpty || who.contains 'a'
      let mask := (if whole || who.contains 'u' then 64 * bits else 0) +
        (if whole || who.contains 'g' then 8 * bits else 0) +
        (if whole || who.contains 'o' then bits else 0)
      match cs[who.length]? with
      | some '+' => Nat.lor mode mask
      | some '-' => mode - Nat.land mode mask
      | some '=' => mask
      | _ => mode) mode

def chmod : Utility := fun args => do
  let (modes, operands) := ((args.filter (· != "-R")).take 1, (args.filter (· != "-R")).drop 1)
  eachOperand "chmod" operands fun operand => do
    let path ← Run.absolute operand
    return worded ("cannot access " ++ quoted operand) (← Run.changeDisk fun d _ => do
      let l ← d.locate path
      match d.at? l with
      | some (.file content mode modified) =>
        .ok (d.put l (.file content (modeOf (modes.headD "") mode) modified))
      | some _ => .ok d
      | none => .error .notFound)

def tee : Utility := fun args => do
  let o := parse "" args
  let bytes ← Run.readAll
  Run.write 1 bytes
  eachOperand "tee" o.operands fun operand => do
    let path ← Run.absolute operand
    return worded operand (← Run.changeDisk fun d now =>
      let before := if o.has 'a' then (d.read path).toOption.getD .empty else .empty
      d.write path (before ++ bytes) now)

/-- The last name of a path. -/
def basename : Utility := fun args => do
  let name := ((⟨args.headD ""⟩ : Path).fileName?).getD "/"
  let ending := args.getD 1 ""
  Run.say ((if ending != "" && name != ending && name.endsWith ending then
    (name.dropEnd ending.length).toString else name) ++ "\n")
  return 0

/-- A path without its last name. -/
def dirname : Utility := fun args => do
  let p : Path := ⟨args.headD ""⟩
  let above := match p.parent? with
    | some q => if q.text.isEmpty then "." else q.text
    | none => if p.isAbsolute then "/" else "."
  Run.say (above ++ "\n")
  return 0

/-- Whether an entry is listed by `find` with these tests. -/
def found (tests : List (String × String)) (name : String) (e : Entry) : Bool :=
  tests.all fun (test, value) =>
    match test with
    | "-name" => (Pattern.ofGlyphs (value.toList.map (·, false))).accepts name.toList
    | "-type" => if value == "f" then e.isFile else if value == "d" then e.isDirectory else true
    | _ => true

/-- The tests among arguments of `find`, two by two. -/
def findTests : List String → List (String × String)
  | test :: value :: rest =>
    if ["-name", "-type", "-maxdepth", "-mindepth"].contains test then
      (test, value) :: findTests rest
    else findTests (value :: rest)
  | _ => []

def find : Utility := fun args => do
  let starts := args.takeWhile fun a => !a.startsWith "-"
  let rest := args.drop starts.length
  let tests := findTests rest
  let starts := if starts.isEmpty then ["."] else starts
  let d ← Run.disk
  let mut status := 0
  for start in starts do
    match d.locate (← Run.absolute start) with
    | .ok l =>
      match d.at? l with
      | none =>
        complain "find" (quoted start ++ ": " ++ SystemError.notFound.words)
        status := 1
      | some e =>
        let below := (d.entries.filter fun (m, _) => l.isPrefixOf m && m ≠ l).mergeSort
          fun a b => "/".intercalate a.1 ≤ "/".intercalate b.1
        for (m, e) in (l, e) :: below do
          let inner := m.drop l.length
          let shown := if inner.isEmpty then start
            else (if start.endsWith "/" then start else start ++ "/") ++ "/".intercalate inner
          let name := (inner.getLast?).getD (((⟨start⟩ : Path).fileName?).getD start)
          let limit := ((tests.lookup "-maxdepth").bind String.toNat?).getD inner.length
          if found tests name e && inner.length ≤ limit then
            if rest.contains "-delete" then
              let _ ← Run.changeDisk fun d _ => .ok (d.prune m)
            else Run.say (shown ++ "\n")
    | .error e =>
      complain "find" (quoted start ++ ": " ++ e.words)
      status := 1
  return status

/-! ## Other programs -/

/-- The echo program: escapes have a meaning only if asked for. -/
def echo : Utility := fun args => do
  let isFlag (a : String) : Bool :=
    match a.toList with
    | '-' :: cs@(_ :: _) => cs.all fun c => c == 'n' || c == 'e' || c == 'E'
    | _ => false
  let flags := args.takeWhile isFlag
  let text := " ".intercalate (args.drop flags.length)
  let letters := flags.flatMap (·.toList)
  let last := (letters.filter fun c => c == 'e' || c == 'E').getLast?
  let (bytes, ended) := if last == some 'e' then
      Format.unescape .behindZero true (text.length + 1) text.toList
    else (Format.bytesOfText text, false)
  Run.write 1 ⟨(bytes ++ if letters.contains 'n' || ended then [] else [10]).toArray⟩
  return 0

def printf : Utility := fun args => do
  match args with
  | [] =>
    complain "printf" "missing operand"
    return 1
  | format :: rest =>
    let r := Format.printf true format rest
    for f in r.faults do complain "printf" (quoted f ++ ": expected a numeric value")
    Run.write 1 ⟨r.output.toArray⟩
    if let some d := r.badDirective then
      complain "printf" ("%" ++ d ++ ": invalid conversion specification")
    return if r.faults.isEmpty && r.badDirective.isNone then 0 else 1

/-- The milliseconds that an argument of `sleep` writes. -/
def duration? (s : String) : Option Nat :=
  let cs := s.toList
  let digits := cs.takeWhile fun c => c.isDigit || c == '.'
  let unit : Option Nat := match cs.drop digits.length with
    | [] | ['s'] => some 1000
    | ['m'] => some 60000
    | ['h'] => some 3600000
    | ['d'] => some 86400000
    | _ => none
  let whole := digits.takeWhile Char.isDigit
  let part := (digits.drop (whole.length + 1)).take 6
  if s == "infinity" || s == "inf" then some Run.never
  else if (whole ++ part).isEmpty || !part.all Char.isDigit then none
  else unit.map fun u =>
    numberOf whole * u + numberOf part * u / Nat.pow 10 part.length

def sleep : Utility := fun args => do
  match args.mapM duration? with
  | none =>
    let bad := (args.find? fun a => (duration? a).isNone).getD ""
    complain "sleep" ("invalid time interval " ++ quoted bad ++
      "\nTry 'sleep --help' for more information.")
    return 1
  | some [] =>
    complain "sleep" "missing operand\nTry 'sleep --help' for more information."
    return 1
  | some ms =>
    let _ ← Run.passUntil ((← Run.look (·.time)) + MachineWord.total ms)
    return 0

def yes : Utility := fun args => do
  let line := (if args.isEmpty then "y" else " ".intercalate args) ++ "\n"
  Run.say (String.join (List.replicate 4000 line))
  return 0

def pwd : Utility := fun _ => do
  let path := (← Run.frame).directory
  let shown := ((← Run.disk).canonical path).toOption.getD path
  Run.say (shown.text ++ "\n")
  return 0

def env : Utility := fun _ => do
  let f ← Run.frame
  Run.say (joinLines (f.exported.filterMap fun name =>
    (f.value? name).map fun v => name ++ "=" ++ v))
  return 0

def date : Utility := fun _ => do
  Run.say "Sun Jun  1 12:00:00 UTC 2025\n"
  return 0

def cmp : Utility := fun args => do
  let o := parse "" args
  match o.operands with
  | [first, second] =>
    match ← contentOf first, ← contentOf second with
    | .ok a, .ok b =>
      let same := ((a.toList.zip b.toList).takeWhile fun (x, y) => x == y).length
      if a.toList == b.toList then return 0
      if !o.has 's' then
        let line := (a.toList.take same).count 10 + 1
        if same == a.size || same == b.size then
          complain "cmp" ("EOF on " ++ (if same == a.size then first else second) ++
            " after byte " ++ toString same ++ ", line " ++ toString line)
        else
          Run.say (first ++ " " ++ second ++ " differ: char " ++ toString (same + 1) ++
            ", line " ++ toString line ++ "\n")
      return 1
    | .error e, _ =>
      complain "cmp" (first ++ ": " ++ e.words)
      return 2
    | _, .error e =>
      complain "cmp" (second ++ ": " ++ e.words)
      return 2
  | _ =>
    complain "cmp" "missing operand"
    return 2

/-- The text that a format of `stat` makes of a file. -/
def statText (name : String) (size mode : Nat) : List Char → String
  | '%' :: c :: rest =>
    (if c == 'a' then .ofList (Nat.toDigits 8 mode) else if c == 's' then toString size
      else if c == 'n' then name else "%" ++ String.singleton c) ++ statText name size mode rest
  | c :: rest => String.singleton c ++ statText name size mode rest
  | [] => ""

def stat : Utility := fun args => do
  let o := parse "c" args
  eachOperand "stat" o.operands fun operand => do
    match (← Run.disk).stat (← Run.absolute operand) with
    | .error e => return worded ("cannot statx " ++ quoted operand) (.error e)
    | .ok e =>
      let (size, mode) : Nat × Nat := match e with
        | .file content mode _ => (content.size, mode)
        | _ => (4096, 0o755)
      Run.say (statText operand size mode ((o.value? 'c').getD "%n").toList ++ "\n")
      return .ok ()

/-- The path of an operand free of links. -/
def realpath : Utility := fun args =>
  eachOperand "realpath" (parse "" args).operands fun operand => do
    match (← Run.disk).canonical (← Run.absolute operand) with
    | .error e => return worded operand (.error e)
    | .ok p =>
      Run.say (p.text ++ "\n")
      return .ok ()

/-- The target of a link, or with an option the path free of links. -/
def readlink : Utility := fun args => do
  let o := parse "" args
  if o.has 'f' then realpath o.operands
  else
    let d ← Run.disk
    let mut status := 0
    for operand in o.operands do
      match ((d.locate (← Run.absolute operand) false).toOption).bind d.at? with
      | some (.link target) => Run.say (target.text ++ "\n")
      | _ => status := 1
    return status

def expr : Utility := fun args => do
  let result : Option String := match args with
    | [a] => some a
    | [a, o, b] =>
      match Arithmetic.integer? a, Arithmetic.integer? b with
      | some x, some y =>
        let o := if o == "=" then "==" else o
        ((Arithmetic.binary "" o x y).toOption).map toString
      | _, _ => if o == "=" then some (if a == b then "1" else "0")
        else if o == "!=" then some (if a == b then "0" else "1") else none
    | _ => none
  match result with
  | some r =>
    Run.say (r ++ "\n")
    return if r == "0" || r == "" then 1 else 0
  | none =>
    complain "expr" "non-integer argument"
    return 2

/-- Programs by their names. -/
def table : List (String × Utility) :=
  [("cat", cat), ("head", head), ("tail", tail), ("wc", wc), ("sort", sort), ("uniq", uniq),
   ("seq", seq), ("tr", tr), ("cut", cut), ("grep", grepAs 'G'), ("egrep", grepAs 'E'),
   ("fgrep", grepAs 'F'), ("sed", sed), ("ls", ls), ("rm", rm), ("rmdir", rmdir),
   ("mkdir", mkdir), ("touch", touch), ("cp", cp), ("mv", mv), ("ln", ln), ("chmod", chmod),
   ("tee", tee), ("basename", basename), ("dirname", dirname), ("find", find), ("echo", echo),
   ("printf", printf), ("sleep", sleep), ("yes", yes), ("pwd", pwd), ("printenv", env),
   ("true", fun _ => pure 0), ("false", fun _ => pure 1), ("sync", fun _ => pure 0),
   ("date", date), ("cmp", cmp), ("stat", stat), ("realpath", realpath), ("readlink", readlink),
   ("expr", expr),
   ("whoami", fun _ => do Run.say "root\n"; return 0),
   ("id", fun args => do
      Run.say (if args.contains "-u" || args.contains "-g" then "0\n"
        else "uid=0(root) gid=0(root) groups=0(root)\n")
      return 0)]

/-- Programs that run other programs, or that the shell has built in as well. -/
def runnerNames : List String :=
  ["sh", "dash", "bash", "env", "nohup", "setsid", "timeout", "xargs", "nice", "test", "[", "kill"]

/-- The names of all programs. -/
def names : List String := table.map (·.1) ++ runnerNames

/-- How the file of an installed program starts. -/
def magic : ByteArray := ⟨#[127, 69, 76, 70]⟩

/-- The file of an installed program. -/
def image (name : String) : ByteArray := magic ++ name.toUTF8

/-- The directory of the installed programs. -/
def directory : Location := ["usr", "bin"]

/-- The disk with all programs installed. -/
def install (d : Disk) : Disk :=
  names.foldl (fun d name => d.put (directory ++ [name]) (.file (image name) 0o755 0)) d

/-- The program whose file this is. -/
def imageName? (bytes : ByteArray) : Option String :=
  if (bytes.extract 0 4).data = magic.data then String.fromUTF8? (bytes.extract 4 bytes.size) else none

end Utility

end Amend.Shell
