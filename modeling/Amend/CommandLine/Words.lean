import Amend.Uid

/-!
# Words of a command line

A command line is read word by word on one level after the other: the program's own options first,
then, after the name of a command, that command's. A word is an option, the value of the option
before it, a flag, an operand or a command. The value of an option that stands in a word of its own
is looked at when the next option, flag or operand is met, so a request for help right after it
wins over a bad value only where a command comes between.
-/

namespace Amend

/-- Why a command line starts nothing. -/
inductive Refusal where
  /-- Help was asked for. -/
  | help
  /-- It is not a command line of the program. -/
  | misuse
deriving DecidableEq

namespace CommandLine

/-- What the value of an option or an operand is. -/
inductive ValueKind where
  | path
  | identifier
deriving DecidableEq

/-- Whether a text can be such a value. -/
def ValueKind.accepts : ValueKind → String → Bool
  | .path, text => text ≠ ""
  | .identifier, text => (Uid.ofText? text).isSome

/-- What one level of a command line understands. -/
structure Level where
  options : List (String × ValueKind)
  flags : List String := []
  /-- How many operands there may be; they are paths. -/
  operands : Nat := 0
  commands : List String := []

/-- What was read on a level. -/
structure Words where
  values : List (String × String) := []
  flags : List String := []
  operands : List String := []
  /-- An option whose value is still to come or to be looked at. -/
  pending : Option (String × Option String) := none

namespace Words

/-- The value of an option. -/
def value? (s : Words) (option : String) : Option String := s.values.lookup option

/-- The words with an option given a value; an option is given once on a level. -/
def give (l : Level) (s : Words) (option text : String) : Except Refusal Words :=
  match l.options.lookup option with
  | some kind =>
    if kind.accepts text && (s.value? option).isNone then
      .ok { s with values := s.values ++ [(option, text)] }
    else .error .misuse
  | none => .error .misuse

/-- The words with the pending option given its value. -/
def settle (l : Level) (s : Words) : Except Refusal Words :=
  match s.pending with
  | none => .ok s
  | some (_, none) => .error .misuse
  | some (option, some text) => { s with pending := none }.give l option text

/-- The words with one more operand. -/
def addOperand (l : Level) (s : Words) (text : String) : Except Refusal Words := do
  let s ← s.settle l
  if s.operands.length < l.operands && ValueKind.path.accepts text then
    return { s with operands := s.operands ++ [text] }
  else throw .misuse

/-- The words with one more flag; a flag is given once. -/
def addFlag (l : Level) (s : Words) (flag : String) : Except Refusal Words := do
  let s ← s.settle l
  if l.flags.contains flag && !s.flags.contains flag then
    return { s with flags := s.flags ++ [flag] }
  else throw .misuse

/-- The words after a word with two dashes, given by its name and by what follows an equals sign
in it. -/
def addLong (l : Level) (s : Words) (name : String) (text : Option String) :
    Except Refusal Words := do
  if (l.options.lookup name).isSome then
    let s ← s.settle l
    match text with
    | some text => s.give l name text
    | none => return { s with pending := some (name, none) }
  else if text.isSome then throw .misuse
  else if name = "help" then
    let _ ← s.settle l
    throw .help
  else s.addFlag l name

/-- The words after a word with one dash, given by the characters behind it. -/
def addShort (l : Level) (s : Words) (letters : List Char) : Except Refusal Words := do
  if letters.head? = some 'h' then
    let _ ← s.settle l
    throw .help
  else throw .misuse

end Words

/-- The name of a long option and what follows an equals sign. -/
def splitValue (cs : List Char) : String × Option String :=
  let name := String.ofList (cs.takeWhile (· ≠ '='))
  match cs.dropWhile (· ≠ '=') with
  | _ :: text => (name, some (.ofList text))
  | [] => (name, none)

namespace Level

/-- The words of a level, and the command that ends it with the arguments behind it. -/
def read (l : Level) (s : Words) : List String → Except Refusal (Words × Option (String × List String))
  | [] => .ok (s, none)
  | word :: rest =>
    match s.pending, word.toList with
    | some (option, none), cs =>
      if cs.head? = some '-' && cs.length > 1 then .error .misuse
      else l.read { s with pending := some (option, some word) } rest
    | _, cs =>
      if l.commands.contains word then .ok (s, some (word, rest))
      else
        match cs with
        | ['-', '-'] => do return (← rest.foldlM (Words.addOperand l) s, none)
        | '-' :: '-' :: more => do
          let (name, text) := splitValue more
          l.read (← s.addLong l name text) rest
        | '-' :: c :: more => do l.read (← s.addShort l (c :: more)) rest
        | _ => do l.read (← s.addOperand l word) rest

end Level

end CommandLine

end Amend
