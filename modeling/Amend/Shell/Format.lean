import Amend.Shell.Arithmetic
import Amend.Text.Hex

/-!
# Formatted output

Escapes in texts and the format language of `printf`. A format is gone through again as long as
arguments are left and it takes any.
-/

namespace Amend.Shell.Format

/-- The byte of up to `n` octal digits, and what follows them. -/
def octal (n : Nat) (cs : List Char) : Nat × List Char :=
  let digits := (cs.take n).takeWhile fun c => '0' ≤ c && c ≤ '7'
  (digits.foldl (fun v c => 8 * v + (c.toNat - 48)) 0 % 256, cs.drop digits.length)

/-- The bytes of a character. -/
def bytesOf (c : Char) : List UInt8 := (String.singleton c).toUTF8.toList

/-- The bytes of a text. -/
def bytesOfText (s : String) : List UInt8 := s.toUTF8.toList

/-- Letters that a backslash turns into a byte. -/
def letterEscapes : List (Char × UInt8) :=
  [('a', 7), ('b', 8), ('f', 12), ('n', 10), ('r', 13), ('t', 9), ('v', 11), ('\\', 92)]

/-- How octal bytes are written: behind a zero, or at once. -/
inductive OctalStyle where
  | behindZero
  | direct
deriving DecidableEq

/-- What a backslash and what follows it stand for, and the rest; no bytes where output ends. -/
def escape (style : OctalStyle) (hex : Bool) (cs : List Char) : Option (List UInt8) × List Char :=
  match cs with
  | [] => (some [92], [])
  | c :: rest =>
    match letterEscapes.lookup c with
    | some b => (some [b], rest)
    | none =>
      if c == 'c' && style == .behindZero then (none, [])
      else if c == 'x' && hex then
        let digits := (rest.take 2).takeWhile fun d => (Text.hexValue? d.toLower).isSome
        if digits.isEmpty then (some [92, 120], rest)
        else
          let v := digits.foldl (fun v d => 16 * v + (Text.hexValue? d.toLower).getD 0) 0
          (some [v.toUInt8], rest.drop digits.length)
      else if c == '0' && style == .behindZero then
        let (v, rest) := octal 3 rest
        (some [v.toUInt8], rest)
      else if '0' ≤ c && c ≤ '7' && style == .direct then
        let (v, rest) := octal 3 cs
        (some [v.toUInt8], rest)
      else (some (92 :: bytesOf c), rest)

/-- The bytes of a text with escapes, and whether output ends there. -/
def unescape (style : OctalStyle) (hex : Bool) : Nat → List Char → List UInt8 × Bool
  | 0, _ => ([], false)
  | fuel + 1, cs =>
    match cs with
    | [] => ([], false)
    | '\\' :: rest =>
      match escape style hex rest with
      | (some bs, rest) =>
        let (more, ended) := unescape style hex fuel rest
        (bs ++ more, ended)
      | (none, _) => ([], true)
    | c :: rest =>
      let (more, ended) := unescape style hex fuel rest
      (bytesOf c ++ more, ended)

/-- What has been written and what is left to write from. -/
structure State where
  output : List UInt8 := []
  arguments : List String
  /-- Whether an argument was taken. -/
  took : Bool := false
  ended : Bool := false
  /-- Arguments that are no numbers though they should be. -/
  faults : List String := []
  /-- A directive that there is not; it ends the output. -/
  badDirective : Option String := none

/-- How a value is laid out. -/
structure Layout where
  left : Bool := false
  zeros : Bool := false
  plus : Bool := false
  space : Bool := false
  alternate : Bool := false
  width : Nat := 0
  precision : Option Nat := none

/-- The next argument, if there is one. -/
def State.next (s : State) : Option String × State :=
  match s.arguments with
  | a :: rest => (some a, { s with arguments := rest, took := true })
  | [] => (none, { s with took := true })

/-- Text filled up to the width. -/
def Layout.fill (l : Layout) (bytes : List UInt8) : List UInt8 :=
  let gap := List.replicate (l.width - bytes.length) 32
  if l.left then bytes ++ gap else gap ++ bytes

/-- A number with its sign, filled up to precision and width. -/
def Layout.number (l : Layout) (negative : Bool) (lead digits : String) : List UInt8 :=
  let sign := if negative then "-" else if l.plus then "+" else if l.space then " " else ""
  let zeros (n : Nat) := String.ofList (List.replicate n '0')
  let body := zeros (l.precision.getD 0 - digits.length) ++ digits
  let front := sign ++ lead
  if l.zeros && !l.left && l.precision.isNone then
    bytesOfText (front ++ zeros (l.width - front.length - body.length) ++ body)
  else l.fill (bytesOfText (front ++ body))

/-- The digits of a number to a base. -/
def digitsTo (base : Nat) (n : Nat) : String := .ofList (Nat.toDigits base n)

/-- The number that an argument writes: a missing or empty one is zero, and a quote stands for the
code of the character behind it. -/
def argumentValue (a : Option String) : Option Int :=
  match a with
  | none | some "" => some 0
  | some s =>
    match s.toList with
    | '\'' :: c :: _ | '"' :: c :: _ => some c.toNat
    | _ => Arithmetic.integer? s

/-- Flags, width and precision, and what follows them. -/
def layoutOf (s : State) (cs : List Char) : Layout × State × List Char :=
  let flags := cs.takeWhile fun c => "-+ 0#".toList.contains c
  let cs := cs.drop flags.length
  let l : Layout := { left := flags.contains '-', plus := flags.contains '+'
                      space := flags.contains ' ', zeros := flags.contains '0'
                      alternate := flags.contains '#' }
  let count (s : State) (cs : List Char) : Int × State × List Char :=
    match cs with
    | '*' :: rest =>
      let (a, s) := s.next
      ((argumentValue a).getD 0, s, rest)
    | _ =>
      let ds := cs.takeWhile Char.isDigit
      ((numberOf ds : Int), s, cs.drop ds.length)
  let (width, s, cs) := count s cs
  let l := { l with width := width.natAbs, left := l.left || width < 0 }
  match cs with
  | '.' :: rest =>
    let (precision, s, rest) := count s rest
    ({ l with precision := some precision.toNat }, s, rest)
  | _ => (l, s, cs)

/-- The output of one conversion. -/
def convert (hex : Bool) (l : Layout) (kind : Char) (s : State) : State :=
  let put (s : State) (bs : List UInt8) : State := { s with output := s.output ++ bs }
  let cut (bs : List UInt8) : List UInt8 :=
    match l.precision with
    | some p => bs.take p
    | none => bs
  let (a, t) := s.next
  let numeric (f : Int → List UInt8) : State :=
    match argumentValue a with
    | some n => put t (f n)
    | none => { put t (f 0) with faults := t.faults ++ [a.getD ""] }
  match kind with
  | 's' => put t (l.fill (cut (bytesOfText (a.getD ""))))
  | 'b' =>
    let text := (a.getD "").toList
    let (bs, ended) := unescape .behindZero hex (text.length + 1) text
    { put t (l.fill (cut bs)) with ended }
  | 'c' => put t (l.fill ((bytesOfText (a.getD "")).take 1))
  | 'd' | 'i' => numeric fun n => l.number (n < 0) "" (toString n.natAbs)
  | 'u' => numeric fun n => l.number false "" (toString (MachineWord.unsigned n))
  | 'o' => numeric fun n => l.number false (if l.alternate then "0" else "") (digitsTo 8 (MachineWord.unsigned n))
  | 'x' => numeric fun n =>
    l.number false (if l.alternate then "0x" else "") (digitsTo 16 (MachineWord.unsigned n))
  | 'X' => numeric fun n =>
    l.number false (if l.alternate then "0X" else "") (digitsTo 16 (MachineWord.unsigned n)).toUpper
  | c => { s with ended := true, badDirective := some (.singleton c) }

/-- Goes once through a format. -/
def pass (hex : Bool) : Nat → List Char → State → State
  | 0, _, s => s
  | fuel + 1, cs, s =>
    if s.ended then s
    else
      match cs with
      | [] => s
      | '\\' :: rest =>
        match escape .direct hex rest with
        | (some bs, rest) => pass hex fuel rest { s with output := s.output ++ bs }
        | (none, _) => { s with ended := true }
      | '%' :: '%' :: rest => pass hex fuel rest { s with output := s.output ++ [37] }
      | '%' :: rest =>
        let (l, s, rest) := layoutOf s rest
        match rest with
        | kind :: rest => pass hex fuel rest (convert hex l kind s)
        | [] => s
      | c :: rest => pass hex fuel rest { s with output := s.output ++ bytesOf c }

/-- Goes through a format until the arguments are used up. -/
def passes (hex : Bool) (format : List Char) : Nat → State → State
  | 0, s => s
  | fuel + 1, s =>
    let s := pass hex (format.length + 1) format { s with took := false }
    if s.took && !s.ended && !s.arguments.isEmpty then passes hex format fuel s else s

/-- What a format makes of arguments: the output, the arguments that are no numbers though they
should be, and a directive that there is not. -/
def printf (hex : Bool) (format : String) (arguments : List String) : State :=
  passes hex format.toList (arguments.length + 1) { arguments }

end Amend.Shell.Format
