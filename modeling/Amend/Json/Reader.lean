import Amend.Json
import Amend.Text.Hex

/-!
# Reading JSON

A text is read as exactly one value between blanks. Commas separate and never trail, a string
holds no raw control character, and a number has no leading zero, plus sign or bare point.
-/

namespace Amend.Json

namespace Reader

/-- Drops the blanks of the format: space, tab, line feed and carriage return. -/
def skipBlanks (cs : List Char) : List Char :=
  cs.dropWhile fun c => c == ' ' || c == '\t' || c == '\n' || c == '\r'

/-- The number written by four hexadecimal digits, and the rest. -/
def hex4? : List Char → Option (Nat × List Char)
  | a :: b :: c :: d :: rest => do
    let digits ← [a, b, c, d].mapM Text.hexValue?
    return (digits.foldl (fun n x => 16 * n + x) 0, rest)
  | _ => none

/-- The character of a one-letter escape. -/
def simpleEscape? : Char → Option Char
  | '"' => some '"'
  | '\\' => some '\\'
  | '/' => some '/'
  | 'b' => some '\x08'
  | 'f' => some '\x0c'
  | 'n' => some '\n'
  | 'r' => some '\r'
  | 't' => some '\t'
  | _ => none

/-- What the digits after `\u` stand for: a character, or nothing if they are half a surrogate
pair. The second half of a pair is looked for in the rest. -/
def unicodeEscape (n : Nat) (rest : List Char) : Option Char × List Char :=
  if 0xD800 ≤ n ∧ n < 0xDC00 then
    match rest with
    | '\\' :: 'u' :: more =>
      match hex4? more with
      | some (low, after) =>
        if 0xDC00 ≤ low ∧ low < 0xE000 then
          (some (Char.ofNat (0x10000 + (n - 0xD800) * 0x400 + (low - 0xDC00))), after)
        else (none, rest)
      | none => (none, rest)
    | _ => (none, rest)
  else if 0xDC00 ≤ n ∧ n < 0xE000 then (none, rest)
  else (some (Char.ofNat n), rest)

/-- Reads a string after its opening quote; `acc` holds its characters so far, last first, or
nothing once an unpaired escape was met. The fuel bounds the number of steps. -/
def stringBody : Nat → Option (List Char) → List Char → Option (Json × List Char)
  | 0, _, _ => none
  | fuel + 1, acc, cs =>
    match cs with
    | [] => none
    | '"' :: rest =>
      match acc with
      | some chars => some (.str (.ofList chars.reverse), rest)
      | none => some (.unpaired, rest)
    | '\\' :: 'u' :: rest =>
      match hex4? rest with
      | none => none
      | some (n, rest) =>
        match unicodeEscape n rest with
        | (some c, rest) => stringBody fuel (acc.map (c :: ·)) rest
        | (none, rest) => stringBody fuel none rest
    | '\\' :: e :: rest =>
      match simpleEscape? e with
      | none => none
      | some c => stringBody fuel (acc.map (c :: ·)) rest
    | c :: rest =>
      if c == '\\' || c.toNat < 0x20 then none
      else stringBody fuel (acc.map (c :: ·)) rest

/-- Reads a string after its opening quote. -/
def string? (cs : List Char) : Option (Json × List Char) :=
  stringBody (cs.length + 1) (some []) cs

/-- Whether `c` is one of the digits 0 to 9. -/
def isDigit (c : Char) : Bool := '0' ≤ c && c ≤ '9'

/-- The number that a run of digits writes. -/
def digitsValue (cs : List Char) : Nat := cs.foldl (fun n c => 10 * n + (c.toNat - 48)) 0

/-- The fraction at the front of the text: a point and at least one digit, or nothing. -/
def fraction? : List Char → Option (List Char × List Char)
  | '.' :: cs =>
    let digits := cs.takeWhile isDigit
    if digits.isEmpty then none else some ('.' :: digits, cs.dropWhile isDigit)
  | cs => some ([], cs)

/-- The exponent at the front of the text: a mark, a sign if any and at least one digit, or
nothing. -/
def exponent? : List Char → Option (List Char × List Char)
  | [] => some ([], [])
  | e :: cs =>
    if e == 'e' || e == 'E' then
      let (sign, cs) := match cs with
        | '+' :: rest => (['+'], rest)
        | '-' :: rest => (['-'], rest)
        | _ => ([], cs)
      let digits := cs.takeWhile isDigit
      if digits.isEmpty then none else some (e :: sign ++ digits, cs.dropWhile isDigit)
    else some ([], e :: cs)

/-- Reads a number. Negative zero is no whole number. -/
def number? (cs : List Char) : Option (Json × List Char) := do
  let (negative, body) := match cs with
    | '-' :: rest => (true, rest)
    | _ => (false, cs)
  let digits := body.takeWhile isDigit
  let rest := body.dropWhile isDigit
  if digits.isEmpty then none
  if digits.length > 1 ∧ digits.head? = some '0' then none
  let (frac, rest) ← fraction? rest
  let (exp, rest) ← exponent? rest
  let n := digitsValue digits
  if frac.isEmpty ∧ exp.isEmpty ∧ ¬ (negative ∧ n = 0) then
    return (.int (if negative then -(n : Int) else n), rest)
  else
    return (.real (.ofList ((if negative then ['-'] else []) ++ digits ++ frac ++ exp)), rest)

/-- What follows `word` if the text starts with it. -/
def keyword? (word : List Char) (j : Json) (cs : List Char) : Option (Json × List Char) :=
  if word.isPrefixOf cs then some (j, cs.drop word.length) else none

mutual

/-- Reads one value after blanks. The fuel bounds the nesting and the number of elements. -/
def value? : Nat → List Char → Option (Json × List Char)
  | 0, _ => none
  | fuel + 1, cs =>
    match skipBlanks cs with
    | [] => none
    | '{' :: rest =>
      match skipBlanks rest with
      | '}' :: rest => some (.obj [], rest)
      | rest => (members? fuel rest).map fun (fields, rest) => (.obj fields, rest)
    | '[' :: rest =>
      match skipBlanks rest with
      | ']' :: rest => some (.arr [], rest)
      | rest => (elements? fuel rest).map fun (xs, rest) => (.arr xs, rest)
    | '"' :: rest => string? rest
    | 't' :: rest => keyword? ['t', 'r', 'u', 'e'] (.bool true) ('t' :: rest)
    | 'f' :: rest => keyword? ['f', 'a', 'l', 's', 'e'] (.bool false) ('f' :: rest)
    | 'n' :: rest => keyword? ['n', 'u', 'l', 'l'] .null ('n' :: rest)
    | rest => number? rest

/-- Reads the elements of a list up to its closing bracket. -/
def elements? : Nat → List Char → Option (List Json × List Char)
  | 0, _ => none
  | fuel + 1, cs =>
    match value? fuel cs with
    | none => none
    | some (x, rest) =>
      match skipBlanks rest with
      | ',' :: rest => (elements? fuel rest).map fun (xs, rest) => (x :: xs, rest)
      | ']' :: rest => some ([x], rest)
      | _ => none

/-- Reads the members of an object up to its closing brace. -/
def members? : Nat → List Char → Option (List (String × Json) × List Char)
  | 0, _ => none
  | fuel + 1, cs =>
    match skipBlanks cs with
    | '"' :: rest =>
      match string? rest with
      | some (.str name, rest) =>
        match skipBlanks rest with
        | ':' :: rest =>
          match value? fuel rest with
          | none => none
          | some (x, rest) =>
            match skipBlanks rest with
            | ',' :: rest => (members? fuel rest).map fun (fs, rest) => ((name, x) :: fs, rest)
            | '}' :: rest => some ([(name, x)], rest)
            | _ => none
        | _ => none
      | _ => none
    | _ => none

end

end Reader

/-- The value that a text writes. -/
def parse? (s : String) : Option Json :=
  let cs := s.toList
  match Reader.value? (2 * cs.length + 2) cs with
  | some (j, rest) => if (Reader.skipBlanks rest).isEmpty then some j else none
  | none => none

end Amend.Json
