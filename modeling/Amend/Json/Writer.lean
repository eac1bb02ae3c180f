import Amend.Json
import Amend.Text.Hex

/-!
# Writing JSON

Two layouts of one value: on one line without blanks, and over several lines with an indentation
of two blanks. Text outside ASCII is written as it is; only quotes, backslashes and control
characters are escaped.
-/

namespace Amend.Json

namespace Writer

/-- The form of a character inside a string. -/
def escapeChar (c : Char) : List Char :=
  match c with
  | '"' => ['\\', '"']
  | '\\' => ['\\', '\\']
  | '\x08' => ['\\', 'b']
  | '\x0c' => ['\\', 'f']
  | '\n' => ['\\', 'n']
  | '\r' => ['\\', 'r']
  | '\t' => ['\\', 't']
  | c =>
    if c.toNat < 0x20 then
      ['\\', 'u', '0', '0', Text.hexDigit (c.toNat / 16), Text.hexDigit (c.toNat % 16)]
    else [c]

/-- A quoted string. -/
def quoted (s : String) : String :=
  .ofList ('"' :: (s.toList.flatMap escapeChar ++ ['"']))

end Writer

open Writer

mutual

/-- The value on one line. -/
def render : Json → String
  | .null => "null"
  | .bool b => if b then "true" else "false"
  | .int n => toString n
  | .real text => text
  | .str s => quoted s
  | .unpaired => quoted ""
  | .arr xs => "[" ++ renderList xs ++ "]"
  | .obj fields => "\x7b" ++ renderFields fields ++ "\x7d"

/-- The elements of a list, with commas between them. -/
def renderList : List Json → String
  | [] => ""
  | [x] => render x
  | x :: xs => render x ++ "," ++ renderList xs

/-- The fields of an object, with commas between them. -/
def renderFields : List (String × Json) → String
  | [] => ""
  | [(name, x)] => quoted name ++ ":" ++ render x
  | (name, x) :: fields => quoted name ++ ":" ++ render x ++ "," ++ renderFields fields

end

/-- A line feed and the indentation of a nesting depth. -/
def Writer.newLine (depth : Nat) : String := .ofList ('\n' :: List.replicate (2 * depth) ' ')

mutual

/-- The value over several lines, as an element at a nesting depth. -/
def pretty (depth : Nat) : Json → String
  | .arr [] => "[]"
  | .arr xs => "[" ++ prettyList (depth + 1) xs ++ newLine depth ++ "]"
  | .obj [] => "\x7b\x7d"
  | .obj fields => "\x7b" ++ prettyFields (depth + 1) fields ++ newLine depth ++ "\x7d"
  | .null => "null"
  | .bool b => if b then "true" else "false"
  | .int n => toString n
  | .real text => text
  | .str s => quoted s
  | .unpaired => quoted ""

/-- The elements of a list, one to a line. -/
def prettyList (depth : Nat) : List Json → String
  | [] => ""
  | [x] => newLine depth ++ pretty depth x
  | x :: xs => newLine depth ++ pretty depth x ++ "," ++ prettyList depth xs

/-- The fields of an object, one to a line. -/
def prettyFields (depth : Nat) : List (String × Json) → String
  | [] => ""
  | [(name, x)] => newLine depth ++ quoted name ++ ": " ++ pretty depth x
  | (name, x) :: fields =>
    newLine depth ++ quoted name ++ ": " ++ pretty depth x ++ "," ++ prettyFields depth fields

end

/-- The value over several lines. -/
def document (j : Json) : String := j.pretty 0

end Amend.Json
