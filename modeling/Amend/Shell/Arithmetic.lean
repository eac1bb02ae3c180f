import Amend.MachineWord
import Amend.Shell.Reader

/-!
# Arithmetic in scripts

Expressions over 64-bit integers that wrap. A name stands for the number that its variable holds,
an unset one for zero, and can be assigned to.
-/

namespace Amend.Shell.Arithmetic

/-- Why an expression has no value. -/
inductive Fault where
  | divisionByZero (source : String)
  | noOperand (source : String)
  | leftOver (source : String)
  | badNumber (text : String)

/-- The report of a fault. -/
def Fault.message : Fault → String
  | .divisionByZero source => "arithmetic expression: division by zero: \"" ++ source ++ "\""
  | .noOperand source => "arithmetic expression: expecting primary: \"" ++ source ++ "\""
  | .leftOver source => "arithmetic expression: expecting EOF: \"" ++ source ++ "\""
  | .badNumber text => "Illegal number: " ++ text

/-- A token of an expression. -/
inductive Token where
  | number (n : Int)
  | name (s : String)
  | operator (s : String)
deriving DecidableEq

/-- The value of digits to a base, none if one is not a digit of it. -/
def numberTo? (base : Nat) (cs : List Char) : Option Nat :=
  if cs.isEmpty then none
  else cs.foldlM (fun n c =>
    let d := if c.isDigit then c.toNat - 48
      else if c.isLower then c.toNat - 87 else if c.isUpper then c.toNat - 55 else base
    if d < base then some (base * n + d) else none) 0

/-- The number that a text writes: hexadecimal behind `0x`, octal behind `0`. -/
def number? (cs : List Char) : Option Nat :=
  match cs with
  | '0' :: 'x' :: rest | '0' :: 'X' :: rest => numberTo? 16 rest
  | '0' :: rest@(_ :: _) => numberTo? 8 rest
  | cs => numberTo? 10 cs

/-- The number that a text writes with an optional sign and blanks around it. -/
def integer? (s : String) : Option Int :=
  let cs := (s.toList.dropWhile (" \t\n".toList.contains ·)).reverse.dropWhile
    (" \t\n".toList.contains ·) |>.reverse
  match cs with
  | '-' :: rest => (number? rest).map fun n => MachineWord.wrapSigned (-n)
  | '+' :: rest => (number? rest).map fun n => MachineWord.wrapSigned n
  | _ => (number? cs).map fun n => MachineWord.wrapSigned n

/-- Operators, longer ones before those that they start with. -/
def operators : List String :=
  ["<<=", ">>=", "<<", ">>", "<=", ">=", "==", "!=", "&&", "||", "+=", "-=", "*=", "/=", "%=",
   "&=", "|=", "^=", "+", "-", "*", "/", "%", "<", ">", "=", "!", "~", "&", "|", "^", "?", ":",
   "(", ")", ","]

/-- The tokens of an expression. -/
def tokens (source : String) : Nat → List Char → Except Fault (List Token)
  | 0, _ => .ok []
  | fuel + 1, cs =>
    match cs with
    | [] => .ok []
    | c :: rest =>
      if c == ' ' || c == '\t' || c == '\n' then tokens source fuel rest
      else if c.isDigit then do
        let word := cs.takeWhile Char.isAlphanum
        match number? word with
        | some n => return .number (MachineWord.wrapSigned n) :: (← tokens source fuel (cs.drop word.length))
        | none => throw (.badNumber (.ofList word))
      else if isNameStart c then do
        let word := cs.takeWhile isNameChar
        return .name (.ofList word) :: (← tokens source fuel (cs.drop word.length))
      else
        match operators.find? fun o => o.toList.isPrefixOf cs with
        | some o => do return .operator o :: (← tokens source fuel (cs.drop o.length))
        | none => .error (.noOperand source)

/-- Variables and their values. -/
abbrev Variables := List (String × String)

/-- The value of a name. -/
def valueOf (vars : Variables) (name : String) : Except Fault Int :=
  match vars.lookup name with
  | none => .ok 0
  | some text =>
    if text.isEmpty then .ok 0
    else
      match integer? text with
      | some n => .ok n
      | none => .error (.badNumber text)

/-- Operators of two operands by how tightly they bind. -/
def binaryLevels : List (List String) :=
  [["||"], ["&&"], ["|"], ["^"], ["&"], ["==", "!="], ["<", "<=", ">", ">="], ["<<", ">>"],
   ["+", "-"], ["*", "/", "%"]]

/-- The words of 64 bits that two integers are. -/
def bitwise (f : Nat → Nat → Nat) (a b : Int) : Int :=
  MachineWord.wrapSigned (f (MachineWord.unsigned a) (MachineWord.unsigned b))

/-- A truth value as a number. -/
def truth (b : Bool) : Int := if b then 1 else 0

/-- The result of an operator. -/
def binary (source : String) (o : String) (a b : Int) : Except Fault Int :=
  match o with
  | "||" => .ok (truth (a ≠ 0 || b ≠ 0))
  | "&&" => .ok (truth (a ≠ 0 && b ≠ 0))
  | "|" => .ok (bitwise Nat.lor a b)
  | "^" => .ok (bitwise Nat.xor a b)
  | "&" => .ok (bitwise Nat.land a b)
  | "==" => .ok (truth (a = b))
  | "!=" => .ok (truth (a ≠ b))
  | "<" => .ok (truth (a < b))
  | "<=" => .ok (truth (a ≤ b))
  | ">" => .ok (truth (a > b))
  | ">=" => .ok (truth (a ≥ b))
  | "<<" => .ok (MachineWord.wrapSigned (a * Nat.pow 2 (b % 64).toNat))
  | ">>" => .ok (a / Nat.pow 2 (b % 64).toNat)
  | "+" => .ok (MachineWord.wrapSigned (a + b))
  | "-" => .ok (MachineWord.wrapSigned (a - b))
  | "*" => .ok (MachineWord.wrapSigned (a * b))
  | "/" => if b = 0 then .error (.divisionByZero source) else .ok (MachineWord.wrapSigned (a.tdiv b))
  | _ => if b = 0 then .error (.divisionByZero source) else .ok (MachineWord.wrapSigned (a.tmod b))

/-- Operators that assign. -/
def assigning : List String := ["=", "+=", "-=", "*=", "/=", "%=", "&=", "|=", "^=", "<<=", ">>="]

/-- What evaluating the start of a token list yields: the value, what is left, the variables. -/
abbrev Step := Except Fault (Int × List Token × Variables)

mutual

/-- A whole expression: an assignment or a choice. -/
def expression (source : String) : Nat → Variables → List Token → Step
  | 0, _, _ => .error (.noOperand source)
  | fuel + 1, vars, ts => do
    match ts with
    | .name name :: .operator o :: rest =>
      if assigning.contains o then
        let (value, rest, vars) ← expression source fuel vars rest
        let value ← if o == "=" then pure value
          else binary source (o.dropEnd 1).toString (← valueOf vars name) value
        return (value, rest, (name, toString value) :: vars.filter (·.1 != name))
      else conditional source fuel vars ts
    | _ => conditional source fuel vars ts

/-- A choice between two values. -/
def conditional (source : String) : Nat → Variables → List Token → Step
  | 0, _, _ => .error (.noOperand source)
  | fuel + 1, vars, ts => do
    let (test, rest, vars) ← level source fuel binaryLevels vars ts
    match rest with
    | .operator "?" :: rest =>
      let (yes, rest, vars) ← expression source fuel vars rest
      match rest with
      | .operator ":" :: rest =>
        let (no, rest, vars) ← conditional source fuel vars rest
        return (if test ≠ 0 then yes else no, rest, vars)
      | _ => throw (.noOperand source)
    | _ => return (test, rest, vars)

/-- A chain of operators of one level. -/
def level (source : String) : Nat → List (List String) → Variables → List Token → Step
  | 0, _, _, _ => .error (.noOperand source)
  | fuel + 1, levels, vars, ts => do
    match levels with
    | [] => unary source fuel vars ts
    | here :: tighter =>
      let (first, rest, vars) ← level source fuel tighter vars ts
      chain source fuel here tighter first vars rest

/-- The rest of a chain. -/
def chain (source : String) :
    Nat → List String → List (List String) → Int → Variables → List Token → Step
  | 0, _, _, _, _, _ => .error (.noOperand source)
  | fuel + 1, here, tighter, first, vars, ts => do
    match ts with
    | .operator o :: rest =>
      if here.contains o then
        let (second, rest, vars) ← level source fuel tighter vars rest
        let value ← binary source o first second
        chain source fuel here tighter value vars rest
      else return (first, ts, vars)
    | _ => return (first, ts, vars)

/-- An operand with the operators in front of it. -/
def unary (source : String) : Nat → Variables → List Token → Step
  | 0, _, _ => .error (.noOperand source)
  | fuel + 1, vars, ts => do
    match ts with
    | .number n :: rest => return (n, rest, vars)
    | .name name :: rest => return (← valueOf vars name, rest, vars)
    | .operator "(" :: rest =>
      let (value, rest, vars) ← expression source fuel vars rest
      match rest with
      | .operator ")" :: rest => return (value, rest, vars)
      | _ => throw (.noOperand source)
    | .operator o :: rest =>
      let (value, rest, vars) ← unary source fuel vars rest
      match o with
      | "-" => return (MachineWord.wrapSigned (-value), rest, vars)
      | "+" => return (value, rest, vars)
      | "!" => return (truth (value = 0), rest, vars)
      | "~" => return (-value - 1, rest, vars)
      | _ => throw (.noOperand source)
    | [] => throw (.noOperand source)

end

/-- The value of an expression and the variables after it. -/
def evaluate (source : String) (vars : Variables) : Except Fault (Int × Variables) := do
  let ts ← tokens source (source.length + 1) source.toList
  if ts.isEmpty then return (0, vars)
  let (value, rest, vars) ← expression source (32 * (ts.length + 1)) vars ts
  if rest.isEmpty then return (value, vars) else throw (.leftOver source)

end Amend.Shell.Arithmetic
