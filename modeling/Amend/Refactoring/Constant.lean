import Amend.Java.Variable
import Amend.Refactoring.Rewrite

/-!
# Naming magic literals

A literal is replaced by a constant of the type around it: one of the same type and value if the
type has it, a new private one otherwise.
-/

namespace Amend.Refactoring.Constant

open Syntax

/-- Literals that a constant can be made of. -/
def literals : List Kind :=
  [.decimalIntegerLiteral, .hexIntegerLiteral, .octalIntegerLiteral, .binaryIntegerLiteral,
   .decimalFloatingPointLiteral, .stringLiteral, .characterLiteral]

/-- A refusal of this refactoring. -/
def refuse {α : Type} (why : Refusal) : Except RewriteError α :=
  .error (.refused "literal-extraction" why)

/-- The literal to replace: the node, its text as an initializer and its type. A minus sign before
the literal belongs to it. -/
structure Target where
  node : Node
  value : String
  javaType : String

/-- Where a new constant goes. `members` is the node whose children are the fields of the type. -/
structure Host where
  members : Node
  insertAt : Nat
  modifiers : String
  indent : String
  taken : List String

/-- Whether the text ends with one of the characters. -/
def endsWithOneOf (text : String) (cs : List Char) : Bool := text.toList.getLast?.any cs.contains

/-- The type of a literal by its kind and suffix. -/
def literalType (kind : Kind) (text : String) : String :=
  match kind with
  | .stringLiteral => "String"
  | .characterLiteral => "char"
  | .decimalFloatingPointLiteral =>
    if endsWithOneOf text ['f', 'F'] then "float" else "double"
  | _ => if endsWithOneOf text ['l', 'L'] then "long" else "int"

/-- Whether a field is declared `static final`. -/
def isStaticFinal (field : Node) (source : String) : Bool :=
  Java.hasModifier field source "static" && Java.hasModifier field source "final"

/-- Whether a literal is already inside the declaration of a constant. -/
def insideConstant (n : Node) (source : String) : Bool :=
  (n.ancestor? [.fieldDeclaration, .constantDeclaration]).any fun field =>
    field.kind = .constantDeclaration || isStaticFinal field source

/-- The element with the greatest measure, the last one of several. -/
def greatestBy? {α : Type} (measure : α → Nat) : List α → Option α
  | [] => none
  | x :: xs =>
    match greatestBy? measure xs with
    | none => some x
    | some y => if measure x ≤ measure y then some y else some x

/-- The literal of a defect: of those on its first line, the longest one that its message quotes,
or else the first. -/
def pick (root : Node) (source : String) (d : Defect) : Except RewriteError Target :=
  let candidates := (root.descendants literals).filter fun n =>
    n.firstLine source = d.startLine && !insideConstant n source
  let quoted := candidates.filter fun n =>
    d.message ≠ "" && Text.contains d.message (n.text source)
  match (greatestBy? (fun n => n.stop - n.start) quoted).or candidates.head? with
  | none => refuse (.noLiteral d.startLine)
  | some literal =>
    let text := literal.text source
    let minus := literal.parent?.filter fun p =>
      p.kind = .unaryExpression && (p.childBy? .operator).any fun op => op.text source = "-"
    let javaType := literalType literal.kind text
    match minus with
    | some parent => .ok ⟨parent, "-" ++ text, javaType⟩
    | none => .ok ⟨literal, text, javaType⟩

/-- The indentation of a type's members, taken from the first one, or one step more than the
line on which the body opens. -/
def memberIndent (body : Node) (source : String) : String :=
  match body.parts.head? with
  | some member => (Text.lineIndent? source member.start).getD ""
  | none => (IndentStyle.infer source).deeper ((Text.lineIndent? source body.start).getD "")

/-- The place for a constant used at a node: the nearest type around it. In an enum it goes below
the enum constants, whose own arguments are evaluated before it. -/
def host (n : Node) (source : String) : Except RewriteError Host := do
  match n.ancestor? Java.typeDeclarations with
  | none => refuse .notInType
  | some decl =>
    match decl.childBy? .body with
    | none => refuse .typeWithoutBody
    | some body =>
      let place (members : Node) (modifiers : String) : Host :=
        { members, insertAt := members.start + 1, modifiers
          indent := memberIndent body source, taken := Java.memberNames body source }
      match decl.kind with
      | .classDeclaration | .recordDeclaration => return place body "private static final"
      | .interfaceDeclaration => return place body "static final"
      | .enumDeclaration =>
        let below := (body.parts.find? (·.kind = .enumBodyDeclarations)).filter fun b =>
          b.start ≤ n.start && n.stop ≤ b.stop
        match below with
        | none => refuse .enumConstantArgument
        | some declarations =>
          let h := place declarations "private static final"
          return { h with taken := h.taken ++ Java.memberNames declarations source }
      | kind => refuse (.noConstantsIn kind.name)

/-- Whether an initializer is the target's value. Blanks do not matter in numbers. -/
def sameValue (initializer : String) (t : Target) : Bool :=
  if t.javaType = "String" ∨ t.javaType = "char" then initializer = t.value
  else String.ofList (initializer.toList.filter (· != ' ')) = t.value

/-- The name of a constant of the type with the target's type and value. -/
def existing? (members : Node) (source : String) (t : Target) : Option String :=
  let fields := members.parts.filter fun f =>
    (f.kind = .constantDeclaration || (f.kind = .fieldDeclaration && isStaticFinal f source)) &&
      (f.childBy? .type).any fun type => type.text source = t.javaType
  let declarators := fields.filterMap fun f =>
    (f.childrenBy .declarator).find? fun v =>
      (v.childBy? .value).any fun value => sameValue (value.text source) t
  declarators.head?.bind fun v => Java.declaredName? v source

/-- A decimal number `mantissa * 10 ^ exponent`. -/
structure Decimal where
  mantissa : Nat
  exponent : Int

/-- The number that digits with one point and perhaps an exponent write. -/
def Decimal.ofText? (cs : List Char) : Option Decimal :=
  let isDigit (c : Char) : Bool := '0' ≤ c && c ≤ '9'
  let value (ds : List Char) : Nat := ds.foldl (fun n c => 10 * n + (c.toNat - 48)) 0
  let whole := cs.takeWhile isDigit
  match cs.dropWhile isDigit with
  | '.' :: rest =>
    let part := rest.takeWhile isDigit
    if whole.isEmpty && part.isEmpty then none
    else
      let mantissa := value (whole ++ part)
      let scale : Int := -(part.length : Int)
      match rest.dropWhile isDigit with
      | [] => some ⟨mantissa, scale⟩
      | e :: rest =>
        if e == 'e' || e == 'E' then
          let (negative, digits) := match rest with
            | '-' :: ds => (true, ds)
            | '+' :: ds => (false, ds)
            | ds => (false, ds)
          if digits.isEmpty || !digits.all isDigit then none
          else some ⟨mantissa, scale + if negative then -(value digits : Int) else value digits⟩
        else none
  | _ => none

/-- Whether the number lies less than a thousandth from a known one, given in units of the
fifteenth decimal place. Numbers with a huge exponent do not. -/
def Decimal.isNear (d : Decimal) (known : Nat) : Bool :=
  if d.exponent > 400 ∨ d.exponent < -400 then false
  else
    -- both sides in units of the 415th decimal place
    let x := d.mantissa * Nat.pow 10 (d.exponent + 415).toNat
    let y := known * Nat.pow 10 400
    (max x y) - (min x y) < Nat.pow 10 412

/-- Values with a conventional name, in units of the fifteenth decimal place. -/
def knownConstants : List (Nat × String) :=
  [(3141592653589793, "PI"), (2718281828459045, "E")]

/-- The text with every character in upper case. -/
def upper (s : String) : String := .ofList (s.toList.flatMap Text.upperChar)

/-- The text without the given characters at both ends. -/
def trimAll (p : Char → Bool) (s : String) : String :=
  .ofList (Text.dropEndWhile p (s.toList.dropWhile p))

/-- A name for a number: a known constant, or the digits themselves. -/
def numberName (value : String) : String :=
  let unsigned := value.toList.dropWhile (· == '-')
  let prefixed := ["0x", "0X", "0b", "0B"].contains (String.ofList (unsigned.take 2))
  let suffixes := if prefixed then ['l', 'L'] else ['l', 'L', 'f', 'F', 'd', 'D']
  let digits := Text.dropEndWhile suffixes.contains value.toList
  let number := Decimal.ofText? (digits.filter (· != '_'))
  let known := knownConstants.find? fun (k, _) => number.any (·.isNear k)
  match known with
  | some (_, name) => name
  | none =>
    let spelled := digits.flatMap fun c =>
      if c == '-' then ['N', 'E', 'G', '_'] else if c == '.' then ['_'] else [c]
    "VALUE_" ++ upper (.ofList spelled)

/-- A name for a string: its first four words. -/
def stringName (value : String) : String :=
  let inner := trimAll (· == '"') value
  let parts := (Text.split (fun c => !Text.isAlphanumeric c) inner).filter (· ≠ "")
  let name := Java.toUpperSnake (" ".intercalate (parts.take 4))
  match name.toList.head? with
  | none => "EMPTY_TEXT"
  | some c => if Text.isLetter c then name else "TEXT_" ++ name

/-- A name for a character. -/
def charName (value : String) : String :=
  let inner := trimAll (· == '\'') value
  if inner.toList.all fun c => c.isAlphanum then "CHAR_" ++ upper inner else "CHAR_CONSTANT"

/-- A name for a new constant: the defect's element when that gives an identifier, else one made
of the value. -/
def constantName (d : Defect) (t : Target) : String :=
  let given := d.elementName?.bind fun element =>
    let candidate := Java.toUpperSnake element
    if element ≠ t.value ∧ Java.isIdentifier candidate then some candidate else none
  given.getD <|
    let generated :=
      if t.javaType = "String" then stringName t.value
      else if t.javaType = "char" then charName t.value
      else numberName t.value
    if Java.isIdentifier generated then generated else "CONSTANT"

/-- The rewrite for a defect. -/
def rewrite (d : Defect) (source : String) (tree : Tree) : Except RewriteError Rewrite := do
  let t ← pick (.root tree) source d
  let h ← host t.node source
  let use (name : String) : TextEdit :=
    .replace t.node.start t.node.stop name ("use constant " ++ name)
  match existing? h.members source t with
  | some name =>
    Rewrite.ofEdits source [use name]
      ("Replaced " ++ t.value ++ " with existing constant " ++ name)
  | none =>
    let name := Java.uniqueName (constantName d t) h.taken
    let declaration := "\n" ++ h.indent ++ h.modifiers ++ " " ++ t.javaType ++ " " ++ name ++
      " = " ++ t.value ++ ";\n"
    Rewrite.ofEdits source [.insert h.insertAt declaration ("declare " ++ name), use name]
      ("Extracted " ++ t.value ++ " into constant " ++ t.javaType ++ " " ++ name)

end Constant

/-- Replaces a magic literal by a constant. -/
def extractConstant : Refactoring where
  name := "literal-extraction"
  categories := ["magic-literal", "magic-number", "magic-string"]
  rewrite := fun _ d source tree => Constant.rewrite d source tree

end Amend.Refactoring
