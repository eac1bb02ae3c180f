import Amend.Refactoring.Rewrite

/-!
# Simplifying boolean expressions

Comparisons with a boolean literal, double negations, ternaries between the two literals, and an
`if` that returns one literal or the other are replaced by the condition or its negation.
-/

namespace Amend.Refactoring.Conditional

open Syntax

/-- Expressions that need no parentheses before or after an operator. -/
def atomic : List Kind :=
  [.identifier, .fieldAccess, .methodInvocation, .parenthesizedExpression, .arrayAccess,
   .trueLiteral, .falseLiteral, .thisRef]

/-- Parents inside which no expression needs parentheses. -/
def looseContexts : List Kind :=
  [.parenthesizedExpression, .expressionStatement, .returnStatement, .variableDeclarator,
   .argumentList]

/-- The value of a boolean literal, given with the nodes that may have to be entered: a literal
in parentheses counts. The fuel bounds the nesting. -/
def literalWithin : Nat → Node → Option Bool
  | 0, _ => none
  | fuel + 1, n =>
    match n.kind with
    | .trueLiteral => some true
    | .falseLiteral => some false
    | .parenthesizedExpression =>
      match n.namedChildren.head? with
      | some inner => literalWithin fuel inner
      | none => none
    | _ => none

/-- The value of a boolean literal, in parentheses or not. -/
def literal? (n : Node) : Option Bool := literalWithin n.tree.size n

/-- The operand of a `!`. -/
def negated? (n : Node) (source : String) : Option Node := do
  if n.kind ≠ .unaryExpression then none
  let operator ← n.childBy? .operator
  if operator.text source ≠ "!" then none
  n.childBy? .operand

/-- The negation of an expression. -/
def negate (n : Node) (source : String) : String :=
  if n.isOneOf atomic then "!" ++ n.text source else "!(" ++ n.text source ++ ")"

/-- The expression in the place of `replaced`, in parentheses where the surroundings could tear
it apart. -/
def splice (n : Node) (source : String) (replaced : Node) : String :=
  if (replaced.parent?.any (·.isOneOf looseContexts)) || n.isOneOf atomic then n.text source
  else "(" ++ n.text source ++ ")"

/-- `x == true`, `false != x` and the like. -/
def comparison? (n : Node) (source : String) : Option String := do
  let operator := (← n.childBy? .operator).text source
  let left ← n.childBy? .left
  let right ← n.childBy? .right
  let (operand, value) ←
    match literal? left, literal? right with
    | none, some value => some (left, value)
    | some value, none => some (right, value)
    | _, _ => none
  let keep ←
    match operator with
    | "==" => some value
    | "!=" => some !value
    | _ => none
  return if keep then splice operand source n else negate operand source

/-- `!!x` becomes `x`. -/
def doubleNegation? (n : Node) (source : String) : Option String := do
  let inner ← negated? n source
  let operand ← negated? inner source
  return splice operand source n

/-- `c ? true : false` becomes `c`, `c ? false : true` becomes `!c`. -/
def ternary? (n : Node) (source : String) : Option String := do
  let condition ← n.childBy? .condition
  let consequence ← literal? (← n.childBy? .consequence)
  let alternative ← literal? (← n.childBy? .alternative)
  match consequence, alternative with
  | true, false => some (splice condition source n)
  | false, true => some (negate condition source)
  | _, _ => none

/-- The literal that a statement returns: `return true;`, alone or the only statement of a block.
The fuel bounds the nesting of blocks. -/
def returnedWithin : Nat → Node → Option Bool
  | 0, _ => none
  | fuel + 1, n =>
    match n.kind with
    | .returnStatement => n.namedChildren.head?.bind literal?
    | .block =>
      match n.parts with
      | [only] => returnedWithin fuel only
      | _ => none
    | _ => none

/-- The literal that a statement returns. -/
def returned? (n : Node) : Option Bool := returnedWithin n.tree.size n

/-- `if (c) return true; else return false;` becomes `return c;`. The `else` may be missing when
the statement that follows is the other return. -/
def booleanIf? (n : Node) (source : String) : Option TextEdit := do
  let condition ← n.childBy? .condition
  let whenTrue ← returned? (← n.childBy? .consequence)
  let (whenFalse, stop) ←
    match n.childBy? .alternative with
    | some alternative => (returned? alternative).map (·, n.stop)
    | none => do
      let next ← n.siblingsAfter.find? (·.kind.isNamed)
      if next.isComment then none
      (returned? next).map (·, next.stop)
  if whenTrue = whenFalse then none
  let inner ← condition.parts.head?
  let expression := if whenTrue then inner.text source else negate inner source
  return .replace n.start stop ("return " ++ expression ++ ";") "collapse boolean if"

/-- The edit that simplifies a node, if there is one. -/
def simplify? (n : Node) (source : String) : Option TextEdit :=
  let replaceBy (text : Option String) : Option TextEdit :=
    text.map fun t => .replace n.start n.stop t ("simplify " ++ n.kind.name)
  match n.kind with
  | .binaryExpression => replaceBy (comparison? n source)
  | .unaryExpression => replaceBy (doubleNegation? n source)
  | .ternaryExpression => replaceBy (ternary? n source)
  | .ifStatement => booleanIf? n source
  | _ => none

/-- Whether a node has no line in common with the defect. -/
def outside (d : Defect) (n : Node) (source : String) : Bool :=
  n.lastLine source < d.startLine || n.firstLine source > d.lastLine

/-- The edit of a node that starts on one of the defect's lines. -/
def editAt? (d : Defect) (source : String) (n : Node) : Option TextEdit :=
  if outside d n source || !d.coversLine (n.firstLine source) then none else simplify? n source

/-- The edits of the outermost nodes that can be simplified on the defect's lines. -/
def edits (d : Defect) (source : String) (root : Node) : List TextEdit :=
  (root.visit fun n => !outside d n source && (editAt? d source n).isNone).filterMap
    (editAt? d source)

/-- The rewrite for a defect. -/
def rewrite (d : Defect) (source : String) (tree : Tree) : Except RewriteError Rewrite :=
  let found := edits d source (.root tree)
  if found.isEmpty then
    .error (.refused "conditional-simplification" (.nothingToSimplify d.startLine d.lastLine))
  else
    Rewrite.ofEdits source found
      ("Simplified " ++ toString found.length ++ " boolean expression(s)")

end Conditional

/-- Simplifies redundant boolean expressions. -/
def simplifyConditional : Refactoring where
  name := "conditional-simplification"
  categories := ["redundant-boolean", "simplifiable-conditional", "complex-conditional"]
  rewrite := fun _ d source tree => Conditional.rewrite d source tree

end Amend.Refactoring
