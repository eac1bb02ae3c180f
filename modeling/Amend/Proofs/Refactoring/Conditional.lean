import Amend.Proofs.Layout
import Amend.Proofs.Refactoring.Rewrite
import Amend.Proofs.Refactoring.Truth

/-!
# Simplified expressions keep their values

A comparison with a boolean literal, a double negation and a ternary between the literals have the
truth value of one operand or of its negation, and an `if` between the two literals returns that of
its condition.  This is what they are replaced by, written so that nothing around it can tear it
apart.

The values are those of trees: a replacement denotes the expression that it spells.  The character
ahead of the replaced node is not looked at, and in `return!!x` there is none that would keep the
operand apart from the keyword.
-/

namespace Amend.Refactoring.Conditional

open Syntax TextEdit EditSet

/-! ## How an expression is written in the place of another -/

/-- The expressions of the grammar that bind closer than any operator. -/
def primary : List Kind :=
  [.decimalIntegerLiteral, .hexIntegerLiteral, .octalIntegerLiteral, .binaryIntegerLiteral,
   .decimalFloatingPointLiteral, .hexFloatingPointLiteral, .trueLiteral, .falseLiteral,
   .characterLiteral, .stringLiteral, .nullLiteral, .classLiteral, .thisRef, .identifier,
   .parenthesizedExpression, .objectCreationExpression, .fieldAccess, .arrayAccess,
   .methodInvocation, .methodReference, .arrayCreationExpression, .templateExpression]

/-- The nodes of the grammar in which an operator, a dot or an arrow stands next to an
expression. -/
def operations : List Kind :=
  [.castExpression, .assignmentExpression, .binaryExpression, .instanceofExpression,
   .lambdaExpression, .ternaryExpression, .unaryExpression, .updateExpression,
   .objectCreationExpression, .fieldAccess, .arrayAccess, .methodInvocation, .methodReference,
   .templateExpression, .explicitConstructorInvocation, .switchRule, .switchLabel]

/-- Whether an expression stands where there is no operator around it. -/
def free (n : Node) : Bool := n.parent?.any fun p => !p.isOneOf operations

/-- An operand as it is written, with parentheses and a negation or without. -/
inductive Spelling where
  | plain (operand : Node)
  | wrapped (operand : Node)
  | negated (operand : Node)
  | negatedWrapped (operand : Node)

namespace Spelling

def operand : Spelling → Node
  | plain n | wrapped n | negated n | negatedWrapped n => n

def text (source : String) : Spelling → String
  | plain n => n.text source
  | wrapped n => "(" ++ n.text source ++ ")"
  | negated n => "!" ++ n.text source
  | negatedWrapped n => "!(" ++ n.text source ++ ")"

def truth (source : String) (value : Node → Bool) : Spelling → Bool
  | plain n | wrapped n => Conditional.truth source value n
  | negated n | negatedWrapped n => !Conditional.truth source value n

/-- Whether a spelling is read as it is meant: its negation takes in the whole operand, and the
operand is closed or stands where there is no operator around it. -/
def Whole (free : Bool) : Spelling → Prop
  | plain n => n.isOneOf primary = true ∨ free = true
  | negated n => n.isOneOf primary = true
  | wrapped _ | negatedWrapped _ => True

end Spelling

/-- A spelling of an expression by one of the expressions that it holds. -/
structure Spells (source : String) (n : Node) (w : Spelling) : Prop where
  held : n.Holds w.operand
  truth : ∀ value, w.truth source value = truth source value n

section

variable {source : String} {n m : Node}

theorem primary_of_atomic (h : n.isOneOf atomic = true) : n.isOneOf primary = true := by
  have hall : atomic.all (primary.contains ·) = true := by decide
  exact List.all_eq_true.mp hall _ (List.contains_iff_mem.mp h)

theorem free_of_loose (h : n.parent?.any (·.isOneOf looseContexts) = true) : free n = true := by
  have hall : looseContexts.all (!operations.contains ·) = true := by decide
  rw [Option.any_eq_true] at h
  obtain ⟨p, hp, hloose⟩ := h
  rw [free, hp]
  exact List.all_eq_true.mp hall _ (List.contains_iff_mem.mp hloose)

/-- What is written for the negation of an expression. -/
theorem exists_negate_eq (n : Node) (source : String) : ∃ w : Spelling,
    negate n source = w.text source ∧ w.operand = n ∧ (∀ free, w.Whole free) ∧
      ∀ value, w.truth source value = !truth source value n := by
  rw [negate]
  split
  · next hatomic =>
    exact ⟨.negated n, rfl, rfl, fun _ => primary_of_atomic hatomic, fun _ => rfl⟩
  · exact ⟨.negatedWrapped n, rfl, rfl, fun _ => trivial, fun _ => rfl⟩

/-- What is written for an expression in the place of another. -/
theorem exists_splice_eq (m n : Node) (source : String) : ∃ w : Spelling,
    splice m source n = w.text source ∧ w.operand = m ∧ w.Whole (free n) ∧
      ∀ value, w.truth source value = truth source value m := by
  rw [splice]
  split
  · next hfits =>
    refine ⟨.plain m, rfl, rfl, ?_, fun _ => rfl⟩
    rcases Bool.or_eq_true_iff.mp hfits with hloose | hatomic
    · exact .inr (free_of_loose hloose)
    · exact .inl (primary_of_atomic hatomic)
  · exact ⟨.wrapped m, rfl, rfl, trivial, fun _ => rfl⟩

/-- An expression that has the value of an operand, or the other one, is spelled by the operand or
its negation. -/
theorem exists_spells (keep : Bool) (hheld : n.Holds m)
    (htruth : ∀ value, truth source value n = (truth source value m == keep)) : ∃ w : Spelling,
      (if keep then splice m source n else negate m source) = w.text source ∧
        w.Whole (free n) ∧ Spells source n w := by
  cases keep with
  | true =>
    obtain ⟨w, htext, rfl, hwhole, hw⟩ := exists_splice_eq m n source
    exact ⟨w, htext, hwhole, hheld, fun value => by rw [hw, htruth, beq_true]⟩
  | false =>
    obtain ⟨w, htext, rfl, hwhole, hw⟩ := exists_negate_eq m source
    exact ⟨w, htext, hwhole _, hheld, fun value => by rw [hw, htruth, beq_false]⟩

/-- What a comparison that is replaced compares: an operand with a literal. -/
theorem comparison?_eq_some {text : String} (h : comparison? n source = some text) :
    ∃ positive value left right operand,
      (operator? n source).bind polarity? = some positive ∧ n.childBy? .left = some left ∧
      n.childBy? .right = some right ∧
      (operand = left ∧ literal? right = some value ∨
        operand = right ∧ literal? left = some value) ∧
      (if value == positive then splice operand source n else negate operand source) = text := by
  simp only [comparison?, Option.bind_eq_bind, Option.bind_eq_some_iff] at h
  obtain ⟨o, ho, left, hleft, right, hright, h⟩ := h
  have hoperator : (operator? n source).bind polarity? = polarity? (o.text source) := by
    rw [operator?, ho]
    rfl
  have hequal (heq : o.text source = "==") :
      (operator? n source).bind polarity? = some true := by
    rw [hoperator, heq]
    rfl
  have hunequal (heq : o.text source = "!=") :
      (operator? n source).bind polarity? = some false := by
    rw [hoperator, heq]
    rfl
  -- The literal is on one of the sides, and the operator is `==` or `!=`.
  split at h
  · next value _ hvalue =>
    split at h
    · next heq =>
      exact ⟨true, value, left, right, left, hequal heq, hleft, hright, .inl ⟨rfl, hvalue⟩,
        by rw [beq_true]; exact Option.some.inj h⟩
    · next heq =>
      exact ⟨false, value, left, right, left, hunequal heq, hleft, hright, .inl ⟨rfl, hvalue⟩,
        by rw [beq_false]; exact Option.some.inj h⟩
    · cases h
  · next value hvalue _ =>
    split at h
    · next heq =>
      exact ⟨true, value, left, right, right, hequal heq, hleft, hright, .inr ⟨rfl, hvalue⟩,
        by rw [beq_true]; exact Option.some.inj h⟩
    · next heq =>
      exact ⟨false, value, left, right, right, hunequal heq, hleft, hright, .inr ⟨rfl, hvalue⟩,
        by rw [beq_false]; exact Option.some.inj h⟩
    · cases h
  · cases h

theorem exists_spells_of_comparison? {text : String} (hkind : n.kind = .binaryExpression)
    (h : comparison? n source = some text) : ∃ w : Spelling,
      text = w.text source ∧ w.Whole (free n) ∧ Spells source n w := by
  obtain ⟨positive, value, left, right, operand, hpositive, hleft, hright, hside, rfl⟩ :=
    comparison?_eq_some h
  have hliteral : ((literal? left).isSome || (literal? right).isSome) = true := by
    rcases hside with ⟨-, hvalue⟩ | ⟨-, hvalue⟩ <;> simp [hvalue]
  have hshape : shape source n = .comparison positive left right := by
    rw [shape, hkind]
    simp only [hpositive, hleft, hright, if_pos hliteral]
  have hassoc : ∀ a b c : Bool, ((a == b) == c) = (a == (b == c)) := by decide
  rcases hside with ⟨rfl, hvalue⟩ | ⟨rfl, hvalue⟩
  · refine exists_spells _ (Node.Holds.childBy? hleft) fun v => ?_
    rw [truth_eq, hshape]
    simp only [truth_of_literal? hvalue, hassoc]
  · refine exists_spells _ (Node.Holds.childBy? hright) fun v => ?_
    rw [truth_eq, hshape]
    simp only [truth_of_literal? hvalue]
    rw [Bool.beq_comm (a := value), hassoc]

theorem negated?_eq_some (h : negated? n source = some m) :
    shape source n = .negation m ∧ n.Holds m := by
  rw [negated?] at h
  split at h
  · cases h
  · next hkind =>
    obtain ⟨o, ho, h⟩ := Option.bind_eq_some_iff.mp h
    split at h
    · cases h
    · next htext =>
      have hoperator : operator? n source = some "!" := by
        rw [operator?, ho, Option.map_some, not_ne_iff.mp htext]
      refine ⟨?_, Node.Holds.childBy? h⟩
      rw [shape, not_ne_iff.mp hkind]
      have h' : n.childBy? .operand = some m := h
      simp only [hoperator, h']

theorem exists_spells_of_doubleNegation? {text : String}
    (h : doubleNegation? n source = some text) : ∃ w : Spelling,
      text = w.text source ∧ w.Whole (free n) ∧ Spells source n w := by
  simp only [doubleNegation?, Option.bind_eq_bind, Option.bind_eq_some_iff] at h
  obtain ⟨inner, hinner, operand, hoperand, htext⟩ := h
  cases htext
  obtain ⟨hshape, hheld⟩ := negated?_eq_some hinner
  obtain ⟨hshape', hheld'⟩ := negated?_eq_some hoperand
  refine exists_spells true (hheld.trans hheld') fun v => ?_
  rw [truth_eq, hshape, beq_true]
  simp only [truth_eq (n := inner), hshape', Bool.not_not]

theorem exists_spells_of_ternary? {text : String} (hkind : n.kind = .ternaryExpression)
    (h : ternary? n source = some text) : ∃ w : Spelling,
      text = w.text source ∧ w.Whole (free n) ∧ Spells source n w := by
  simp only [ternary?, Option.bind_eq_bind, Option.bind_eq_some_iff] at h
  obtain ⟨condition, hcondition, whenTrue, htrue, a, ha, whenFalse, hfalse, b, hb, h⟩ := h
  have htruth (v : Node → Bool) :
      truth source v n = if truth source v condition then a else b := by
    rw [truth_eq, shape, hkind]
    simp only [hcondition, htrue, hfalse, truth_of_literal? ha, truth_of_literal? hb]
  split at h
  · cases h
    refine exists_spells true (Node.Holds.childBy? hcondition) fun v => ?_
    rw [htruth]
    cases truth source v condition <;> rfl
  · cases h
    refine exists_spells false (Node.Holds.childBy? hcondition) fun v => ?_
    rw [htruth]
    cases truth source v condition <;> rfl
  · cases h

end

/-! ## An `if` between the literals -/

section

variable {source : String} {n m : Node} {value : Node → Bool} {ends : Node → Outcome}

/-- The nodes whose children are statements one after the other. -/
def statementLists : List Kind :=
  [.block, .constructorBody, .switchBlockStatementGroup, .program]

/-- What the grammar says of a node.  The condition of an `if` is in parentheses, and an `if` takes
the `else` that follows it, so that a statement behind one without `else` is the next in a list of
statements; a `return` and a pair of parentheses have one expression at most, and literals and
comments have nothing below them. -/
def formed (n : Node) : Bool :=
  match n.kind with
  | .ifStatement =>
    (n.childBy? .condition).all (·.kind = .parenthesizedExpression) &&
      ((n.childBy? .alternative).isSome || n.parent?.any (·.isOneOf statementLists) ||
        n.siblingsAfter.all (!·.isOneOf [.returnStatement, .block]))
  | .returnStatement | .parenthesizedExpression => n.parts.length ≤ 1
  | .trueLiteral | .falseLiteral | .lineComment | .blockComment => n.namedChildren.isEmpty
  | _ => true

/-- Whether a tree is as the grammar says. -/
def grammatical (t : Tree) : Bool := (Node.root t).preorder.all formed

theorem isOneOf_of_returned? {b : Bool} (h : returned? n = some b) :
    n.isOneOf [.returnStatement, .block] = true := by
  rw [returned?] at h
  cases hsize : n.tree.size with
  | zero =>
    rw [hsize] at h
    cases h
  | succ fuel =>
    rw [hsize, returnedWithin] at h
    rw [Node.isOneOf]
    split at h
    · next hkind => rw [hkind]; rfl
    · next hkind => rw [hkind]; rfl
    · cases h

/-- The statements that a range covers from an `if` on, the last of them or part of it being what
is run if the condition is false: the `else`, or without one the next statement. -/
inductive Covers (n : Node) : (otherwise : Node) → (stop : Nat) → List Node → Prop
  | withElse {s : Node} (helse : n.childBy? .alternative = some s) : Covers n s n.stop [n]
  | withNext {s : Node} (helse : n.childBy? .alternative = none)
    (hnext : n.siblingsAfter.find? (·.kind.isNamed) = some s) : Covers n s s.stop [n, s]

/-- An `if` between the two literals, with the edit that replaces it. -/
inductive Decides (source : String) (n : Node) (e : TextEdit) : Prop
  | intro {condition consequence otherwise inner : Node} {whenTrue : Bool}
    {statements : List Node} (hcondition : n.childBy? .condition = some condition)
    (hconsequence : n.childBy? .consequence = some consequence)
    (hinner : condition.parts.head? = some inner) (htrue : returned? consequence = some whenTrue)
    (hfalse : returned? otherwise = some (!whenTrue))
    (hcovers : Covers n otherwise e.stop statements) (hstart : e.start = n.start)
    (htext : e.replacement =
      "return " ++ (if whenTrue then inner.text source else negate inner source) ++ ";")
    (hpriority : e.priority = 0)

theorem decides_of_booleanIf? {e : TextEdit} (h : booleanIf? n source = some e) :
    Decides source n e := by
  simp only [booleanIf?, Option.bind_eq_bind, Option.bind_eq_some_iff] at h
  obtain ⟨condition, hcondition, consequence, hconsequence, whenTrue, htrue, h⟩ := h
  have hlast {s : Node} {whenFalse : Bool} {stop : Nat} {statements : List Node}
      (hs : returned? s = some whenFalse) (hcovers : Covers n s stop statements)
      (h : (if whenTrue = whenFalse then none else
        condition.parts.head?.bind fun inner => some (replace n.start stop
          ("return " ++ (if whenTrue then inner.text source else negate inner source) ++ ";")
          "collapse boolean if")) = some e) : Decides source n e := by
    obtain ⟨hdiffer, h⟩ := Option.ite_none_left_eq_some.mp h
    obtain ⟨inner, hinner, h⟩ := Option.bind_eq_some_iff.mp h
    cases h
    rw [Bool.eq_not_of_ne (Ne.symm hdiffer)] at hs
    exact .intro hcondition hconsequence hinner htrue hs hcovers rfl rfl rfl
  split at h
  · next s helse =>
    obtain ⟨⟨whenFalse, stop⟩, hpair, h⟩ := Option.bind_eq_some_iff.mp h
    obtain ⟨_, hs, heq⟩ := Option.map_eq_some_iff.mp hpair
    cases heq
    exact hlast hs (.withElse helse) h
  · next helse =>
    obtain ⟨s, hnext, h⟩ := Option.bind_eq_some_iff.mp h
    split at h
    · cases h
    · obtain ⟨⟨whenFalse, stop⟩, hpair, h⟩ := Option.bind_eq_some_iff.mp h
      obtain ⟨_, hs, heq⟩ := Option.map_eq_some_iff.mp hpair
      cases heq
      exact hlast hs (.withNext helse hnext) h

/-- An `if` between the literals returns the value of its condition or the other one. -/
theorem outcomes_of_covers {condition consequence otherwise : Node} {whenTrue : Bool} {stop : Nat}
    {statements : List Node} (hkind : n.kind = .ifStatement)
    (hcondition : n.childBy? .condition = some condition)
    (hconsequence : n.childBy? .consequence = some consequence)
    (htrue : returned? consequence = some whenTrue)
    (hfalse : returned? otherwise = some (!whenTrue))
    (hcovers : Covers n otherwise stop statements) :
    outcomes source value ends statements =
      .returns (truth source value condition == whenTrue) := by
  have hform : form n = .branches condition [consequence] (n.childBy? .alternative).toList := by
    rw [form, hkind]
    simp only [hcondition, hconsequence]
  have hthis : outcome source value ends n = _ := outcome_eq
  rw [hform] at hthis
  cases hcovers with
  | withElse helse =>
    rw [outcomes_singleton, hthis, helse]
    simp only [Option.toList_some, outcomes_singleton, outcome_of_returned? htrue,
      outcome_of_returned? hfalse]
    cases truth source value condition <;> cases whenTrue <;> rfl
  | withNext helse hnext =>
    rw [outcomes_cons, outcomes_singleton, hthis, helse, outcome_of_returned? hfalse]
    simp only [Option.toList_none, outcomes_singleton, outcome_of_returned? htrue]
    cases truth source value condition <;> cases whenTrue <;> rfl

end

/-! ## What is replaced -/

/-- An edit that simplifies a node with a spelling: it replaces an expression by another of the same
value, or an `if` and what follows it by a `return` of the value that they return. -/
inductive Simplifies (source : String) (n : Node) (e : TextEdit) (w : Spelling) : Prop
  | expression
    (hkind : n.isOneOf [.binaryExpression, .unaryExpression, .ternaryExpression] = true)
    (hstart : e.start = n.start) (hstop : e.stop = n.stop)
    (htext : e.replacement = w.text source) (hwhole : w.Whole (free n))
    (htruth : ∀ value, w.truth source value = truth source value n)
  | statements {otherwise : Node} {statements : List Node} (hkind : n.kind = .ifStatement)
    (hcovers : Covers n otherwise e.stop statements) (hstart : e.start = n.start)
    (hlist : (n.childBy? .alternative).isSome = true ∨
      n.parent?.any (·.isOneOf statementLists) = true)
    (htext : e.replacement = "return " ++ w.text source ++ ";") (hwhole : w.Whole true)
    (hvalue : ∀ value ends,
      outcomes source value ends statements = .returns (w.truth source value))

section

variable {d : Defect} {source : String} {n m : Node} {e : TextEdit}

theorem truth_of_parentheses {value : Node → Bool} (hkind : n.kind = .parenthesizedExpression)
    (h : n.parts.head? = some m) : truth source value n = truth source value m := by
  rw [truth_eq, shape, hkind]
  simp only [h]

theorem exists_simplifies_of_booleanIf? (hkind : n.kind = .ifStatement) (hformed : formed n = true)
    (h : booleanIf? n source = some e) :
    ∃ w, n.Holds w.operand ∧ Simplifies source n e w := by
  obtain ⟨hcondition, hconsequence, hinner, htrue, hfalse, hcovers, hstart, htext, -⟩ :=
    decides_of_booleanIf? h
  next condition consequence otherwise inner whenTrue statements =>
  have hheld : n.Holds inner := .child (Node.Holds.childBy? hcondition)
    (Node.mem_children_of_mem_parts (List.mem_of_head? hinner))
  rw [formed, hkind] at hformed
  obtain ⟨hparentheses, hlist⟩ := Bool.and_eq_true_iff.mp hformed
  rw [hcondition, Option.all_some, decide_eq_true_eq] at hparentheses
  have hvalue (value : Node → Bool) (ends : Node → Outcome) :
      outcomes source value ends statements =
        .returns (truth source value inner == whenTrue) := by
    rw [outcomes_of_covers hkind hcondition hconsequence htrue hfalse hcovers,
      truth_of_parentheses hparentheses hinner]
  have hlist : (n.childBy? .alternative).isSome = true ∨
      n.parent?.any (·.isOneOf statementLists) = true := by
    rcases Bool.or_eq_true_iff.mp hlist with hlist | hnone
    · exact Bool.or_eq_true_iff.mp hlist
    · generalize e.stop = stop at hcovers
      cases hcovers with
      | withElse helse => exact .inl (by rw [helse]; rfl)
      | withNext helse hnext =>
        have hother := List.all_eq_true.mp hnone _ (List.mem_of_find?_eq_some hnext)
        rw [isOneOf_of_returned? hfalse] at hother
        cases hother
  cases whenTrue with
  | true =>
    refine ⟨.plain inner, hheld,
      .statements hkind hcovers hstart hlist htext (.inr rfl) fun value ends => ?_⟩
    rw [hvalue, beq_true]
    rfl
  | false =>
    obtain ⟨w, hnegate, rfl, hwhole, hw⟩ := exists_negate_eq inner source
    refine ⟨w, hheld, .statements hkind hcovers hstart hlist ?_ (hwhole _) fun value ends => ?_⟩
    · rw [htext, ← hnegate]
      rfl
    · rw [hvalue, hw, beq_false]

/-- A node that is simplified is an expression that is replaced as a whole, or an `if`. -/
theorem simplify?_eq_some (h : simplify? n source = some e) :
    (∃ text, e = replace n.start n.stop text ("simplify " ++ n.kind.name) ∧
      (n.kind = .binaryExpression ∧ comparison? n source = some text ∨
        n.kind = .unaryExpression ∧ doubleNegation? n source = some text ∨
        n.kind = .ternaryExpression ∧ ternary? n source = some text)) ∨
    n.kind = .ifStatement ∧ booleanIf? n source = some e := by
  rw [simplify?] at h
  split at h
  · next hkind =>
    obtain ⟨text, htext, rfl⟩ := Option.map_eq_some_iff.mp h
    exact .inl ⟨text, rfl, .inl ⟨hkind, htext⟩⟩
  · next hkind =>
    obtain ⟨text, htext, rfl⟩ := Option.map_eq_some_iff.mp h
    exact .inl ⟨text, rfl, .inr (.inl ⟨hkind, htext⟩)⟩
  · next hkind =>
    obtain ⟨text, htext, rfl⟩ := Option.map_eq_some_iff.mp h
    exact .inl ⟨text, rfl, .inr (.inr ⟨hkind, htext⟩)⟩
  · next hkind => exact .inr ⟨hkind, h⟩
  · cases h

theorem exists_simplifies (hformed : formed n = true) (h : simplify? n source = some e) :
    ∃ w, n.Holds w.operand ∧ Simplifies source n e w := by
  rcases simplify?_eq_some h with ⟨text, rfl, htext⟩ | ⟨hkind, hif⟩
  · obtain ⟨hkind, w, hspelled, hwhole, hspells⟩ :
        n.isOneOf [.binaryExpression, .unaryExpression, .ternaryExpression] = true ∧
        ∃ w : Spelling, text = w.text source ∧ w.Whole (free n) ∧ Spells source n w := by
      rw [Node.isOneOf]
      rcases htext with ⟨hkind, htext⟩ | ⟨hkind, htext⟩ | ⟨hkind, htext⟩
      · exact ⟨by rw [hkind]; rfl, exists_spells_of_comparison? hkind htext⟩
      · exact ⟨by rw [hkind]; rfl, exists_spells_of_doubleNegation? htext⟩
      · exact ⟨by rw [hkind]; rfl, exists_spells_of_ternary? hkind htext⟩
    exact ⟨w, hspells.held, .expression hkind rfl rfl hspelled hwhole hspells.truth⟩
  · exact exists_simplifies_of_booleanIf? hkind hformed hif

theorem mem_edits_iff {root : Node} : e ∈ edits d source root ↔
    ∃ n ∈ root.visit fun n => !outside d n source && (editAt? d source n).isNone,
      editAt? d source n = some e :=
  List.mem_filterMap

theorem simplify?_of_editAt? (h : editAt? d source n = some e) : simplify? n source = some e :=
  (Option.ite_none_left_eq_some.mp h).2

end

/-! ## Where it is replaced -/

section

variable {d : Defect} {source : String} {n m c s : Node} {e : TextEdit} {enter : Node → Bool}

/-- An edit starts with its node and ends with it or with the statement that follows. -/
theorem range_of_simplify? (h : simplify? n source = some e) :
    e.priority = 0 ∧ e.start = n.start ∧
      (e.stop = n.stop ∨ ∃ s b, n.siblingsAfter.find? (·.kind.isNamed) = some s ∧
        returned? s = some b ∧ e.stop = s.stop) := by
  rcases simplify?_eq_some h with ⟨text, rfl, -⟩ | ⟨-, hif⟩
  · exact ⟨rfl, rfl, .inl rfl⟩
  · obtain ⟨-, -, -, -, hfalse, hcovers, hstart, -, hpriority⟩ := decides_of_booleanIf? hif
    refine ⟨hpriority, hstart, ?_⟩
    generalize e.stop = stop at hcovers
    cases hcovers with
    | withElse helse => exact .inl rfl
    | withNext helse hnext => exact .inr ⟨_, _, hnext, hfalse, rfl⟩

theorem stop_le_of_holds (hfits : n.tree.fits source = true) (hheld : n.Holds m) (hne : m ≠ n)
    (h : simplify? m source = some e) : e.stop ≤ n.stop := by
  cases hheld with
  | self => exact absurd rfl hne
  | @child p _ hp hm =>
    rcases (range_of_simplify? h).2.2 with hstop | ⟨s, b, hs, -, hstop⟩
    · rw [hstop]
      exact ((hp.child hm).spans hfits).2.2
    · rw [hstop]
      have hs := (Node.siblingsAfter_sublist hm).subset (List.mem_of_find?_eq_some hs)
      exact ((hp.child hs).spans hfits).2.2

theorem simplify?_eq_none (h : n.isOneOf [.binaryExpression, .unaryExpression, .ternaryExpression,
    .ifStatement] = false) : simplify? n source = none := by
  rw [simplify?]
  rw [Node.isOneOf] at h
  split
  · next hkind => rw [hkind] at h; cases h
  · next hkind => rw [hkind] at h; cases h
  · next hkind => rw [hkind] at h; cases h
  · next hkind => rw [hkind] at h; cases h
  · rfl

theorem formed_of_mem_namedChildren (hformed : ∀ m ∈ n.preorder, formed m = true)
    (hc : c ∈ n.namedChildren) : ∀ m ∈ c.preorder, formed m = true :=
  fun m hm => hformed m (Node.mem_visit.mpr (.inr ⟨rfl, c, hc, hm⟩))

theorem formed_self (hformed : ∀ m ∈ n.preorder, formed m = true) : formed n = true :=
  hformed n (Node.mem_visit.mpr (.inl rfl))

theorem eq_of_mem_visit_of_comment (hformed : formed n = true) (hcomment : n.isComment = true)
    (hm : m ∈ n.visit enter) : m = n := by
  have hkind : n.kind = .lineComment ∨ n.kind = .blockComment := by
    simpa [Node.isComment, Kind.isComment] using hcomment
  have hnone : n.namedChildren = [] := by
    rw [formed] at hformed
    rcases hkind with hkind | hkind <;> rw [hkind] at hformed <;>
      exact List.isEmpty_iff.mp hformed
  rcases Node.mem_visit.mp hm with rfl | ⟨-, c, hc, -⟩
  · rfl
  · rw [hnone] at hc
    cases hc

/-- Of a node that is not simplified nothing is if nothing in its parts is. -/
theorem simplify?_of_parts (hformed : ∀ m ∈ n.preorder, formed m = true)
    (hthis : simplify? n source = none)
    (hparts : ∀ c ∈ n.parts, ∀ m ∈ c.visit enter, simplify? m source = none)
    (hm : m ∈ n.visit enter) : simplify? m source = none := by
  rcases Node.mem_visit.mp hm with rfl | ⟨-, c, hc, hm⟩
  · exact hthis
  · cases hcomment : c.isComment with
    | false => exact hparts c (List.mem_filter.mpr ⟨hc, by rw [hcomment]; rfl⟩) m hm
    | true =>
      obtain rfl := eq_of_mem_visit_of_comment
        (formed_self (formed_of_mem_namedChildren hformed hc)) hcomment hm
      have hkind : m.kind = .lineComment ∨ m.kind = .blockComment := by
        simpa [Node.isComment, Kind.isComment] using hcomment
      refine simplify?_eq_none ?_
      rcases hkind with hkind | hkind <;> rw [Node.isOneOf, hkind] <;> rfl

theorem eq_of_mem_parts (hone : n.parts.length ≤ 1) (hs : n.parts.head? = some s)
    (hc : c ∈ n.parts) : c = s := by
  obtain ⟨rest, hparts⟩ := List.head?_eq_some_iff.mp hs
  rw [hparts] at hone hc
  obtain rfl : rest = [] := by simpa using hone
  exact List.mem_singleton.mp hc

theorem simplify?_of_literalWithin {fuel : Nat} {b : Bool}
    (hformed : ∀ m ∈ n.preorder, formed m = true)
    (h : literalWithin fuel n = some b) (hm : m ∈ n.visit enter) : simplify? m source = none := by
  induction fuel generalizing n m with
  | zero => cases h
  | succ fuel ih =>
    have hthis := formed_self hformed
    have hbare (hnone : n.namedChildren.isEmpty = true) (c : Node) (hc : c ∈ n.parts) :
        False := by
      rw [Node.parts, List.isEmpty_iff.mp hnone] at hc
      cases hc
    rw [literalWithin] at h
    rw [formed] at hthis
    split at h
    · next hkind =>
      rw [hkind] at hthis
      exact simplify?_of_parts hformed (simplify?_eq_none (by rw [Node.isOneOf, hkind]; rfl))
        (fun c hc => (hbare hthis c hc).elim) hm
    · next hkind =>
      rw [hkind] at hthis
      exact simplify?_of_parts hformed (simplify?_eq_none (by rw [Node.isOneOf, hkind]; rfl))
        (fun c hc => (hbare hthis c hc).elim) hm
    · next hkind =>
      rw [hkind] at hthis
      split at h
      · next inner hinner =>
        have hpart := Node.head?_parts hinner (isComment_of_literalWithin h)
        refine simplify?_of_parts hformed (simplify?_eq_none (by rw [Node.isOneOf, hkind]; rfl))
          (fun c hc k hk => ?_) hm
        obtain rfl := eq_of_mem_parts (of_decide_eq_true hthis) hpart hc
        exact ih (formed_of_mem_namedChildren hformed (List.mem_filter.mp hc).1) h hk
      · cases h
    · cases h

theorem simplify?_of_returnedWithin {fuel : Nat} {b : Bool}
    (hformed : ∀ m ∈ n.preorder, formed m = true)
    (h : returnedWithin fuel n = some b) (hm : m ∈ n.visit enter) : simplify? m source = none := by
  induction fuel generalizing n m with
  | zero => cases h
  | succ fuel ih =>
    rw [returnedWithin] at h
    split at h
    · next hkind =>
      obtain ⟨expression, hexpression, hliteral⟩ := Option.bind_eq_some_iff.mp h
      have hpart := Node.head?_parts hexpression (isComment_of_literalWithin hliteral)
      have hthis := formed_self hformed
      rw [formed, hkind] at hthis
      refine simplify?_of_parts hformed (simplify?_eq_none (by rw [Node.isOneOf, hkind]; rfl))
        (fun c hc k hk => ?_) hm
      obtain rfl := eq_of_mem_parts (of_decide_eq_true hthis) hpart hc
      exact simplify?_of_literalWithin
        (formed_of_mem_namedChildren hformed (List.mem_filter.mp hc).1) hliteral hk
    · next hkind =>
      split at h
      · next only honly =>
        refine simplify?_of_parts hformed (simplify?_eq_none (by rw [Node.isOneOf, hkind]; rfl))
          (fun c hc k hk => ?_) hm
        have hchild := formed_of_mem_namedChildren hformed (List.mem_filter.mp hc).1
        rw [honly] at hc
        obtain rfl := List.mem_singleton.mp hc
        exact ih hchild h hk
      · cases h
    · cases h

theorem simplify?_of_returned? {b : Bool} (hformed : ∀ m ∈ n.preorder, formed m = true)
    (h : returned? n = some b) (hm : m ∈ n.visit enter) : simplify? m source = none :=
  simplify?_of_returnedWithin hformed h hm

/-- The edits of the nodes that are visited do not overlap. -/
theorem pairwise_visit (hfits : n.tree.fits source = true)
    (hformed : ∀ m ∈ n.preorder, formed m = true)
    (henter : ∀ m, enter m = true → editAt? d source m = none) :
    (n.visit enter).Pairwise fun a b => ∀ e ∈ editAt? d source a, ∀ f ∈ editAt? d source b,
      e.stop ≤ f.start := by
  induction n using Node.induction_children with
  | h n ih =>
    rw [Node.visit_eq]
    refine .cons ?_ ?_
    · intro b hb e he
      split at hb
      · next hthis =>
        rw [henter n hthis] at he
        cases he
      · cases hb
    split
    · refine List.pairwise_flatMap.mpr ⟨fun c hc => ?_, ?_⟩
      · have hchild := (List.mem_filter.mp hc).1
        exact ih c hchild (Node.Holds.spans (.child .self hchild) hfits).1
          (formed_of_mem_namedChildren hformed hc)
      · refine (Node.pairwise_namedChildren hfits).imp_of_mem ?_
        rintro c d' hc hd ⟨hcd, hnext⟩ a ha b hb e he f hf
        have hcchild := (List.mem_filter.mp hc).1
        have hdchild := (List.mem_filter.mp hd).1
        have hcfits := (Node.Holds.spans (.child .self hcchild) hfits).1
        have hdfits := (Node.Holds.spans (.child .self hdchild) hfits).1
        have hstart := (range_of_simplify? (simplify?_of_editAt? hf)).2.1
        have hfrom := ((Node.holds_of_mem_visit hb).spans hdfits).2.1
        have hstop : e.stop ≤ d'.start := by
          by_cases hac : a = c
          · subst hac
            obtain ⟨-, -, hstop⟩ := range_of_simplify? (simplify?_of_editAt? he)
            rcases hstop with hstop | ⟨s, v, hs, hv, hstop⟩
            · rwa [hstop]
            · rcases hnext s hs with rfl | hbehind
              · have hnone : simplify? b source = none :=
                  simplify?_of_returned? (formed_of_mem_namedChildren hformed hd) hv hb
                rw [simplify?_of_editAt? hf] at hnone
                cases hnone
              · rwa [hstop]
          · exact Nat.le_trans (stop_le_of_holds hcfits (Node.holds_of_mem_visit ha) hac
              (simplify?_of_editAt? he)) hcd
        omega
    · exact .nil

/-- The edits of a grammatical tree do not overlap. -/
theorem apart_edits {t : Tree} (hgrammar : grammatical t = true) (hfits : t.fits source = true) :
    Apart (edits d source (.root t)) := by
  refine List.pairwise_filterMap.mpr (pairwise_visit hfits (List.all_eq_true.mp hgrammar) ?_)
  intro m hm
  exact Option.isNone_iff_eq_none.mp (Bool.and_eq_true_iff.mp hm).2

/-- An edit covers a piece of the source. -/
theorem fits_of_mem_edits {t : Tree} (hfits : t.fits source = true)
    (he : e ∈ edits d source (.root t)) : e.priority = 0 ∧ e.Fits source.utf8ByteSize := by
  obtain ⟨n, hn, hedit⟩ := mem_edits_iff.mp he
  obtain ⟨hpriority, hstart, hstop⟩ := range_of_simplify? (simplify?_of_editAt? hedit)
  have hheld := Node.holds_of_mem_visit hn
  obtain ⟨k, hk, hstop, hbehind⟩ :
      ∃ k, (Node.root t).Holds k ∧ e.stop = k.stop ∧ n.stop ≤ k.stop := by
    rcases hstop with hstop | ⟨s, b, hs, -, hstop⟩
    · exact ⟨n, hheld, hstop, Nat.le_refl _⟩
    · have hs := List.mem_of_find?_eq_some hs
      refine ⟨s, ?_, hstop, (Layout.siblings_around hheld hfits).2 s hs⟩
      cases hheld with
      | self => cases hs
      | child hp hc => exact hp.child ((Node.siblingsAfter_sublist hc).subset hs)
  have horder := Tree.start_le_stop _ (hheld.spans hfits).1
  have hlast := (hk.spans hfits).2.2
  obtain ⟨x, y, rfl, hx⟩ := Text.isBoundary_iff.mp (Tree.fits_iff.mp hfits).2.1
  refine ⟨hpriority, ?_, ?_⟩
  · rw [hstart, hstop]
    exact Nat.le_trans horder hbehind
  · rw [hstop, String.utf8ByteSize_append, hx]
    exact Nat.le_trans hlast (Nat.le_add_right _ _)

/-- The edits of a grammatical tree do not overlap, and none conflicts with another. -/
theorem rewrite_ne_conflict {t : Tree} {c : EditConflict} (hgrammar : grammatical t = true)
    (hfits : t.fits source = true) : rewrite d source t ≠ .error (.conflict c) := by
  have hapart := apart_edits (d := d) hgrammar hfits
  have hall (e : TextEdit) (he : e ∈ edits d source (.root t)) :=
    fits_of_mem_edits hfits he
  have hsorted : (edits d source (.root t)).Pairwise fun a b => a.key ≤ b.key := by
    refine List.Pairwise.imp_of_mem ?_ hapart
    intro a b ha hb hab
    obtain ⟨hpa, hfa, -⟩ := hall a ha
    obtain ⟨hpb, hfb, -⟩ := hall b hb
    rw [key_le_iff, hpa, hpb]
    omega
  have hset := (ofList_eq_ok_iff ⟨hsorted, fun _ => rfl⟩ _).mpr
    ⟨rfl, fun e he => (hall e he).2, hapart⟩
  rw [rewrite]
  split
  · intro h
    cases h
  · rw [Rewrite.ofEdits, hset]
    dsimp only
    split <;> (intro h; cases h)

/-- What is written has the values of what was there.  Each edit puts one of the expressions of a
node, or its negation, in the place of the node, or puts a `return` of it in the place of
statements. -/
theorem simplification_keeps_values {t : Tree} {r : Rewrite} (hgrammar : grammatical t = true)
    (h : rewrite d source t = .ok r) :
    ∃ ordered content shifts description, r = .edit content shifts description ∧
      Rewrites 0 source ordered content ∧ Apart ordered ∧
      ∀ e ∈ ordered, ∃ n w, (Node.root t).Holds n ∧ n.Holds w.operand ∧
        Simplifies source n e w := by
  rw [rewrite] at h
  split at h
  · cases h
  · obtain ⟨ordered, content, shifts, rfl, ho, hapart, hrewrites⟩ := Rewrite.ofEdits_eq_ok h
    refine ⟨ordered, content, shifts, _, rfl, hrewrites, hapart, fun e he => ?_⟩
    obtain ⟨n, hn, hedit⟩ := mem_edits_iff.mp ((ho.mem_iff e).mp he)
    have hformed := List.all_eq_true.mp hgrammar n (Node.mem_preorder_of_mem_visit hn)
    obtain ⟨w, hw⟩ := exists_simplifies hformed (simplify?_of_editAt? hedit)
    exact ⟨n, w, Node.holds_of_mem_visit hn, hw⟩

end

/-! ## A method with a comparison and an `if` -/

/-- A method that compares its parameter with a literal and decides on it between the literals. -/
def gateSource : String :=
  "class Gate \x7b\n    boolean open(boolean a) \x7b\n        log(a == false);\n" ++
    "        if (a) return false;\n        return true;\n    \x7d\n\x7d\n"

/-- Its tree. -/
def gateTree : Tree :=
  ⟨.program, none, false, 0, 126, [⟨.classDeclaration, none, false, 0, 125, [
    ⟨.token "class", none, false, 0, 5, []⟩, ⟨.identifier, some .name, false, 6, 10, []⟩,
    ⟨.classBody, some .body, false, 11, 125, [⟨.token "\x7b", none, false, 11, 12, []⟩,
    ⟨.methodDeclaration, none, false, 17, 123, [⟨.booleanType, some .type, false, 17, 24, []⟩,
    ⟨.identifier, some .name, false, 25, 29, []⟩,
    ⟨.formalParameters, some .parameters, false, 29, 40, [⟨.token "(", none, false, 29, 30, []⟩,
    ⟨.formalParameter, none, false, 30, 39, [⟨.booleanType, some .type, false, 30, 37, []⟩,
    ⟨.identifier, some .name, false, 38, 39, []⟩]⟩, ⟨.token ")", none, false, 39, 40, []⟩]⟩,
    ⟨.block, some .body, false, 41, 123, [⟨.token "\x7b", none, false, 41, 42, []⟩,
    ⟨.expressionStatement, none, false, 51, 67, [⟨.methodInvocation, none, false, 51, 66, [
    ⟨.identifier, some .name, false, 51, 54, []⟩,
    ⟨.argumentList, some .arguments, false, 54, 66, [⟨.token "(", none, false, 54, 55, []⟩,
    ⟨.binaryExpression, none, false, 55, 65, [⟨.identifier, some .left, false, 55, 56, []⟩,
    ⟨.token "==", some .operator, false, 57, 59, []⟩,
    ⟨.falseLiteral, some .right, false, 60, 65, []⟩]⟩, ⟨.token ")", none, false, 65, 66, []⟩]⟩]⟩,
    ⟨.token ";", none, false, 66, 67, []⟩]⟩, ⟨.ifStatement, none, false, 76, 96, [
    ⟨.token "if", none, false, 76, 78, []⟩,
    ⟨.parenthesizedExpression, some .condition, false, 79, 82, [
    ⟨.token "(", none, false, 79, 80, []⟩, ⟨.identifier, none, false, 80, 81, []⟩,
    ⟨.token ")", none, false, 81, 82, []⟩]⟩,
    ⟨.returnStatement, some .consequence, false, 83, 96, [
    ⟨.token "return", none, false, 83, 89, []⟩, ⟨.falseLiteral, none, false, 90, 95, []⟩,
    ⟨.token ";", none, false, 95, 96, []⟩]⟩]⟩, ⟨.returnStatement, none, false, 105, 117, [
    ⟨.token "return", none, false, 105, 111, []⟩, ⟨.trueLiteral, none, false, 112, 116, []⟩,
    ⟨.token ";", none, false, 116, 117, []⟩]⟩, ⟨.token "\x7d", none, false, 122, 123, []⟩]⟩]⟩,
    ⟨.token "\x7d", none, false, 124, 125, []⟩]⟩]⟩]⟩

/-- The method, simplified. -/
def gateResult : String :=
  "class Gate \x7b\n    boolean open(boolean a) \x7b\n        log(!a);\n        return !a;\n" ++
    "    \x7d\n\x7d\n"

/-- The record of the two lines. -/
def gateDefect : Defect :=
  { category := "redundant-boolean", file := ⟨"Gate.java"⟩, startLine := 3, endLine := some 4 }

theorem edits_gate : edits gateDefect gateSource (.root gateTree) =
    [.replace 55 65 "!a" "simplify binary_expression",
      .replace 76 117 "return !a;" "collapse boolean if"] := by
  decide +kernel

theorem rewrite_gate : ∃ description, rewrite gateDefect gateSource gateTree =
    .ok (.edit gateResult [⟨5, -1⟩] description) := by
  simp only [rewrite, edits_gate, List.isEmpty_cons, Bool.false_eq_true, if_false]
  refine ⟨_, Rewrite.ofEdits_of_apart (by decide +kernel) ?_ ?_ (by decide +kernel)
    (by decide +kernel)⟩
  · simp only [Fits]
    decide +kernel
  · rw [Apart]
    decide +kernel

/-- The argument and the two statements keep their values. -/
theorem simplification_keeps_values_gate : grammatical gateTree = true ∧
    ∃ ordered, Rewrites 0 gateSource ordered gateResult ∧ Apart ordered ∧
      ∀ e ∈ ordered, ∃ n w, (Node.root gateTree).Holds n ∧ n.Holds w.operand ∧
        Simplifies gateSource n e w := by
  have hgrammar : grammatical gateTree = true := by decide +kernel
  obtain ⟨description, h⟩ := rewrite_gate
  obtain ⟨ordered, content, shifts, description, hr, hrewrites, hapart, hall⟩ :=
    simplification_keeps_values hgrammar h
  cases hr
  exact ⟨hgrammar, ordered, hrewrites, hapart, hall⟩

end Amend.Refactoring.Conditional
