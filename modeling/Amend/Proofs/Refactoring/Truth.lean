import Amend.Proofs.Syntax.Order
import Amend.Refactoring.Conditional

/-!
# What expressions and statements come to

The truth value of an expression is made of the values of the expressions in it.  A statement
returns such a value, leaves the method in another way, or lets the next statement be run.
-/

namespace Amend.Refactoring.Conditional

open Syntax

/-! ## Truth values -/

/-- How the truth value of an expression comes from the expressions in it. -/
inductive Shape where
  | literal (value : Bool)
  | same (inner : Node)
  | negation (operand : Node)
  /-- Whether two values are the same, or whether they are not. -/
  | comparison (positive : Bool) (left right : Node)
  | choice (condition whenTrue whenFalse : Node)
  /-- The expression has a value of its own. -/
  | other

/-- The text of an expression's operator. -/
def operator? (n : Node) (source : String) : Option String :=
  (n.childBy? .operator).map (·.text source)

/-- Whether an operator asks for two values to be the same, or not to be. -/
def polarity? : String → Option Bool
  | "==" => some true
  | "!=" => some false
  | _ => none

/-- The shape of an expression.  A comparison is one of truth values if a side is a boolean
literal. -/
def shape (source : String) (n : Node) : Shape :=
  match n.kind with
  | .trueLiteral => .literal true
  | .falseLiteral => .literal false
  | .parenthesizedExpression =>
    match n.parts.head? with
    | some inner => .same inner
    | none => .other
  | .unaryExpression =>
    match operator? n source, n.childBy? .operand with
    | some "!", some operand => .negation operand
    | _, _ => .other
  | .binaryExpression =>
    match (operator? n source).bind polarity?, n.childBy? .left, n.childBy? .right with
    | some positive, some left, some right =>
      if (literal? left).isSome || (literal? right).isSome then .comparison positive left right
      else .other
    | _, _, _ => .other
  | .ternaryExpression =>
    match n.childBy? .condition, n.childBy? .consequence, n.childBy? .alternative with
    | some condition, some whenTrue, some whenFalse => .choice condition whenTrue whenFalse
    | _, _, _ => .other
  | _ => .other

/-- The expressions in a shape. -/
def Shape.nodes : Shape → List Node
  | .literal _ => []
  | .same inner => [inner]
  | .negation operand => [operand]
  | .comparison _ left right => [left, right]
  | .choice condition whenTrue whenFalse => [condition, whenTrue, whenFalse]
  | .other => []

section

variable {source : String} {n m : Node}

theorem mem_children_of_mem_shape (h : m ∈ (shape source n).nodes) : m ∈ n.children := by
  rw [shape] at h
  split at h
  · cases h
  · cases h
  · split at h
    · next hinner =>
      obtain rfl := List.mem_singleton.mp h
      exact Node.mem_children_of_mem_parts (List.mem_of_head? hinner)
    · cases h
  · split at h
    · next hoperand =>
      obtain rfl := List.mem_singleton.mp h
      exact Node.mem_children_of_childBy? hoperand
    · cases h
  · split at h
    · next hleft hright =>
      split at h
      · rcases List.mem_pair.mp h with rfl | rfl
        · exact Node.mem_children_of_childBy? hleft
        · exact Node.mem_children_of_childBy? hright
      · cases h
    · cases h
  · split at h
    · next hcondition htrue hfalse =>
      rcases List.mem_cons.mp h with rfl | h
      · exact Node.mem_children_of_childBy? hcondition
      rcases List.mem_pair.mp h with rfl | rfl
      · exact Node.mem_children_of_childBy? htrue
      · exact Node.mem_children_of_childBy? hfalse
    · cases h
  · cases h

/-- The truth value of an expression, given the values of those that have one of their own. -/
def truth (source : String) (value : Node → Bool) (n : Node) : Bool :=
  match _ : shape source n with
  | .literal b => b
  | .same inner => truth source value inner
  | .negation operand => !truth source value operand
  | .comparison positive left right =>
    (truth source value left == truth source value right) == positive
  | .choice condition whenTrue whenFalse =>
    if truth source value condition then truth source value whenTrue
    else truth source value whenFalse
  | .other => value n
termination_by sizeOf n.tree
decreasing_by
  all_goals
    have hlt {m : Node} (hm : m ∈ (shape source n).nodes) : sizeOf m.tree < sizeOf n.tree :=
      Node.sizeOf_lt_of_mem_children (mem_children_of_mem_shape hm)
    refine hlt ?_
    rw [‹shape source n = _›]
    simp [Shape.nodes]

variable {value : Node → Bool}

theorem truth_eq : truth source value n =
    match shape source n with
    | .literal b => b
    | .same inner => truth source value inner
    | .negation operand => !truth source value operand
    | .comparison positive left right =>
      (truth source value left == truth source value right) == positive
    | .choice condition whenTrue whenFalse =>
      if truth source value condition then truth source value whenTrue
      else truth source value whenFalse
    | .other => value n := by
  rw [truth]
  split <;> simp_all

theorem isComment_of_literalWithin {fuel : Nat} {b : Bool} (h : literalWithin fuel n = some b) :
    n.isComment = false := by
  cases fuel with
  | zero => cases h
  | succ fuel =>
    rw [literalWithin] at h
    rw [Node.isComment]
    split at h
    · next hkind => rw [hkind]; rfl
    · next hkind => rw [hkind]; rfl
    · next hkind => rw [hkind]; rfl
    · cases h

/-- A boolean literal has its value, however many parentheses are around it. -/
theorem truth_of_literalWithin {fuel : Nat} {b : Bool} (h : literalWithin fuel n = some b) :
    truth source value n = b := by
  induction fuel generalizing n with
  | zero => cases h
  | succ fuel ih =>
    rw [literalWithin] at h
    rw [truth_eq, shape]
    split at h
    · next hkind =>
      rw [hkind]
      exact Option.some.inj h
    · next hkind =>
      rw [hkind]
      exact Option.some.inj h
    · next hkind =>
      rw [hkind]
      split at h
      · next inner hinner =>
        rw [Node.head?_parts hinner (isComment_of_literalWithin h)]
        exact ih h
      · cases h
    · cases h

theorem truth_of_literal? {b : Bool} (h : literal? n = some b) : truth source value n = b :=
  truth_of_literalWithin h

end

/-! ## What statements do -/

/-- How a statement ends: the next one is run, or the method is left, with a truth value or in
another way. -/
inductive Outcome where
  | goesOn
  | returns (value : Bool)
  | leaves

/-- What is run after a statement that ends in a way. -/
def Outcome.andThen : Outcome → Outcome → Outcome
  | .goesOn, next => next
  | .returns b, _ => .returns b
  | .leaves, _ => .leaves

/-- What a statement is made of. -/
inductive Form where
  | returned (expression : Node)
  | sequence (statements : List Node)
  | branches (condition : Node) (whenTrue whenFalse : List Node)
  /-- The statement ends in a way of its own. -/
  | other

/-- The form of a statement. -/
def form (n : Node) : Form :=
  match n.kind with
  | .returnStatement =>
    match n.parts.head? with
    | some expression => .returned expression
    | none => .other
  | .block => .sequence n.parts
  | .ifStatement =>
    match n.childBy? .condition, n.childBy? .consequence with
    | some condition, some whenTrue =>
      .branches condition [whenTrue] (n.childBy? .alternative).toList
    | _, _ => .other
  | _ => .other

/-- The statements in a form. -/
def Form.statements : Form → List Node
  | .returned _ => []
  | .sequence statements => statements
  | .branches _ whenTrue whenFalse => whenTrue ++ whenFalse
  | .other => []

section

variable {source : String} {n m : Node}

theorem mem_children_of_mem_form (h : m ∈ (form n).statements) : m ∈ n.children := by
  rw [form] at h
  split at h
  · split at h <;> cases h
  · exact Node.mem_children_of_mem_parts h
  · split at h
    · next hconsequence =>
      rcases List.mem_append.mp h with h | h
      · obtain rfl := List.mem_singleton.mp h
        exact Node.mem_children_of_childBy? hconsequence
      · exact Node.mem_children_of_childBy? (Option.mem_toList.mp h)
    · cases h
  · cases h

/-- How a statement ends, given the truth values of expressions and how statements end that are
not looked into. -/
def outcome (source : String) (value : Node → Bool) (ends : Node → Outcome) (n : Node) :
    Outcome :=
  match _ : form n with
  | .returned expression => .returns (truth source value expression)
  | .sequence statements =>
    statements.attach.foldr (fun s next => (outcome source value ends s.1).andThen next) .goesOn
  | .branches condition whenTrue whenFalse =>
    if truth source value condition then
      whenTrue.attach.foldr (fun s next => (outcome source value ends s.1).andThen next) .goesOn
    else
      whenFalse.attach.foldr (fun s next => (outcome source value ends s.1).andThen next) .goesOn
  | .other => ends n
termination_by sizeOf n.tree
decreasing_by
  all_goals
    refine Node.sizeOf_lt_of_mem_children (mem_children_of_mem_form ?_)
    rw [‹form n = _›]
  · exact s.2
  · exact List.mem_append_left _ s.2
  · exact List.mem_append_right _ s.2

/-- How statements one after the other end. -/
def outcomes (source : String) (value : Node → Bool) (ends : Node → Outcome)
    (statements : List Node) : Outcome :=
  statements.foldr (fun s next => (outcome source value ends s).andThen next) .goesOn

variable {value : Node → Bool} {ends : Node → Outcome}

theorem outcome_eq : outcome source value ends n =
    match form n with
    | .returned expression => .returns (truth source value expression)
    | .sequence statements => outcomes source value ends statements
    | .branches condition whenTrue whenFalse =>
      if truth source value condition then outcomes source value ends whenTrue
      else outcomes source value ends whenFalse
    | .other => ends n := by
  rw [outcome]
  split <;> simp_all [outcomes]

theorem outcomes_cons (m : Node) (ns : List Node) : outcomes source value ends (m :: ns) =
    (outcome source value ends m).andThen (outcomes source value ends ns) := rfl

theorem outcomes_singleton (m : Node) :
    outcomes source value ends [m] = outcome source value ends m := by
  rw [outcomes_cons]
  cases outcome source value ends m <;> rfl

/-- A statement that returns a literal, alone or in a block. -/
theorem outcome_of_returnedWithin {fuel : Nat} {b : Bool} (h : returnedWithin fuel n = some b) :
    outcome source value ends n = .returns b := by
  induction fuel generalizing n with
  | zero => cases h
  | succ fuel ih =>
    rw [returnedWithin] at h
    rw [outcome_eq, form]
    split at h
    · next hkind =>
      obtain ⟨expression, hexpression, hliteral⟩ := Option.bind_eq_some_iff.mp h
      rw [hkind]
      simp only [Node.head?_parts hexpression (isComment_of_literalWithin hliteral),
        truth_of_literal? hliteral]
    · next hkind =>
      rw [hkind]
      split at h
      · next only honly =>
        simp only [honly, outcomes_singleton]
        exact ih h
      · cases h
    · cases h

theorem outcome_of_returned? {b : Bool} (h : returned? n = some b) :
    outcome source value ends n = .returns b :=
  outcome_of_returnedWithin h

end

end Amend.Refactoring.Conditional
