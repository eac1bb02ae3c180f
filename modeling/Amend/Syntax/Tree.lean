import Amend.Syntax.Kind

/-!
# Syntax trees

A tree over a source text: each node covers a span of bytes and holds its children in source
order. Blanks between siblings belong to their parent alone.
-/

namespace Amend.Syntax

/-- A node with all below it. `field` is its role in its parent; a missing node covers nothing and
stands for a token that the parser put in. -/
structure Tree where
  kind : Kind
  field : Option Field
  missing : Bool
  start : Nat
  stop : Nat
  children : List Tree
deriving Inhabited

namespace Tree

mutual

/-- Whether the tree holds a missing node or a counted error. -/
def hasError : Tree → Bool
  | ⟨kind, _, missing, _, _, children⟩ =>
    missing || kind = .error true || anyHasError children

/-- Whether one of several trees holds a missing node or a counted error. -/
def anyHasError : List Tree → Bool
  | [] => false
  | t :: ts => hasError t || anyHasError ts

end

mutual

/-- The number of nodes. -/
def size : Tree → Nat
  | ⟨_, _, _, _, _, children⟩ => 1 + sizeAll children

/-- The number of nodes of several trees. -/
def sizeAll : List Tree → Nat
  | [] => 0
  | t :: ts => size t + sizeAll ts

end

theorem sizeAll_append (ts us : List Tree) : sizeAll (ts ++ us) = sizeAll ts + sizeAll us := by
  induction ts with
  | nil => rw [List.nil_append, sizeAll, Nat.zero_add]
  | cons t ts ih => rw [List.cons_append, sizeAll, sizeAll, ih, Nat.add_assoc]

theorem sizeAll_filter_le (p : Tree → Bool) (ts : List Tree) :
    sizeAll (ts.filter p) ≤ sizeAll ts := by
  induction ts with
  | nil => exact Nat.le_refl _
  | cons t ts ih =>
    rw [List.filter_cons]
    split
    · exact Nat.add_le_add_left ih _
    · exact Nat.le_trans ih (Nat.le_add_left _ _)

end Tree

end Amend.Syntax
