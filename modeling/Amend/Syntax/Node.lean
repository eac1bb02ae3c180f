import Amend.Syntax.Tree
import Amend.Text.Lines

/-!
# Nodes in their tree

A node is a tree together with the way down to it, so that parents and siblings can be reached.
Two nodes of one tree are the same exactly when the ways down to them are.
-/

namespace Amend.Syntax

/-- A subtree in its place: `above` holds the trees on the way up, nearest first, each with the
index of the child through which the way leads. -/
structure Node where
  tree : Tree
  above : List (Tree × Nat)
deriving Inhabited

namespace Node

/-- The root of a tree. -/
def root (t : Tree) : Node := ⟨t, []⟩

/-- The child indices on the way up, which tell the nodes of one tree apart. -/
def path (n : Node) : List Nat := n.above.map (·.2)

/-- Whether two nodes of one tree are the same. -/
def same (n m : Node) : Bool := n.path == m.path

/-- What the node is. -/
def kind (n : Node) : Kind := n.tree.kind

/-- The offset of the first byte. -/
def start (n : Node) : Nat := n.tree.start

/-- The offset after the last byte. -/
def stop (n : Node) : Nat := n.tree.stop

/-- The bytes that the node covers. -/
def span (n : Node) : Span := ⟨n.start, n.stop⟩

/-- Whether the node is of one of the given kinds. -/
def isOneOf (n : Node) (kinds : List Kind) : Bool := kinds.contains n.kind

/-- Whether the node is a comment. -/
def isComment (n : Node) : Bool := n.kind.isComment

/-- The text that the node covers. -/
def text (n : Node) (source : String) : String := Text.sliceD source n.start n.stop

/-- The 1-based line of the first byte. -/
def firstLine (n : Node) (source : String) : Nat := Text.rowOf source n.start + 1

/-- The 1-based line of the end. -/
def lastLine (n : Node) (source : String) : Nat := Text.rowOf source n.stop + 1

/-- The node that holds this one. -/
def parent? (n : Node) : Option Node :=
  match n.above with
  | [] => none
  | (t, _) :: above => some ⟨t, above⟩

/-- The node's place among its siblings. -/
def index (n : Node) : Nat :=
  match n.above with
  | [] => 0
  | (_, i) :: _ => i

/-- The child at an index, tokens counted. -/
def child? (n : Node) (i : Nat) : Option Node :=
  n.tree.children[i]?.map fun t => ⟨t, (n.tree, i) :: n.above⟩

/-- All children. -/
def children (n : Node) : List Node :=
  n.tree.children.mapIdx fun i t => ⟨t, (n.tree, i) :: n.above⟩

/-- The children that are no tokens, comments included. -/
def namedChildren (n : Node) : List Node := n.children.filter (·.kind.isNamed)

/-- The children that are neither tokens nor comments. -/
def parts (n : Node) : List Node := n.namedChildren.filter (!·.isComment)

/-- The children with a role. -/
def childrenBy (n : Node) (f : Field) : List Node := n.children.filter (·.tree.field = some f)

/-- The first child with a role. -/
def childBy? (n : Node) (f : Field) : Option Node := n.children.find? (·.tree.field = some f)

/-- Whether the node is the first child of its parent with a role. -/
def isChildBy (n : Node) (f : Field) : Bool :=
  match n.parent? with
  | none => false
  | some p => (p.childBy? f).any (·.same n)

/-- The siblings before the node, nearest first. -/
def siblingsBefore (n : Node) : List Node :=
  match n.parent? with
  | none => []
  | some p => (p.children.take n.index).reverse

/-- The siblings after the node. -/
def siblingsAfter (n : Node) : List Node :=
  match n.parent? with
  | none => []
  | some p => p.children.drop (n.index + 1)

/-- The nodes above one, nearest first, from the trees on its way up. -/
def upward : List (Tree × Nat) → List Node
  | [] => []
  | (t, _) :: above => ⟨t, above⟩ :: upward above

/-- The nodes above this one, nearest first. -/
def ancestors (n : Node) : List Node := upward n.above

/-- The nearest node above of one of the given kinds. -/
def ancestor? (n : Node) (kinds : List Kind) : Option Node :=
  n.ancestors.find? (·.isOneOf kinds)

mutual

/-- The nodes of a tree that are no tokens, in pre-order; below a node that `enter` refuses,
none. -/
def visitTree (enter : Node → Bool) : Tree → List (Tree × Nat) → List Node
  | ⟨kind, field, missing, start, stop, children⟩, above =>
    let t : Tree := ⟨kind, field, missing, start, stop, children⟩
    ⟨t, above⟩ ::
      if enter ⟨t, above⟩ then visitTrees enter t above 0 children else []

/-- The nodes of the children of `t` from index `i` on. -/
def visitTrees (enter : Node → Bool) (t : Tree) (above : List (Tree × Nat)) :
    Nat → List Tree → List Node
  | _, [] => []
  | i, c :: cs =>
    (if c.kind.isNamed then visitTree enter c ((t, i) :: above) else []) ++
      visitTrees enter t above (i + 1) cs

end

/-- The node and all below it that are no tokens, in pre-order, not entering those that `enter`
refuses. -/
def visit (n : Node) (enter : Node → Bool) : List Node := visitTree enter n.tree n.above

/-- The node and all below it that are no tokens, in pre-order. -/
def preorder (n : Node) : List Node := n.visit fun _ => true

/-- The nodes of the given kinds in pre-order, this one included. -/
def descendants (n : Node) (kinds : List Kind) : List Node :=
  n.preorder.filter (·.isOneOf kinds)

/-- Whether `m` lies at or below the node. -/
def contains (n m : Node) : Bool := n.path.isSuffixOf m.path

end Node

end Amend.Syntax
