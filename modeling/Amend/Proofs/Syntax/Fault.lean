import Amend.Proofs.Syntax.Order
import Amend.Validation.Verdict

/-!
# Every fault is found

The search for faults takes trees off a stack and puts only those of their children back that are
marked.  In a tree whose marks are right nothing is lost by that: the search comes to what a walk
over the whole tree comes to, in the order of the walk, and a source passes exactly if there is
nothing to find.
-/

namespace Amend.Syntax

namespace Tree

mutual

/-- The nodes of a tree in pre-order, tokens included. -/
def nodes : Tree → List Tree
  | ⟨kind, field, missing, start, stop, children⟩ =>
    ⟨kind, field, missing, start, stop, children⟩ :: nodesAll children

/-- The nodes of several trees. -/
def nodesAll : List Tree → List Tree
  | [] => []
  | t :: ts => nodes t ++ nodesAll ts

end

variable {t n : Tree} {ts stack : List Tree}

theorem nodesAll_eq : nodesAll ts = ts.flatMap nodes := by
  induction ts with
  | nil => rfl
  | cons t ts ih => rw [nodesAll, ih, List.flatMap_cons]

/-- A walk meets the root and then what the walks over the children meet. -/
theorem nodes_eq : t.nodes = t :: t.children.flatMap nodes := by
  obtain ⟨kind, field, missing, start, stop, children⟩ := t
  rw [nodes, nodesAll_eq]

theorem mem_nodes_iff : n ∈ t.nodes ↔ n = t ∨ ∃ c ∈ t.children, n ∈ c.nodes := by
  rw [nodes_eq, List.mem_cons, List.mem_flatMap]

theorem self_mem_nodes (t : Tree) : t ∈ t.nodes := mem_nodes_iff.mpr (.inl rfl)

/-- What holds of a tree if it holds of its children holds of all trees. -/
theorem induction_children {P : Tree → Prop} (h : ∀ t : Tree, (∀ c ∈ t.children, P c) → P t)
    (t : Tree) : P t :=
  h t fun c _ => induction_children h c
termination_by sizeOf t
decreasing_by
  obtain ⟨kind, field, missing, start, stop, children⟩ := t
  have hlt := List.sizeOf_lt_of_mem ‹c ∈ _›
  simp only [Tree.mk.sizeOf_spec] at *
  omega

/-- What is met below a node that is met is met. -/
theorem mem_nodes_trans {f : Tree} (hn : n ∈ t.nodes) (hf : f ∈ n.nodes) : f ∈ t.nodes := by
  induction t using induction_children with
  | h t ih =>
    rcases mem_nodes_iff.mp hn with rfl | ⟨c, hc, hn⟩
    · exact hf
    · exact mem_nodes_iff.mpr (.inr ⟨c, hc, ih c hc hn⟩)

/-! ## Marks -/

/-- Whether every node is marked exactly if it is an error or missing node or holds one. -/
def MarksFaults (t : Tree) : Prop :=
  ∀ n ∈ t.nodes, n.hasError = true ↔ ∃ f ∈ n.nodes, f.isFault = true

theorem anyHasError_iff : anyHasError ts = true ↔ ∃ t ∈ ts, t.hasError = true := by
  induction ts with
  | nil => simp [anyHasError]
  | cons t ts ih => simp [anyHasError, ih]

theorem hasError_eq : t.hasError =
    (t.missing || t.kind = .error true || t.children.any hasError) := by
  obtain ⟨kind, field, missing, start, stop, children⟩ := t
  rw [hasError, Bool.eq_iff_iff]
  simp [anyHasError_iff]

/-- A tree is marked exactly if it holds a missing node or an error that counts. -/
theorem hasError_iff : t.hasError = true ↔
    ∃ f ∈ t.nodes, f.missing = true ∨ f.kind = .error true := by
  induction t using induction_children with
  | h t ih =>
    have hbelow : (∃ c ∈ t.children, c.hasError = true) ↔
        ∃ c ∈ t.children, ∃ f ∈ c.nodes, f.missing = true ∨ f.kind = .error true :=
      exists_congr fun c => and_congr_right fun hc => ih c hc
    rw [hasError_eq, Bool.or_eq_true, Bool.or_eq_true, decide_eq_true_eq, List.any_eq_true, hbelow,
      nodes_eq]
    simp only [List.mem_cons, List.mem_flatMap, exists_eq_or_imp]
    refine or_congr_right ⟨?_, ?_⟩
    · rintro ⟨c, hc, f, hf, hfault⟩
      exact ⟨f, ⟨c, hc, hf⟩, hfault⟩
    · rintro ⟨f, ⟨c, hc, hf⟩, hfault⟩
      exact ⟨c, hc, f, hf, hfault⟩

/-- Where every error counts the marks are right. -/
theorem marksFaults_of_counted (h : ∀ n ∈ t.nodes, n.kind ≠ .error false) : t.MarksFaults := by
  intro n hn
  rw [hasError_iff]
  refine exists_congr fun f => and_congr_right fun hf => ?_
  have hcounted := h f (mem_nodes_trans hn hf)
  rw [isFault, Bool.or_eq_true, or_comm]
  refine or_congr_left ?_
  cases hkind : f.kind with
  | error counted =>
    rw [hkind] at hcounted
    cases counted with
    | true => simp [Kind.isError]
    | false => exact absurd rfl hcounted
  | _ => simp [Kind.isError]

theorem MarksFaults.of_mem_children {c : Tree} (h : t.MarksFaults) (hc : c ∈ t.children) :
    c.MarksFaults :=
  fun n hn => h n (mem_nodes_iff.mpr (.inr ⟨c, hc, hn⟩))

/-- In a tree that is marked right and not marked there is nothing to find. -/
theorem MarksFaults.filter_nodes_eq_nil (h : t.MarksFaults) (hnone : t.hasError = false) :
    t.nodes.filter isFault = [] := by
  rw [List.filter_eq_nil_iff]
  intro f hf hfault
  have hmark := (h t (self_mem_nodes t)).mpr ⟨f, hf, hfault⟩
  rw [hnone] at hmark
  cases hmark

/-- The marked children hold all there is to find in the children. -/
theorem MarksFaults.filter_marked (h : t.MarksFaults) :
    (t.marked.flatMap nodes).filter isFault = (t.children.flatMap nodes).filter isFault := by
  rw [List.filter_flatMap, List.filter_flatMap]
  refine flatMap_filter_of_nil fun c hc hmark => ?_
  exact (h.of_mem_children hc).filter_nodes_eq_nil (Bool.or_eq_false_iff.mp hmark).1

/-! ## The search -/

/-- The search comes to all there is to find in the trees on the stack, in the order of a walk over
one after the other. -/
theorem faultsOnStack_eq (h : ∀ t ∈ stack, t.MarksFaults) :
    faultsOnStack stack = (stack.flatMap nodes).filter isFault := by
  induction stack using faultsOnStack.induct with
  | case1 => rw [faultsOnStack]; rfl
  | case2 t stack ih =>
    have hroot := h t List.mem_cons_self
    have hnext : ∀ u ∈ t.marked ++ stack, u.MarksFaults := by
      intro u hu
      rcases List.mem_append.mp hu with hu | hu
      · exact hroot.of_mem_children (List.mem_of_mem_filter hu)
      · exact h u (List.mem_cons_of_mem t hu)
    rw [faultsOnStack, ih hnext, List.flatMap_append, List.filter_append, hroot.filter_marked,
      List.flatMap_cons, nodes_eq, List.cons_append, List.filter_cons, List.filter_append]
    split <;> rfl

theorem faultTrees_eq (h : t.MarksFaults) : t.faultTrees = t.nodes.filter isFault := by
  rw [faultTrees, faultsOnStack_eq (by simpa using h), List.flatMap_singleton]

/-- The 1-based line and column of a node's first byte. -/
def place (source : String) (n : Tree) : Nat × Nat :=
  (Text.rowOf source n.start + 1, Text.columnOf source n.start + 1)

/-- One report is made on each error or missing node that the search comes to. -/
theorem map_place_faults (source : String) (h : t.MarksFaults) :
    (t.faults source).map (fun f => (f.line, f.column)) =
      (t.nodes.filter isFault).map (place source) := by
  rw [faults, faultTrees_eq h, List.map_map]
  rfl

theorem faults_eq_nil_iff (source : String) (h : t.MarksFaults) :
    t.faults source = [] ↔ ∀ n ∈ t.nodes, n.isFault = false := by
  rw [faults, faultTrees_eq h, List.map_eq_nil_iff, List.filter_eq_nil_iff]
  simp only [Bool.not_eq_true]

end Tree

/-! ## The verdict -/

section

variable {parse : Parser} {source : String} {t : Tree}

/-- A source that is accepted has no faults, so its reports are those of the search either way. -/
theorem Parser.faults_eq_ok (hparse : parse source = some t) (h : t.MarksFaults) :
    parse.faults source = .ok (t.faults source) := by
  rw [Parser.faults, Parser.verify, hparse]
  dsimp only
  cases herror : t.hasError with
  | true => rfl
  | false =>
    rw [Tree.faults, Tree.faultTrees_eq h, h.filter_nodes_eq_nil herror]
    rfl

/-- In a tree whose marks are right the search that is turned away at unmarked nodes comes to every
error and missing node, in the order of a walk over the whole tree.  Each of them is reported once,
at its line and column, and a source passes exactly if there is none. -/
theorem every_fault_is_reported (hparse : parse source = some t) (hmarks : t.MarksFaults) :
    t.faultTrees = t.nodes.filter Tree.isFault ∧
    (∃ found, parse.faults source = .ok found ∧
      found.map (fun f => (f.line, f.column)) =
        (t.nodes.filter Tree.isFault).map (Tree.place source) ∧
      (found = [] ↔ ∀ n ∈ t.nodes, n.isFault = false)) ∧
    (Verdict.ofSyntax parse source).errors.map (fun e => (e.line, e.column)) =
      (t.nodes.filter Tree.isFault).map (Tree.place source) ∧
    ((Verdict.ofSyntax parse source).success = true ↔ ∀ n ∈ t.nodes, n.isFault = false) := by
  have hplaces := Tree.map_place_faults source hmarks
  have hnone := Tree.faults_eq_nil_iff source hmarks
  have hfaults := Parser.faults_eq_ok hparse hmarks
  refine ⟨Tree.faultTrees_eq hmarks, ⟨_, hfaults, hplaces, hnone⟩, ?_, ?_⟩
  · rw [Verdict.ofSyntax, hfaults, ← hplaces, List.map_map]
    rfl
  · rw [Verdict.ofSyntax, hfaults, ← hnone]
    exact List.isEmpty_iff

end

/-- The tree of `class A extends \x7b`, where the name behind `extends` and the closing brace are
missing. -/
def unfinishedClass : Tree :=
  ⟨.program, none, false, 0, 17, [⟨.classDeclaration, none, false, 0, 17, [
    ⟨.token "class", none, false, 0, 5, []⟩, ⟨.identifier, some .name, false, 6, 7, []⟩,
    ⟨.error true, none, false, 8, 15, [⟨.token "extends", none, false, 8, 15, []⟩]⟩,
    ⟨.classBody, some .body, false, 16, 17, [⟨.token "\x7b", none, false, 16, 17, []⟩,
    ⟨.token "\x7d", none, true, 17, 17, []⟩]⟩]⟩]⟩

/-- A parser that gives this tree. -/
def unfinishedParser : Parser := fun _ => some unfinishedClass

/-- The error and the brace that was put in are reported, in this order. -/
theorem every_fault_is_reported_unfinishedClass :
    (∃ found, unfinishedParser.faults "class A extends \x7b" = .ok found ∧
      found.map (fun f => (f.line, f.column)) = [(1, 9), (1, 18)]) ∧
    (Verdict.ofSyntax unfinishedParser "class A extends \x7b").success = false := by
  have hparse : unfinishedParser "class A extends \x7b" = some unfinishedClass := rfl
  obtain ⟨-, ⟨found, hfound, hplaces, -⟩, -, hsuccess⟩ :=
    every_fault_is_reported hparse (Tree.marksFaults_of_counted (by decide +kernel))
  refine ⟨⟨found, hfound, hplaces.trans (by decide +kernel)⟩, ?_⟩
  rw [← Bool.not_eq_true, hsuccess]
  decide +kernel

end Amend.Syntax
