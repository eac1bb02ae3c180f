import Amend.Java.Variable
import Amend.Proofs.Syntax.Alike

/-!
# Trees with a part exchanged

Where some nodes of a tree are exchanged for others, all behind them moves and the nodes around them
grow or shrink.  What comes first in the tree is found again in the place where it was.
-/

namespace Amend.Syntax

namespace Tree

/-- The tree with its children from `i` up to `j` exchanged for `ts`, the offsets behind them
counted from `new` in place of `old`. -/
def splice (t : Tree) (i j : Nat) (ts : List Tree) (old new : Nat) : Tree :=
  { t with
    stop := t.stop - old + new
    children := t.children.take i ++ ts ++ (t.children.drop j).map (moved old new) }

variable {t : Tree} {i j : Nat} {ts : List Tree} {old new : Nat}

@[simp] theorem kind_splice : (t.splice i j ts old new).kind = t.kind := rfl

@[simp] theorem field_splice : (t.splice i j ts old new).field = t.field := rfl

@[simp] theorem start_splice : (t.splice i j ts old new).start = t.start := rfl

@[simp] theorem stop_splice : (t.splice i j ts old new).stop = t.stop - old + new := rfl

theorem children_splice {s : Tree} {front back : List Tree} (h : t.children = front ++ s :: back) :
    (t.splice front.length (front.length + 1) ts old new).children =
      front ++ ts ++ back.map (moved old new) := by
  rw [splice, h, List.take_left, ← List.drop_drop, List.drop_left, List.drop_one, List.tail_cons]

end Tree

namespace Node

/-- The tree around a node that became `t`, with the trees `beside` put in behind it: `above` is the
node's way up, and offsets behind the node are counted from `new` in place of `old`. -/
def regrow (old new : Nat) (t : Tree) (beside : List Tree) : List (Tree × Nat) → Tree
  | [] => t
  | (p, i) :: above => regrow old new (p.splice i (i + 1) (t :: beside) old new) [] above

/-- The way up from the node in the tree around it. -/
def regrowAbove (old new : Nat) (t : Tree) (beside : List Tree) :
    List (Tree × Nat) → List (Tree × Nat)
  | [] => []
  | (p, i) :: above =>
    let grown := p.splice i (i + 1) (t :: beside) old new
    (grown, i) :: regrowAbove old new grown [] above

variable {old new : Nat} {t t' : Tree} {beside : List Tree} {above : List (Tree × Nat)}

@[simp] theorem kinds_regrowAbove :
    (regrowAbove old new t beside above).map (·.1.kind) = above.map (·.1.kind) := by
  induction above generalizing t beside with
  | nil => rfl
  | cons a above ih => rw [regrowAbove, List.map_cons, List.map_cons, ih, Tree.kind_splice]

/-! ## The first node with a property -/

theorem exists_append_of_getElem? {l : List Tree} (h : l[i]? = some t) :
    ∃ front back, l = front ++ t :: back ∧ front.length = i := by
  obtain ⟨hlt, rfl⟩ := List.getElem?_eq_some_iff.mp h
  refine ⟨l.take i, l.drop (i + 1), ?_, List.length_take_of_le (Nat.le_of_lt hlt)⟩
  rw [← List.drop_eq_getElem_cons, List.take_append_drop]

mutual

/-- The trees that a visit meets do not depend on what is above. -/
theorem map_tree_visitTree (above above' : List (Tree × Nat)) : (t : Tree) →
    (visitTree (fun _ => true) t above).map (·.tree) =
      (visitTree (fun _ => true) t above').map (·.tree)
  | ⟨kind, field, missing, start, stop, children⟩ => by
    rw [visitTree, visitTree, List.map_cons, List.map_cons]
    exact congrArg _ (map_tree_visitTrees _ _ above above' 0 0 children)

theorem map_tree_visitTrees (p p' : Tree) (above above' : List (Tree × Nat)) (i i' : Nat) :
    (ts : List Tree) → (visitTrees (fun _ => true) p above i ts).map (·.tree) =
      (visitTrees (fun _ => true) p' above' i' ts).map (·.tree)
  | [] => rfl
  | t :: ts => by
    rw [visitTrees, visitTrees, List.map_append, List.map_append,
      map_tree_visitTrees p p' above above' (i + 1) (i' + 1) ts]
    congr 1
    split
    · exact map_tree_visitTree _ _ t
    · rfl

end

/-- A tree below `root` such that no tree ahead of it in pre-order has a property. -/
inductive Leads (P : Tree → Bool) (root : Tree) : Tree → List (Tree × Nat) → Prop
  | root : Leads P root root []
  | child {p t : Tree} {i : Nat} {above : List (Tree × Nat)} (habove : Leads P root p above)
      (hparent : P p = false)
      (hbefore : ∀ n ∈ visitTrees (fun _ => true) p above 0 (p.children.take i), P n.tree = false)
      (hchild : p.children[i]? = some t) (hnamed : t.kind.isNamed = true) :
      Leads P root t ((p, i) :: above)

theorem visitTrees_append (enter : Node → Bool) (p : Tree) (above : List (Tree × Nat)) (i : Nat)
    (ts us : List Tree) : visitTrees enter p above i (ts ++ us) =
      visitTrees enter p above i ts ++ visitTrees enter p above (i + ts.length) us := by
  induction ts generalizing i with
  | nil => rfl
  | cons t ts ih =>
    rw [List.cons_append, visitTrees, visitTrees, ih, List.length_cons, List.append_assoc,
      Nat.add_comm ts.length, Nat.add_assoc]

variable {P : Tree → Bool} {root : Tree} {m : Node}

mutual

/-- What is found first below a tree that leads leads, too. -/
theorem leads_of_visitTree : {t : Tree} → {above : List (Tree × Nat)} → Leads P root t above →
    (visitTree (fun _ => true) t above).find? (P ·.tree) = some m →
    Leads P root m.tree m.above ∧ P m.tree = true
  | ⟨kind, field, missing, start, stop, children⟩, above, h, hfind => by
    rw [visitTree, List.find?_cons] at hfind
    split at hfind
    · rename_i hP
      cases hfind
      exact ⟨h, hP⟩
    · rename_i hP
      refine leads_of_visitTrees h hP List.drop_zero ?_ hfind
      intro n hn
      cases hn

theorem leads_of_visitTrees {p : Tree} {above : List (Tree × Nat)} : {ts : List Tree} → {i : Nat} →
    Leads P root p above → P p = false → p.children.drop i = ts →
    (∀ n ∈ visitTrees (fun _ => true) p above 0 (p.children.take i), P n.tree = false) →
    (visitTrees (fun _ => true) p above i ts).find? (P ·.tree) = some m →
    Leads P root m.tree m.above ∧ P m.tree = true
  | [], _, _, _, _, _, hfind => by cases hfind
  | t :: ts, i, h, hP, hdrop, hbefore, hfind => by
    have hchild : p.children[i]? = some t := by
      rw [← List.head?_drop, hdrop, List.head?_cons]
    have hlt : i < p.children.length := (List.getElem?_eq_some_iff.mp hchild).1
    rw [visitTrees, List.find?_append] at hfind
    cases hthis : (if t.kind.isNamed = true then visitTree (fun _ => true) t ((p, i) :: above)
        else []).find? (P ·.tree) with
    | some n =>
      rw [hthis, Option.some_or] at hfind
      cases hfind
      split at hthis
      · rename_i hnamed
        exact leads_of_visitTree (.child h hP hbefore hchild hnamed) hthis
      · cases hthis
    | none =>
      rw [hthis, Option.none_or] at hfind
      have hrest : p.children.drop (i + 1) = ts := by
        rw [← List.tail_drop, hdrop, List.tail_cons]
      refine leads_of_visitTrees h hP hrest ?_ hfind
      intro n hn
      rw [List.take_add_one, hchild, visitTrees_append, List.length_take_of_le (Nat.le_of_lt hlt),
        Nat.zero_add] at hn
      rcases List.mem_append.mp hn with hn | hn
      · exact hbefore n hn
      · rw [Option.toList_some, visitTrees, visitTrees, List.append_nil] at hn
        exact Bool.eq_false_iff.mpr (List.find?_eq_none.mp hthis n hn)

end

/-- Below a root that fits a source everything does. -/
theorem Leads.fits {source : String} {above : List (Tree × Nat)} (h : Leads P root t above)
    (hroot : root.fits source = true) :
    t.fits source = true ∧ ∀ a ∈ above, a.1.fits source = true := by
  induction h with
  | root => exact ⟨hroot, fun a ha => absurd ha List.not_mem_nil⟩
  | child habove hparent hbefore hchild hnamed ih =>
    have hthis := (Tree.fits_of_mem (Tree.fits_iff.mp ih.1).2.2 (List.mem_of_getElem? hchild)).1
    exact ⟨hthis, List.forall_mem_cons.mpr ih⟩

/-- What is found first at or below a tree that leads is found first of all. -/
theorem find?_of_leads {above : List (Tree × Nat)} (h : Leads P root t above)
    (hfind : (visitTree (fun _ => true) t above).find? (P ·.tree) = some m) :
    (visitTree (fun _ => true) root []).find? (P ·.tree) = some m := by
  induction h with
  | root => exact hfind
  | @child p t i above habove hparent hbefore hchild hnamed ih =>
    refine ih ?_
    obtain ⟨front, back, hsplit, rfl⟩ := exists_append_of_getElem? hchild
    rw [hsplit, List.take_left] at hbefore
    have hnone : (visitTrees (fun _ => true) p above 0 front).find? (P ·.tree) = none :=
      List.find?_eq_none.mpr fun n hn => Bool.eq_false_iff.mp (hbefore n hn)
    have hvisit : visitTree (fun _ => true) p above =
        ⟨p, above⟩ :: visitTrees (fun _ => true) p above 0 p.children := by
      cases p
      rw [visitTree]
      rfl
    have hskip (l : List Node) :
        ((⟨p, above⟩ : Node) :: l).find? (P ·.tree) = l.find? (P ·.tree) :=
      List.find?_cons_of_neg (Bool.eq_false_iff.mp hparent)
    rw [hvisit, hskip, hsplit, visitTrees_append, List.find?_append, hnone, Option.none_or,
      Nat.zero_add, visitTrees, if_pos hnamed, List.find?_append, hfind, Option.some_or]

/-- A tree that leads still does after it was exchanged for one of its kind with the same start,
where the property is told from kind and start. -/
theorem Leads.regrow (h : Leads P root t above)
    (hP : ∀ t t' : Tree, t'.kind = t.kind → t'.start = t.start → P t' = P t)
    (hkind : t'.kind = t.kind) :
    Leads P (Node.regrow old new t' beside above) t' (regrowAbove old new t' beside above) := by
  induction h generalizing t' beside with
  | root => exact .root
  | @child p t i above habove hparent hbefore hchild hnamed ih =>
    obtain ⟨front, back, hsplit, rfl⟩ := exists_append_of_getElem? hchild
    have hchildren : (p.splice front.length (front.length + 1) (t' :: beside) old new).children =
        front ++ (t' :: (beside ++ back.map (Tree.moved old new))) := by
      rw [Tree.children_splice hsplit, List.append_assoc, List.cons_append]
    rw [hsplit, List.take_left] at hbefore
    rw [Node.regrow, regrowAbove]
    have hparent' :
        P (p.splice front.length (front.length + 1) (t' :: beside) old new) = false := by
      rwa [hP p (p.splice front.length (front.length + 1) (t' :: beside) old new) rfl rfl]
    refine .child (ih rfl) hparent' ?_ ?_ (hkind ▸ hnamed)
    · intro n hn
      rw [hchildren, List.take_left] at hn
      have htree := List.mem_map_of_mem hn (f := (·.tree))
      rw [map_tree_visitTrees _ p _ above 0 0] at htree
      obtain ⟨n', hn', heq⟩ := List.mem_map.mp htree
      exact heq ▸ hbefore n' hn'
    · rw [hchildren, List.getElem?_append_right (Nat.le_refl _), Nat.sub_self]
      rfl

/-- The first node with a property told from kind and start is found again after it was
exchanged. -/
theorem find?_preorder_regrow
    (hfind : (Node.root root).preorder.find? (P ·.tree) = some m)
    (hP : ∀ t t' : Tree, t'.kind = t.kind → t'.start = t.start → P t' = P t)
    (hkind : t'.kind = m.tree.kind) (hstart : t'.start = m.tree.start) :
    (Node.root (regrow old new t' beside m.above)).preorder.find? (P ·.tree) =
      some ⟨t', regrowAbove old new t' beside m.above⟩ := by
  obtain ⟨hleads, hm⟩ := leads_of_visitTree .root hfind
  refine find?_of_leads (hleads.regrow hP hkind) ?_
  have hthis : P t' = true := (hP _ _ hkind hstart).trans hm
  cases t'
  rw [visitTree]
  exact List.find?_cons_of_pos hthis

/-! ## Children around an exchanged part -/

/-- Trees as the children of a node from index `i` on. -/
def nodesFrom (p : Tree) (above : List (Tree × Nat)) (i : Nat) (ts : List Tree) : List Node :=
  (ts.zipIdx i).map fun (t, j) => ⟨t, (p, j) :: above⟩

/-- Whether a tree is neither a token nor a comment. -/
def isPart (t : Tree) : Bool := t.kind.isNamed && !t.kind.isComment

variable {n : Node} {p p' : Tree} {above' : List (Tree × Nat)} {ts us : List Tree} {i j k : Nat}

theorem nodesFrom_cons : nodesFrom p above i (t :: ts) =
    ⟨t, (p, i) :: above⟩ :: nodesFrom p above (i + 1) ts := by
  rw [nodesFrom, List.zipIdx_cons, List.map_cons]
  rfl

theorem nodesFrom_append : nodesFrom p above i (ts ++ us) =
    nodesFrom p above i ts ++ nodesFrom p above (i + ts.length) us := by
  rw [nodesFrom, List.zipIdx_append, List.map_append]
  rfl

theorem children_eq_nodesFrom : n.children = nodesFrom n.tree n.above 0 n.tree.children :=
  List.mapIdx_eq_zipIdx_map

theorem parts_eq_filter : n.parts = (nodesFrom n.tree n.above 0 n.tree.children).filter
    (isPart ·.tree) := by
  rw [parts, namedChildren, List.filter_filter, children_eq_nodesFrom]
  congr 1
  funext c
  exact Bool.and_comm _ _

theorem map_tree_nodesFrom : (nodesFrom p above i ts).map (·.tree) = ts := by
  rw [nodesFrom, List.map_map]
  exact List.zipIdx_map_fst i ts

theorem map_tree_filter_nodesFrom :
    ((nodesFrom p above i ts).filter (isPart ·.tree)).map (·.tree) = ts.filter isPart := by
  have hfilter := List.filter_map (f := (·.tree)) (p := isPart) (l := nodesFrom p above i ts)
  rw [map_tree_nodesFrom] at hfilter
  exact hfilter.symm

theorem length_filter_nodesFrom :
    ((nodesFrom p above i ts).filter (isPart ·.tree)).length = (ts.filter isPart).length := by
  rw [← map_tree_filter_nodesFrom, List.length_map]

/-- Trees and their images under the same parts of two nodes. -/
theorem forall₂_nodesFrom {g : Tree → Tree} (hg : ∀ t, (g t).kind = t.kind)
    {R : Node → Node → Prop}
    (hR : ∀ t ∈ ts, ∀ j j', R ⟨t, (p, j) :: above⟩ ⟨g t, (p', j') :: above'⟩) (i j : Nat) :
    List.Forall₂ R ((nodesFrom p above i ts).filter (isPart ·.tree))
      ((nodesFrom p' above' j (ts.map g)).filter (isPart ·.tree)) := by
  induction ts generalizing i j with
  | nil => exact .nil
  | cons t ts ih =>
    have hrest := ih (fun u hu => hR u (List.mem_cons_of_mem t hu)) (i + 1) (j + 1)
    have hpart : isPart (g t) = isPart t := by rw [isPart, hg, isPart]
    rw [List.map_cons, nodesFrom_cons, nodesFrom_cons, List.filter_cons, List.filter_cons, hpart]
    split
    · exact .cons (hR t List.mem_cons_self i j) hrest
    · exact hrest

/-- The part number `k` among some trees: how many parts are ahead of it, and which follow. -/
theorem exists_of_getElem?_filter {s : Node}
    (h : ((nodesFrom p above i ts).filter (isPart ·.tree))[k]? = some s) :
    ∃ front t back, ts = front ++ t :: back ∧ s = ⟨t, (p, i + front.length) :: above⟩ ∧
      (front.filter isPart).length = k ∧ isPart t = true ∧
      ((nodesFrom p above i ts).filter (isPart ·.tree)).drop (k + 1) =
        (nodesFrom p above (i + front.length + 1) back).filter (isPart ·.tree) := by
  induction ts generalizing i k with
  | nil => cases h
  | cons t ts ih =>
    rw [nodesFrom_cons, List.filter_cons] at h ⊢
    split at h
    · rename_i hpart
      rw [if_pos hpart]
      cases k with
      | zero =>
        cases h
        exact ⟨[], t, ts, rfl, rfl, rfl, hpart, rfl⟩
      | succ k =>
        obtain ⟨front, t', back, rfl, rfl, hk, ht', hdrop⟩ := ih h
        have hindex : i + (t :: front).length = i + 1 + front.length := by
          rw [List.length_cons]
          omega
        refine ⟨t :: front, t', back, rfl, by rw [hindex], ?_, ht', ?_⟩
        · rw [List.filter_cons, if_pos hpart, List.length_cons, hk]
        · rw [hindex, ← hdrop]
          rfl
    · rename_i hpart
      rw [if_neg hpart]
      obtain ⟨front, t', back, rfl, rfl, hk, ht', hdrop⟩ := ih h
      have hindex : i + (t :: front).length = i + 1 + front.length := by
        rw [List.length_cons]
        omega
      refine ⟨t :: front, t', back, rfl, by rw [hindex], ?_, ht', ?_⟩
      · rw [List.filter_cons, if_neg hpart, hk]
      · rw [hindex, ← hdrop]

/-- A part in its place among its siblings. -/
theorem exists_of_getElem?_parts {s : Node} (h : n.parts[k]? = some s) :
    ∃ front back, n.tree.children = front ++ s.tree :: back ∧
      s.above = (n.tree, front.length) :: n.above ∧ (front.filter isPart).length = k ∧
        n.parts.drop (k + 1) =
          (nodesFrom n.tree n.above (front.length + 1) back).filter (isPart ·.tree) := by
  rw [parts_eq_filter] at h ⊢
  obtain ⟨front, t, back, hchildren, rfl, hk, -, hdrop⟩ := exists_of_getElem?_filter h
  rw [Nat.zero_add] at hdrop ⊢
  exact ⟨front, back, hchildren, rfl, hk, hdrop⟩

theorem childBy?_eq (f : Field) :
    n.childBy? f = (n.tree.children.findIdx? (·.field = some f)).bind n.child? :=
  find?_children (·.field = some f)

/-- A child with a role in its place among its siblings. -/
theorem exists_of_childBy? {f : Field} {c : Node} (h : n.childBy? f = some c) :
    ∃ front back, n.tree.children = front ++ c.tree :: back ∧
      c.above = (n.tree, front.length) :: n.above ∧ c.tree.field = some f := by
  have hfield : c.tree.field = some f := by simpa using List.find?_some h
  rw [childBy?_eq] at h
  obtain ⟨i, -, hchild⟩ := Option.bind_eq_some_iff.mp h
  obtain ⟨t, ht, rfl⟩ := Option.map_eq_some_iff.mp hchild
  obtain ⟨front, back, hchildren, rfl⟩ := exists_append_of_getElem? ht
  exact ⟨front, back, hchildren, rfl, hfield⟩

/-- The child with a role, exchanged for another with that role, is still the child with it. -/
theorem childBy?_splice {f : Field} (hchild : (⟨p, above⟩ : Node).childBy? f =
      some ⟨t, (p, i) :: above⟩) (hfield : t'.field = t.field) :
    (⟨p.splice i (i + 1) [t'] old new, above'⟩ : Node).childBy? f =
      some ⟨t', (p.splice i (i + 1) [t'] old new, i) :: above'⟩ := by
  rw [childBy?_eq] at hchild ⊢
  obtain ⟨j, hj, hthis⟩ := Option.bind_eq_some_iff.mp hchild
  obtain ⟨t₀, ht₀, heq⟩ := Option.map_eq_some_iff.mp hthis
  cases heq
  obtain ⟨front, back, hsplit, rfl⟩ := exists_append_of_getElem? ht₀
  have hchildren : (p.splice front.length (front.length + 1) [t'] old new).children =
      front ++ [t'] ++ back.map (Tree.moved old new) := Tree.children_splice hsplit
  have hfields : (p.splice front.length (front.length + 1) [t'] old new).children.map (·.field) =
      p.children.map (·.field) := by
    rw [hchildren, hsplit]
    simp [hfield, Function.comp_def]
  have hindex : (p.splice front.length (front.length + 1) [t'] old new).children.findIdx?
      (·.field = some f) = p.children.findIdx? (·.field = some f) := by
    have hread (ts : List Tree) : ts.findIdx? (·.field = some f) =
        (ts.map (·.field)).findIdx? (· = some f) := by
      rw [List.findIdx?_map]
      rfl
    rw [hread, hfields, ← hread]
  have hget : (p.splice front.length (front.length + 1) [t'] old new).children[front.length]? =
      some t' := by
    rw [hchildren, List.append_assoc, List.getElem?_append_right (Nat.le_refl _), Nat.sub_self]
    rfl
  rw [hindex, hj, Option.bind_some, child?, hget]
  rfl

/-! ## What nodes around an exchanged part say -/

section Words

variable {c d d' q u v : String} {front back : List Tree}

/-- Around an exchanged child the children of a node say what they said. -/
theorem map_wording_splice (hfits : p.fits (c ++ d ++ (q ++ u)) = true)
    (h : p.children = front ++ t :: back) (hfront : t.start ≤ c.utf8ByteSize)
    (hback : (c ++ d).utf8ByteSize ≤ t.stop)
    (hstop : p.stop ≤ (c ++ d).utf8ByteSize + q.utf8ByteSize) :
    (p.splice front.length (front.length + 1) ts (c ++ d).utf8ByteSize
        (c ++ d').utf8ByteSize).children.map (Tree.wording (c ++ d' ++ (q ++ v))) =
      front.map (Tree.wording (c ++ d ++ (q ++ u))) ++
        ts.map (Tree.wording (c ++ d' ++ (q ++ v))) ++
          back.map (Tree.wording (c ++ d ++ (q ++ u))) := by
  have hchildren := (Tree.fits_iff.mp hfits).2.2
  rw [h] at hchildren
  obtain ⟨hbefore, -, hafter⟩ := Tree.fitAll_around hchildren
  have hleft : front.map (Tree.wording (c ++ d' ++ (q ++ v))) =
      front.map (Tree.wording (c ++ d ++ (q ++ u))) := by
    rw [String.append_assoc] at hbefore
    have hwords := Tree.wordings_left (y := d' ++ (q ++ v)) front hbefore hfront
    rw [Tree.wordings_eq, Tree.wordings_eq] at hwords
    rw [@String.append_assoc c d', @String.append_assoc c d, hwords]
  have hright := Tree.wordings_moved (x := c ++ d') (v := v) back hafter hback hstop
  rw [Tree.wordings_eq, Tree.wordings_eq, Tree.movedAll_eq] at hright
  rw [Tree.children_splice h, List.map_append, List.map_append, hleft, hright]

/-- A role that the exchanged child does not have is left with the same words. -/
theorem textBy?_splice (hfits : p.fits (c ++ d ++ (q ++ u)) = true)
    (h : p.children = front ++ t :: back) (hfront : t.start ≤ c.utf8ByteSize)
    (hback : (c ++ d).utf8ByteSize ≤ t.stop)
    (hstop : p.stop ≤ (c ++ d).utf8ByteSize + q.utf8ByteSize) {f : Field}
    (ht : t.field ≠ some f) (ht' : t'.field ≠ some f) :
    ((p.splice front.length (front.length + 1) [t'] (c ++ d).utf8ByteSize
        (c ++ d').utf8ByteSize).wording (c ++ d' ++ (q ++ v))).textBy? f =
      (p.wording (c ++ d ++ (q ++ u))).textBy? f := by
  rw [Wording.textBy?, Wording.textBy?, Tree.children_wording, Tree.children_wording,
    map_wording_splice hfits h hfront hback hstop, h]
  have hskip {source : String} {t : Tree} (ht : t.field ≠ some f) (ws : List Wording) :
      (t.wording source :: ws).find? (·.field = some f) = ws.find? (·.field = some f) :=
    List.find?_cons_of_neg (by simpa using ht)
  rw [List.map_singleton, List.append_assoc, List.singleton_append, List.map_append, List.map_cons,
    List.find?_append, List.find?_append, hskip ht, hskip ht']

end Words

end Node

end Amend.Syntax
