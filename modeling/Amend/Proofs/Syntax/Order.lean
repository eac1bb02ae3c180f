import Amend.Proofs.Syntax.Regrow
import Mathlib.Data.List.Pairwise

/-!
# The nodes of a tree, one after the other

A walk in pre-order meets a node before those below it, and it meets everything below that is no
token, as long as tokens and identifiers are bare.  In a tree that fits a source the nodes are met
in the order of their starts.  The same walk can tell each node when it is done with it; nodes
without children are then told in the same order.
-/

namespace Amend.Syntax

/-- What members do nothing may be left out. -/
theorem flatMap_filter_of_nil {α β : Type} {f : α → List β} {p : α → Bool} {xs : List α}
    (h : ∀ x ∈ xs, p x = false → f x = []) : (xs.filter p).flatMap f = xs.flatMap f := by
  induction xs with
  | nil => rfl
  | cons x xs ih =>
    have hrest := ih fun y hy => h y (List.mem_cons_of_mem x hy)
    rw [List.filter_cons, List.flatMap_cons]
    cases hp : p x with
    | true => rw [if_pos rfl, List.flatMap_cons, hrest]
    | false => rw [if_neg Bool.false_ne_true, hrest, h x List.mem_cons_self hp, List.nil_append]

namespace Tree

mutual

/-- Whether tokens and identifiers have nothing below them. -/
def wordsBare : Tree → Bool
  | ⟨kind, _, _, _, _, children⟩ =>
    (children.isEmpty || (kind.isNamed && kind ≠ .identifier)) && allWordsBare children

/-- Whether this holds of several trees. -/
def allWordsBare : List Tree → Bool
  | [] => true
  | t :: ts => wordsBare t && allWordsBare ts

end

variable {t : Tree} {ts : List Tree}

theorem allWordsBare_iff : allWordsBare ts = true ↔ ∀ t ∈ ts, t.wordsBare = true := by
  induction ts with
  | nil => simp [allWordsBare]
  | cons t ts ih => simp [allWordsBare, ih]

theorem wordsBare_iff : t.wordsBare = true ↔
    (t.children = [] ∨ t.kind.isNamed = true ∧ t.kind ≠ .identifier) ∧
      ∀ c ∈ t.children, c.wordsBare = true := by
  obtain ⟨kind, field, missing, start, stop, children⟩ := t
  rw [wordsBare, Bool.and_eq_true, allWordsBare_iff]
  simp

/-- Trees that fit between two offsets stand one behind the other. -/
theorem pairwise_of_fitAll {source : String} {first last : Nat}
    (h : fitAll source first last ts = true) : ts.Pairwise fun t u => t.stop ≤ u.start := by
  induction ts generalizing first with
  | nil => exact .nil
  | cons t ts ih =>
    obtain ⟨-, -, hrest⟩ := fitAll_cons_iff.mp h
    exact .cons (fun u hu => (fits_of_mem hrest hu).2.1) (ih hrest)

end Tree

namespace Node

variable {n m k c : Node} {enter : Node → Bool}

/-! ## What a node holds -/

/-- What a node holds: itself and, with a node, the children of that node. -/
inductive Holds (n : Node) : Node → Prop
  | self : Holds n n
  | child {m c : Node} (hm : Holds n m) (hc : c ∈ m.children) : Holds n c

theorem mem_children : c ∈ n.children ↔
    ∃ i, n.tree.children[i]? = some c.tree ∧ c.above = (n.tree, i) :: n.above := by
  rw [children, List.mem_mapIdx]
  constructor
  · rintro ⟨i, hi, rfl⟩
    exact ⟨i, List.getElem?_eq_getElem hi, rfl⟩
  · rintro ⟨i, hi, habove⟩
    obtain ⟨hlt, htree⟩ := List.getElem?_eq_some_iff.mp hi
    refine ⟨i, hlt, ?_⟩
    rw [htree, ← habove]

/-- Above a child are its parent and what is above that. -/
theorem ancestors_of_mem_children (hc : c ∈ n.children) : c.ancestors = n :: n.ancestors := by
  obtain ⟨i, -, habove⟩ := mem_children.mp hc
  rw [ancestors, habove]
  rfl

theorem parent?_of_mem_children (hc : c ∈ n.children) : c.parent? = some n := by
  obtain ⟨i, -, habove⟩ := mem_children.mp hc
  rw [parent?, habove]

theorem mem_children_of_childBy? {f : Field} (h : n.childBy? f = some c) : c ∈ n.children :=
  List.mem_of_find?_eq_some h

theorem mem_children_of_mem_parts (h : c ∈ n.parts) : c ∈ n.children :=
  (List.mem_filter.mp (List.mem_filter.mp h).1).1

theorem head?_parts (h : n.namedChildren.head? = some c) (hc : c.isComment = false) :
    n.parts.head? = some c := by
  obtain ⟨rest, hrest⟩ := List.head?_eq_some_iff.mp h
  rw [parts, hrest, List.filter_cons_of_pos (by rw [hc]; rfl), List.head?_cons]

theorem sizeOf_lt_of_mem_children (h : c ∈ n.children) : sizeOf c.tree < sizeOf n.tree := by
  obtain ⟨i, hi, -⟩ := mem_children.mp h
  have hlt := List.sizeOf_lt_of_mem (List.mem_of_getElem? hi)
  obtain ⟨⟨kind, field, missing, start, stop, children⟩, above⟩ := n
  simp only [Tree.mk.sizeOf_spec] at *
  omega

namespace Holds

theorem trans (h : Holds n m) (h' : Holds m k) : Holds n k := by
  induction h' with
  | self => exact h
  | child hm hc ih => exact .child ih hc

/-- What is held has at least as many nodes above it. -/
theorem length_le (h : Holds n m) : n.above.length ≤ m.above.length := by
  induction h with
  | self => exact Nat.le_refl _
  | child hm hc ih =>
    obtain ⟨i, -, habove⟩ := mem_children.mp hc
    rw [habove, List.length_cons]
    exact Nat.le_succ_of_le ih

/-- Tokens and identifiers are bare below a node if they are in its tree. -/
theorem wordsBare (h : Holds n m) (hbare : n.tree.wordsBare = true) :
    m.tree.wordsBare = true := by
  induction h with
  | self => exact hbare
  | child hm hc ih =>
    obtain ⟨i, hi, -⟩ := mem_children.mp hc
    exact (Tree.wordsBare_iff.mp ih).2 _ (List.mem_of_getElem? hi)

/-- In a tree that fits a source a node covers what it holds. -/
theorem spans {source : String} (h : Holds n m) (hfits : n.tree.fits source = true) :
    m.tree.fits source = true ∧ n.start ≤ m.start ∧ m.stop ≤ n.stop := by
  induction h with
  | self => exact ⟨hfits, Nat.le_refl _, Nat.le_refl _⟩
  | child hm hc ih =>
    obtain ⟨hm', hstart, hstop⟩ := ih
    obtain ⟨i, hi, -⟩ := mem_children.mp hc
    obtain ⟨hthis, hfirst, hlast⟩ :=
      Tree.fits_of_mem (Tree.fits_iff.mp hm').2.2 (List.mem_of_getElem? hi)
    exact ⟨hthis, Nat.le_trans hstart hfirst, Nat.le_trans hlast hstop⟩

theorem childBy? {f : Field} (h : n.childBy? f = some c) : Holds n c :=
  .child .self (mem_children_of_childBy? h)

/-- Above what a node holds are nodes that it holds, the node itself, and what is above that. -/
theorem ancestors_eq (h : Holds n m) (hne : m ≠ n) :
    ∃ inner, m.ancestors = inner ++ n :: n.ancestors ∧ ∀ k ∈ inner, Holds n k ∧ k ≠ n := by
  induction h with
  | self => exact absurd rfl hne
  | @child p c hp hc ih =>
    rw [ancestors_of_mem_children hc]
    by_cases hp' : p = n
    · exact ⟨[], by rw [hp', List.nil_append], nofun⟩
    · obtain ⟨inner, hinner, hall⟩ := ih hp'
      refine ⟨p :: inner, by rw [hinner, List.cons_append], ?_⟩
      rintro k (_ | ⟨_, hk⟩)
      · exact ⟨hp, hp'⟩
      · exact hall k hk

/-- What is above a node that a root holds is held by the root. -/
theorem ancestor {t : Tree} (h : Holds (.root t) n) (hm : m ∈ n.ancestors) :
    Holds (.root t) m := by
  induction h with
  | self => cases hm
  | child hp hc ih =>
    rw [ancestors_of_mem_children hc] at hm
    rcases List.mem_cons.mp hm with rfl | hm
    · exact hp
    · exact ih hm

theorem parent {t : Tree} (h : Holds (.root t) n) (hm : n.parent? = some m) :
    Holds (.root t) m := by
  cases h with
  | self => cases hm
  | child hp hc =>
    rw [parent?_of_mem_children hc] at hm
    cases hm
    exact hp

end Holds

/-- What is above a node has fewer nodes above it. -/
theorem length_lt_of_mem_ancestors (h : k ∈ n.ancestors) : k.above.length < n.above.length := by
  obtain ⟨tree, above⟩ := n
  rw [ancestors] at h
  change k ∈ upward above at h
  change k.above.length < above.length
  induction above with
  | nil => cases h
  | cons p above ih =>
    rw [List.length_cons]
    rcases List.mem_cons.mp h with rfl | h
    · exact Nat.lt_succ_self _
    · exact Nat.lt_succ_of_lt (ih h)

/-- A node does not hold what is above it. -/
theorem not_holds_of_mem_ancestors (h : k ∈ n.ancestors) : ¬ Holds n k := fun hheld =>
  absurd hheld.length_le (Nat.not_le_of_lt (length_lt_of_mem_ancestors h))

/-- In a tree that fits a source a node's text is the piece that the node covers. -/
theorem slice?_eq_text {source : String} (hfits : n.tree.fits source = true) :
    Text.slice? source n.start n.stop = some (n.text source) := by
  obtain ⟨hstart, hstop, -⟩ := Tree.fits_iff.mp hfits
  have hsome : (Text.slice? source n.start n.stop).isSome = true := by
    rw [Text.slice?, dif_pos ⟨Tree.start_le_stop _ hfits, hstart, hstop⟩]
    rfl
  obtain ⟨t, ht⟩ := Option.isSome_iff_exists.mp hsome
  rw [text, Text.sliceD, ht, Option.getD_some]

/-- Below the root of a tree the same place has the same node. -/
theorem eq_of_same {t : Tree} (hn : Holds (.root t) n) (hm : Holds (.root t) m)
    (h : n.same m = true) : n = m := by
  have hpath : n.path = m.path := beq_iff_eq.mp h
  clear h
  induction hn generalizing m with
  | self =>
    cases hm with
    | self => rfl
    | child hp hc =>
      obtain ⟨i, -, habove⟩ := mem_children.mp hc
      rw [path, path, habove] at hpath
      cases hpath
  | @child p c hp hc ih =>
    obtain ⟨i, hi, habove⟩ := mem_children.mp hc
    cases hm with
    | self =>
      rw [path, path, habove] at hpath
      cases hpath
    | @child q _ hq hc' =>
      obtain ⟨j, hj, habove'⟩ := mem_children.mp hc'
      rw [path, path, habove, habove', List.map_cons, List.map_cons, List.cons.injEq] at hpath
      obtain ⟨hij, hpath⟩ := hpath
      obtain rfl : i = j := hij
      obtain rfl : p = q := ih hq hpath
      have htree : c.tree = m.tree := Option.some.inj (hi.symm.trans hj)
      obtain ⟨ct, ca⟩ := c
      obtain ⟨mt, ma⟩ := m
      obtain rfl : ca = ma := habove.trans habove'.symm
      obtain rfl : ct = mt := htree
      rfl

/-! ## What a walk meets -/

/-- What holds of a node if it holds of its children holds of all nodes. -/
theorem induction_children {P : Node → Prop} (h : ∀ n : Node, (∀ c ∈ n.children, P c) → P n)
    (n : Node) : P n :=
  h n fun c _ => induction_children h c
termination_by sizeOf n.tree
decreasing_by exact sizeOf_lt_of_mem_children ‹_›

theorem visitTrees_eq {p : Tree} {above : List (Tree × Nat)} {i : Nat} {ts : List Tree} :
    visitTrees enter p above i ts =
      ((nodesFrom p above i ts).filter (·.kind.isNamed)).flatMap (·.visit enter) := by
  induction ts generalizing i with
  | nil => rfl
  | cons t ts ih =>
    rw [visitTrees, ih, nodesFrom_cons, List.filter_cons]
    change (if t.kind.isNamed = true then _ else []) ++ _ =
      List.flatMap _ (if t.kind.isNamed = true then _ else _)
    split
    · rw [List.flatMap_cons]
      rfl
    · rw [List.nil_append]

/-- A walk meets the node where it starts and then, if it enters that, what the walks from its
children meet. -/
theorem visit_eq : n.visit enter =
    n :: if enter n = true then n.namedChildren.flatMap (·.visit enter) else [] := by
  rw [namedChildren, children_eq_nodesFrom]
  obtain ⟨⟨kind, field, missing, start, stop, children⟩, above⟩ := n
  rw [visit, visitTree, visitTrees_eq]

theorem mem_visit : m ∈ n.visit enter ↔
    m = n ∨ enter n = true ∧ ∃ c ∈ n.namedChildren, m ∈ c.visit enter := by
  rw [visit_eq, List.mem_cons]
  cases enter n <;> simp

theorem holds_of_mem_visit (h : m ∈ n.visit enter) : Holds n m := by
  induction n using induction_children with
  | h n ih =>
    rcases mem_visit.mp h with rfl | ⟨-, c, hc, hm⟩
    · exact .self
    · have hchild := (List.mem_filter.mp hc).1
      exact .trans (.child .self hchild) (ih c hchild hm)

/-- A walk that is turned away at no node meets what any walk meets. -/
theorem mem_preorder_of_mem_visit (h : m ∈ n.visit enter) : m ∈ n.preorder := by
  induction n using induction_children with
  | h n ih =>
    rcases mem_visit.mp h with rfl | ⟨-, c, hc, hm⟩
    · exact mem_visit.mpr (.inl rfl)
    · exact mem_visit.mpr (.inr ⟨rfl, c, hc, ih c (List.mem_filter.mp hc).1 hm⟩)

/-- A walk that meets a node and enters it meets its children. -/
theorem mem_visit_child (h : m ∈ n.visit enter) (henter : enter m = true)
    (hc : c ∈ m.namedChildren) : c ∈ n.visit enter := by
  induction n using induction_children with
  | h n ih =>
    rcases mem_visit.mp h with rfl | ⟨hn, d, hd, hm⟩
    · exact mem_visit.mpr (.inr ⟨henter, c, hc, mem_visit.mpr (.inl rfl)⟩)
    · exact mem_visit.mpr (.inr ⟨hn, d, hd, ih d (List.mem_filter.mp hd).1 hm⟩)

/-- A walk meets what the walks from the nodes that it meets do. -/
theorem mem_visit_trans {k : Node} (hm : m ∈ n.visit enter) (hk : k ∈ m.visit enter) :
    k ∈ n.visit enter := by
  induction n using induction_children with
  | h n ih =>
    rcases mem_visit.mp hm with rfl | ⟨hn, c, hc, hm⟩
    · exact hk
    · exact mem_visit.mpr (.inr ⟨hn, c, hc, ih c (List.mem_filter.mp hc).1 hm⟩)

/-- What a walk does not meet lies below a node that turned it away. -/
theorem mem_visit_or_below (h : m ∈ n.preorder) (enter : Node → Bool) :
    m ∈ n.visit enter ∨ ∃ k ∈ n.preorder, enter k = false ∧ m ∈ k.preorder := by
  induction n using induction_children with
  | h n ih =>
    have hself : n ∈ n.preorder := mem_visit.mpr (.inl rfl)
    rcases mem_visit.mp h with rfl | ⟨-, c, hc, hm⟩
    · exact .inl (mem_visit.mpr (.inl rfl))
    · cases henter : enter n with
      | false => exact .inr ⟨n, hself, henter, h⟩
      | true =>
        rcases ih c (List.mem_filter.mp hc).1 hm with hm | ⟨k, hk, hturned, hm⟩
        · exact .inl (mem_visit.mpr (.inr ⟨henter, c, hc, hm⟩))
        · exact .inr ⟨k, mem_visit_trans (mem_visit_child hself rfl hc) hk, hturned, hm⟩

/-- A walk meets what a node holds and is no token, unless it is turned away on the way there. -/
theorem mem_visit_of_holds (h : Holds n m) (hnamed : m = n ∨ m.kind.isNamed = true)
    (hbare : n.tree.wordsBare = true)
    (henter : ∀ k, Holds n k → Holds k m → k ≠ m → enter k = true) : m ∈ n.visit enter := by
  induction h with
  | self => exact mem_visit.mpr (.inl rfl)
  | @child m c hm hc ih =>
    obtain ⟨i, hi, habove⟩ := mem_children.mp hc
    have hlonger : m.above.length < c.above.length := by
      rw [habove, List.length_cons]
      exact Nat.lt_succ_self _
    have hne (k : Node) (hk : Holds k m) : k ≠ c := by
      rintro rfl
      exact absurd hk.length_le (Nat.not_le_of_lt hlonger)
    have hword : m.kind.isNamed = true := by
      rcases (Tree.wordsBare_iff.mp (hm.wordsBare hbare)).1 with hnone | ⟨hnamed, -⟩
      · rw [hnone] at hi
        cases hi
      · exact hnamed
    have hmet := ih (.inr hword) fun k hnk hkm _ =>
      henter k hnk (.child hkm hc) (hne k hkm)
    have hnamed' : c.kind.isNamed = true := by
      rcases hnamed with rfl | hnamed
      · exact absurd hm.length_le (Nat.not_le_of_lt hlonger)
      · exact hnamed
    exact mem_visit_child hmet (henter m hm (.child .self hc) (hne m .self))
      (List.mem_filter.mpr ⟨hc, hnamed'⟩)

/-- In pre-order stands what a node holds and is no token. -/
theorem mem_preorder_iff (hbare : n.tree.wordsBare = true) :
    m ∈ n.preorder ↔ Holds n m ∧ (m = n ∨ m.kind.isNamed = true) := by
  constructor
  · intro h
    refine ⟨holds_of_mem_visit h, ?_⟩
    induction n using induction_children with
    | h n ih =>
      rcases mem_visit.mp h with rfl | ⟨-, c, hc, hm⟩
      · exact .inl rfl
      · obtain ⟨hchild, hnamed⟩ := List.mem_filter.mp hc
        rcases ih c hchild (Holds.wordsBare (.child .self hchild) hbare) hm with rfl | hm
        · exact .inr hnamed
        · exact .inr hm
  · rintro ⟨h, hnamed⟩
    exact mem_visit_of_holds h hnamed hbare fun _ _ _ _ => rfl

/-- The nodes of some kinds are all that a node holds of them. -/
theorem mem_descendants_iff {kinds : List Kind} (hbare : n.tree.wordsBare = true)
    (hnamed : kinds.all (·.isNamed) = true) :
    m ∈ n.descendants kinds ↔ Holds n m ∧ m.kind ∈ kinds := by
  rw [descendants, List.mem_filter, mem_preorder_iff hbare, isOneOf, List.contains_iff_mem]
  constructor
  · rintro ⟨⟨h, -⟩, hkind⟩
    exact ⟨h, hkind⟩
  · rintro ⟨h, hkind⟩
    exact ⟨⟨h, .inr (List.all_eq_true.mp hnamed _ hkind)⟩, hkind⟩

/-! ## The order of what is met -/

/-- The children of a node that fits a source stand one behind the other. -/
theorem pairwise_children {source : String} (hfits : n.tree.fits source = true) :
    n.children.Pairwise fun c d => c.stop ≤ d.start := by
  have htrees : (n.children.map (·.tree)).Pairwise fun t u => t.stop ≤ u.start := by
    rw [map_tree_children]
    exact Tree.pairwise_of_fitAll (Tree.fits_iff.mp hfits).2.2
  exact List.pairwise_map.mp htrees

theorem siblingsAfter_sublist (hc : c ∈ n.children) : c.siblingsAfter.Sublist n.children := by
  rw [siblingsAfter, parent?_of_mem_children hc]
  exact List.drop_sublist _ _

theorem pairwise_mem_siblingsAfter (n : Node) :
    n.children.Pairwise fun c d => d ∈ c.siblingsAfter := by
  refine List.pairwise_iff_getElem.mpr fun i j hi hj hlt => ?_
  have hafter : n.children[i].siblingsAfter = n.children.drop (i + 1) := by
    simp only [children, List.getElem_mapIdx]
    rfl
  rw [hafter]
  exact List.mem_drop_iff_getElem.mpr ⟨j - (i + 1), by omega, by congr 1; omega⟩

/-- A child that is no token ends before each later one starts, and each later one is the first that
follows it, or starts behind that one. -/
theorem pairwise_namedChildren {source : String} (hfits : n.tree.fits source = true) :
    n.namedChildren.Pairwise fun c d => c.stop ≤ d.start ∧
      ∀ s, c.siblingsAfter.find? (·.kind.isNamed) = some s → d = s ∨ s.stop ≤ d.start := by
  have hpairs := pairwise_children hfits
  refine List.Pairwise.imp_of_mem ?_ ((hpairs.and (pairwise_mem_siblingsAfter n)).filter _)
  rintro c d hc hd ⟨hcd, hmem⟩
  refine ⟨hcd, fun s hs => ?_⟩
  obtain ⟨-, ahead, behind, hafter, hahead⟩ := List.find?_eq_some_iff_append.mp hs
  have hsorted := hpairs.sublist (siblingsAfter_sublist (List.mem_filter.mp hc).1)
  rw [hafter] at hmem hsorted
  rcases List.mem_append.mp hmem with hmem | hmem
  · have htoken := hahead d hmem
    rw [(List.mem_filter.mp hd).2] at htoken
    cases htoken
  · rcases List.mem_cons.mp hmem with rfl | hmem
    · exact .inl rfl
    · exact .inr ((List.pairwise_cons.mp (List.pairwise_append.mp hsorted).2.1).1 d hmem)

/-- In a tree that fits a source what is met first and has nothing below ends before the next
starts. -/
theorem pairwise_preorder {source : String} (hfits : n.tree.fits source = true) :
    n.preorder.Pairwise fun a b => a.tree.children = [] → a.stop ≤ b.start := by
  induction n using induction_children with
  | h n ih =>
    have hthis : n.preorder = n :: n.namedChildren.flatMap (·.preorder) := visit_eq
    rw [hthis]
    refine .cons ?_ (List.pairwise_flatMap.mpr ⟨?_, ?_⟩)
    · intro b hb hnone
      obtain ⟨c, hc, -⟩ := List.mem_flatMap.mp hb
      obtain ⟨i, hi, -⟩ := mem_children.mp (List.mem_filter.mp hc).1
      rw [hnone] at hi
      cases hi
    · intro c hc
      have hchild := (List.mem_filter.mp hc).1
      exact ih c hchild (Holds.spans (.child .self hchild) hfits).1
    · refine (List.Pairwise.imp_of_mem ?_ ((pairwise_children hfits).filter _))
      intro c d hc hd hle a ha b hb _
      have hcfits := (Holds.spans (.child .self (List.mem_filter.mp hc).1) hfits).1
      have hdfits := (Holds.spans (.child .self (List.mem_filter.mp hd).1) hfits).1
      have hastop := ((holds_of_mem_visit ha).spans hcfits).2.2
      have hbstart := ((holds_of_mem_visit hb).spans hdfits).2.1
      omega

/-- In a tree that fits a source nodes without children do not overlap. -/
theorem apart_of_mem_preorder {source : String} (hfits : n.tree.fits source = true)
    (hm : m ∈ n.preorder) (hk : k ∈ n.preorder) (hleafm : m.tree.children = [])
    (hleafk : k.tree.children = []) (hne : m ≠ k) : m.stop ≤ k.start ∨ k.stop ≤ m.start := by
  have hpairwise : n.preorder.Pairwise fun a b =>
      a.tree.children = [] → b.tree.children = [] → a.stop ≤ b.start ∨ b.stop ≤ a.start :=
    (pairwise_preorder hfits).imp fun h hleaf _ => .inl (h hleaf)
  have hsymm : Std.Symm fun a b : Node =>
      a.tree.children = [] → b.tree.children = [] → a.stop ≤ b.start ∨ b.stop ≤ a.start :=
    ⟨fun a b h hb ha => (h ha hb).symm⟩
  exact hpairwise.forall hm hk hne hleafm hleafk

/-! ## The order of what is done -/

mutual

/-- The nodes of a tree that are no tokens, each when all below it are done. -/
def finishTree : Tree → List (Tree × Nat) → List Node
  | ⟨kind, field, missing, start, stop, children⟩, above =>
    let t : Tree := ⟨kind, field, missing, start, stop, children⟩
    finishTrees t above 0 children ++ [⟨t, above⟩]

/-- The nodes of the children of `t` from index `i` on. -/
def finishTrees (t : Tree) (above : List (Tree × Nat)) : Nat → List Tree → List Node
  | _, [] => []
  | i, c :: cs =>
    (if c.kind.isNamed then finishTree c ((t, i) :: above) else []) ++
      finishTrees t above (i + 1) cs

end

/-- The node and all below it that are no tokens, each when all below it are done. -/
def postorder (n : Node) : List Node := finishTree n.tree n.above

theorem finishTrees_eq {p : Tree} {above : List (Tree × Nat)} {i : Nat} {ts : List Tree} :
    finishTrees p above i ts = ((nodesFrom p above i ts).filter (·.kind.isNamed)).flatMap
      (·.postorder) := by
  induction ts generalizing i with
  | nil => rfl
  | cons t ts ih =>
    rw [finishTrees, ih, nodesFrom_cons, List.filter_cons]
    change (if t.kind.isNamed = true then _ else []) ++ _ =
      List.flatMap _ (if t.kind.isNamed = true then _ else _)
    split
    · rw [List.flatMap_cons]
      rfl
    · rw [List.nil_append]

/-- A node is done after its children. -/
theorem postorder_eq : n.postorder = n.namedChildren.flatMap (·.postorder) ++ [n] := by
  rw [namedChildren, children_eq_nodesFrom]
  obtain ⟨⟨kind, field, missing, start, stop, children⟩, above⟩ := n
  rw [postorder, finishTree, finishTrees_eq]

/-- What is done is what is met. -/
theorem mem_postorder_iff : m ∈ n.postorder ↔ m ∈ n.preorder := by
  induction n using induction_children with
  | h n ih =>
    have hpre : n.preorder = n :: n.namedChildren.flatMap (·.preorder) := visit_eq
    have hbelow : (∃ c ∈ n.namedChildren, m ∈ c.postorder) ↔
        ∃ c ∈ n.namedChildren, m ∈ c.preorder :=
      exists_congr fun c => and_congr_right fun hc => ih c (List.mem_filter.mp hc).1
    rw [postorder_eq, hpre, List.mem_append, List.mem_flatMap, hbelow, List.mem_singleton,
      List.mem_cons, List.mem_flatMap, or_comm]

/-- Nodes without children are done in the order in which they are met. -/
theorem filter_postorder {p : Node → Bool}
    (h : ∀ m, Holds n m → p m = true → m.tree.children = []) :
    n.postorder.filter p = n.preorder.filter p := by
  induction n using induction_children with
  | h n ih =>
    have hpre : n.preorder = n :: n.namedChildren.flatMap (·.preorder) := visit_eq
    have hbelow : (n.namedChildren.flatMap (·.postorder)).filter p =
        (n.namedChildren.flatMap (·.preorder)).filter p := by
      rw [List.filter_flatMap, List.filter_flatMap]
      refine List.flatMap_congr fun c hc => ?_
      have hchild := (List.mem_filter.mp hc).1
      exact ih c hchild fun m hm => h m (.trans (.child .self hchild) hm)
    rw [postorder_eq, hpre, List.filter_append, List.filter_cons, hbelow]
    cases hp : p n with
    | false => simp [hp]
    | true =>
      have hnone : n.namedChildren = [] := by
        rw [namedChildren, children, h n .self hp]
        rfl
      simp [hp, hnone]

end Node

end Amend.Syntax
