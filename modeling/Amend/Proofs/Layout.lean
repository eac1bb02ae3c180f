import Amend.Layout
import Amend.Layout.Removal
import Amend.Proofs.Syntax.Order
import Amend.Proofs.Text.Visible
import Mathlib.Data.List.Chain

/-!
# What is indented and what is removed with a construct

Indenting code adds blanks and nothing else.  The span that goes when a construct is removed always
takes in the construct.  What it takes in besides are blanks and comments, unless other code stands
on the last row of the construct ahead of a comment: that code goes with the comment.
-/

namespace Amend

@[simp] theorem IndentStyle.visible_unit (style : IndentStyle) : Text.visible style.unit = [] := by
  cases style with
  | spaces n =>
    rw [unit, Text.visible, String.toList_ofList, List.filter_replicate]
    rfl
  | tabs => rfl

namespace Text

theorem visible_lineIndent (s : String) (i : Nat) : visible ((lineIndent? s i).getD "") = [] := by
  cases h : lineIndent? s i with
  | none => rfl
  | some indent =>
    obtain ⟨start, -, h⟩ := Option.bind_eq_some_iff.mp h
    obtain ⟨line, -, h⟩ := Option.bind_eq_some_iff.mp h
    cases h
    rw [Option.getD_some, visible, String.toList_ofList, List.filter_eq_nil_iff]
    intro c hc
    have hindent : isIndent c = true := List.all_eq_true.mp List.all_takeWhile c hc
    rw [isIndent, Bool.or_eq_true, beq_iff_eq, beq_iff_eq] at hindent
    rcases hindent with rfl | rfl <;> decide

theorem visible_indentRest {code indent : String} (h : visible indent = []) :
    visible (indentRest code indent) = visible code := by
  rw [← flatMap_visible_segments code, indentRest]
  cases segments code with
  | nil => rfl
  | cons first rest =>
    dsimp only
    rw [visible_join, List.flatMap_cons, List.flatMap_cons, List.flatMap_map]
    congr 1
    refine List.flatMap_congr fun seg _ => ?_
    split
    · rfl
    · rw [visible_append, h, List.nil_append]

/-- Nothing but blanks stands between two offsets. -/
def BlankBetween (s : String) (i j : Nat) : Prop :=
  ∃ gap, slice? s i j = some gap ∧ allBlank gap = true

theorem BlankBetween.le {s : String} {i j : Nat} (h : BlankBetween s i j) : i ≤ j := by
  obtain ⟨gap, hgap, -⟩ := h
  obtain ⟨-, -, -, -, hsize⟩ := slice?_eq_some_iff.mp hgap
  exact Nat.le.intro hsize

/-- The widened span, or the span itself where it stays as it is or delimits no text.  Widening adds
blanks at both ends. -/
theorem getD_fullLineSpan?_cases (s : String) (start stop : Nat) :
    (fullLineSpan? s start stop).getD ⟨start, stop⟩ = ⟨start, stop⟩ ∨
      BlankBetween s ((fullLineSpan? s start stop).getD ⟨start, stop⟩).start start ∧
        BlankBetween s stop ((fullLineSpan? s start stop).getD ⟨start, stop⟩).stop := by
  cases h : fullLineSpan? s start stop with
  | none => exact .inl rfl
  | some span =>
    rw [fullLineSpan?] at h
    obtain ⟨first, -, h⟩ := Option.bind_eq_some_iff.mp h
    obtain ⟨-, -, h⟩ := Option.bind_eq_some_iff.mp h
    obtain ⟨before, hbefore, h⟩ := Option.bind_eq_some_iff.mp h
    obtain ⟨after, hafter, h⟩ := Option.bind_eq_some_iff.mp h
    split at h
    case isTrue hblank =>
      cases h
      obtain ⟨hfront, hback⟩ := Bool.and_eq_true_iff.mp hblank
      exact .inr ⟨⟨before, hbefore, hfront⟩, ⟨after, hafter, hback⟩⟩
    case isFalse =>
      cases h
      exact .inl rfl

/-- Widening a span to whole lines does not cut it. -/
theorem getD_fullLineSpan?_covers (s : String) (start stop : Nat) :
    ((fullLineSpan? s start stop).getD ⟨start, stop⟩).start ≤ start ∧
      stop ≤ ((fullLineSpan? s start stop).getD ⟨start, stop⟩).stop := by
  rcases getD_fullLineSpan?_cases s start stop with h | ⟨hfront, hback⟩
  · rw [h]
    exact ⟨Nat.le_refl _, Nat.le_refl _⟩
  · exact ⟨hfront.le, hback.le⟩

end Text

namespace Layout

open Syntax Text

variable {source : String} {P : Node → Prop} {n : Node} {nodes : List Node} {row i j k : Nat}
  {t : Tree}

/-! ## The construct is in the span -/

/-- The run of comments above a row starts where one of the nodes does. -/
theorem exists_of_commentsAbove (h : commentsAbove source row nodes = some i) :
    ∃ s ∈ nodes, s.start = i := by
  induction nodes generalizing row i with
  | nil => cases h
  | cons s nodes ih =>
    rw [commentsAbove] at h
    split at h
    · cases habove : commentsAbove source (rowOf source s.start) nodes with
      | none =>
        rw [habove] at h
        exact ⟨s, List.mem_cons_self, Option.some.inj h⟩
      | some j =>
        obtain ⟨s', hs', hj⟩ := ih habove
        rw [habove] at h
        exact ⟨s', List.mem_cons_of_mem s hs', hj.trans (Option.some.inj h)⟩
    · cases h

/-- The comment on a row ends where one of the nodes does. -/
theorem exists_of_commentBeside (h : commentBeside source row nodes = some i) :
    ∃ s ∈ nodes, s.stop = i := by
  obtain ⟨s, hs, hi⟩ := Option.map_eq_some_iff.mp h
  exact ⟨s, List.takeWhile_subset _ (List.mem_of_find?_eq_some hs), hi⟩

/-- A node stands among the children of its parent between its siblings. -/
theorem children_eq_siblings {p : Node} (hn : n ∈ p.children) :
    p.children = n.siblingsBefore.reverse ++ n :: n.siblingsAfter := by
  obtain ⟨i, htree, habove⟩ := Node.mem_children.mp hn
  have hindex : n.index = i := by rw [Node.index, habove]
  have hget : p.children[i]? = some n := by
    rw [Node.children, List.getElem?_mapIdx, htree, Option.map_some, ← habove]
  obtain ⟨hlt, hget⟩ := List.getElem?_eq_some_iff.mp hget
  rw [Node.siblingsBefore, Node.siblingsAfter, Node.parent?_of_mem_children hn]
  dsimp only
  rw [hindex, List.reverse_reverse, ← hget, List.getElem_cons_drop, List.take_append_drop]

/-- In a tree that fits a source the siblings before a node start before it and those after it end
after it. -/
theorem siblings_around (hn : (Node.root t).Holds n) (hfits : t.fits source = true) :
    (∀ s ∈ n.siblingsBefore, s.start ≤ n.start) ∧ ∀ s ∈ n.siblingsAfter, n.stop ≤ s.stop := by
  cases hn with
  | self => exact ⟨fun s hs => absurd hs List.not_mem_nil, fun s hs => absurd hs List.not_mem_nil⟩
  | @child m _ hm hn =>
    have hsplit := children_eq_siblings hn
    have horder (s : Node) (hs : s ∈ m.children) : s.start ≤ s.stop :=
      Tree.start_le_stop s.tree ((hm.child hs).spans hfits).1
    have hpairs := Node.pairwise_children (hm.spans hfits).1
    rw [hsplit] at hpairs horder
    obtain ⟨-, hafter, hbefore⟩ := List.pairwise_append.mp hpairs
    constructor
    · intro s hs
      have hmem : s ∈ n.siblingsBefore.reverse := List.mem_reverse.mpr hs
      exact Nat.le_trans (horder s (List.mem_append_left _ hmem))
        (hbefore s hmem n List.mem_cons_self)
    · intro s hs
      exact Nat.le_trans ((List.pairwise_cons.mp hafter).1 s hs)
        (horder s (List.mem_append_right _ (List.mem_cons_of_mem n hs)))

/-- The span that goes with a node covers it. -/
theorem removalSpan_covers (hn : (Node.root t).Holds n)
    (hfits : t.fits source = true) :
    (removalSpan source n).start ≤ n.start ∧ n.stop ≤ (removalSpan source n).stop := by
  obtain ⟨hbefore, hafter⟩ := siblings_around hn hfits
  have hstart : (commentsAbove source (rowOf source n.start) n.siblingsBefore).getD n.start ≤
      n.start := by
    cases habove : commentsAbove source (rowOf source n.start) n.siblingsBefore with
    | none => exact Nat.le_refl _
    | some i =>
      obtain ⟨s, hs, rfl⟩ := exists_of_commentsAbove habove
      exact hbefore s hs
  have hstop : n.stop ≤
      (commentBeside source (rowOf source n.stop) n.siblingsAfter).getD n.stop := by
    cases hbeside : commentBeside source (rowOf source n.stop) n.siblingsAfter with
    | none => exact Nat.le_refl _
    | some i =>
      obtain ⟨s, hs, rfl⟩ := exists_of_commentBeside hbeside
      exact hafter s hs
  obtain ⟨hfirst, hlast⟩ := getD_fullLineSpan?_covers source
    ((commentsAbove source (rowOf source n.start) n.siblingsBefore).getD n.start)
    ((commentBeside source (rowOf source n.stop) n.siblingsAfter).getD n.stop)
  exact ⟨Nat.le_trans hfirst hstart, Nat.le_trans hstop hlast⟩

/-! ## What else is in the span -/

/-- A stretch of a source that is made of blanks and of some nodes. -/
inductive Stretch (source : String) (P : Node → Prop) (i : Nat) : Nat → Prop
  | start : Stretch source P i i
  | blanks {j k : Nat} (h : Stretch source P i j) (hgap : BlankBetween source j k) :
      Stretch source P i k
  | node {c : Node} (h : Stretch source P i c.start) (hc : P c) : Stretch source P i c.stop

/-- Only blanks stand between the children of a node. -/
def Spaced (source : String) (p : Node) : Prop :=
  p.children.IsChain fun a b => BlankBetween source a.stop b.start

/-- The siblings behind a node that stand between it and a comment on its last row. -/
def ahead (source : String) (n : Node) : List Node :=
  if (commentBeside source (rowOf source n.stop) n.siblingsAfter).isSome then
    n.siblingsAfter.takeWhile (!·.isComment)
  else []

theorem Stretch.trans (h : Stretch source P i j) (h' : Stretch source P j k) :
    Stretch source P i k := by
  induction h' with
  | start => exact h
  | blanks _ hgap ih => exact .blanks ih hgap
  | node _ hc ih => exact .node ih hc

/-- A row of siblings leads from the end of a node to the end of the last of them. -/
theorem stretch_of_chain {c : Node}
    (hchain : (n :: (nodes ++ [c])).IsChain fun a b => BlankBetween source a.stop b.start)
    (hP : ∀ d ∈ nodes ++ [c], P d) : Stretch source P n.stop c.stop := by
  induction nodes generalizing n with
  | nil =>
    obtain ⟨hgap, -⟩ := List.isChain_cons_cons.mp hchain
    exact (Stretch.start.blanks hgap).node (hP c List.mem_cons_self)
  | cons d nodes ih =>
    obtain ⟨hgap, hchain⟩ := List.isChain_cons_cons.mp hchain
    have hrest := ih hchain fun e he => hP e (List.mem_cons_of_mem d he)
    exact ((Stretch.start.blanks hgap).node (hP d List.mem_cons_self)).trans hrest

/-- The run of comments above a node leads up to the node. -/
theorem stretch_commentsAbove
    (hchain : (n :: nodes).IsChain fun a b => BlankBetween source b.stop a.start)
    (h : commentsAbove source row nodes = some i) (hP : ∀ c ∈ nodes, c.isComment = true → P c) :
    Stretch source P i n.start := by
  induction nodes generalizing n row i with
  | nil => cases h
  | cons c nodes ih =>
    obtain ⟨hgap, hchain⟩ := List.isChain_cons_cons.mp hchain
    rw [commentsAbove] at h
    split at h
    case isTrue hcomment =>
      have hc : P c := hP c List.mem_cons_self (Bool.and_eq_true_iff.mp hcomment).1
      -- whatever the run is above this comment, the comment and the gap behind it follow
      suffices hrun : Stretch source P i c.start from (hrun.node hc).blanks hgap
      cases habove : commentsAbove source (rowOf source c.start) nodes with
      | none =>
        rw [habove] at h
        cases h
        exact .start
      | some i' =>
        rw [habove] at h
        cases h
        exact ih hchain habove fun d hd => hP d (List.mem_cons_of_mem c hd)
    case isFalse => cases h

/-- The comment beside a node is the first comment behind it, and ahead of it stand the nodes that
are none. -/
theorem siblingsAfter_eq_of_commentBeside
    (h : commentBeside source (rowOf source n.stop) n.siblingsAfter = some i) :
    ∃ c rest, n.siblingsAfter = ahead source n ++ c :: rest ∧ c.isComment = true ∧ c.stop = i := by
  obtain ⟨c, hfind, hstop⟩ := Option.map_eq_some_iff.mp h
  obtain ⟨hcomment, before, after, hrow, hbefore⟩ := List.find?_eq_some_iff_append.mp hfind
  obtain ⟨rest, hrest⟩ := List.takeWhile_prefix (l := n.siblingsAfter)
    fun s => decide (rowOf source s.start = rowOf source n.stop)
  rw [hrow, List.append_assoc, List.cons_append] at hrest
  refine ⟨c, after ++ rest, ?_, hcomment, hstop⟩
  rw [ahead, h, Option.isSome_some, if_pos rfl, ← hrest, List.takeWhile_append_of_pos hbefore,
    List.takeWhile_cons_of_neg (by rw [hcomment]; exact Bool.false_ne_true), List.append_nil]

/-- Between a node and its siblings on both sides there are only blanks. -/
theorem chain_siblings (hn : (Node.root t).Holds n)
    (hspaced : ∀ p, n.parent? = some p → Spaced source p) :
    (n :: n.siblingsBefore).IsChain (fun a b => BlankBetween source b.stop a.start) ∧
      (n :: n.siblingsAfter).IsChain fun a b => BlankBetween source a.stop b.start := by
  cases hn with
  | self => exact ⟨.singleton _, .singleton _⟩
  | @child m _ hm hn =>
    have hchain := hspaced m (Node.parent?_of_mem_children hn)
    rw [Spaced, children_eq_siblings hn] at hchain
    refine ⟨?_, hchain.right_of_append⟩
    rw [List.append_cons] at hchain
    have hback := List.isChain_reverse.mpr hchain.left_of_append
    rwa [List.reverse_concat, List.reverse_reverse] at hback

/-- What goes with a node are blanks, the comments above it, the comment beside it and the nodes that
stand ahead of that comment. -/
theorem removalSpan_stretch (hn : (Node.root t).Holds n)
    (hspaced : ∀ p, n.parent? = some p → Spaced source p) :
    Stretch source (fun c => c ∈ n.siblingsBefore ∧ c.isComment = true)
        (removalSpan source n).start n.start ∧
      Stretch source (fun c => c ∈ n.siblingsAfter ∧ (c.isComment = true ∨ c ∈ ahead source n))
        n.stop (removalSpan source n).stop := by
  obtain ⟨hbefore, hafter⟩ := chain_siblings hn hspaced
  have hstart : Stretch source (fun c => c ∈ n.siblingsBefore ∧ c.isComment = true)
      ((commentsAbove source (rowOf source n.start) n.siblingsBefore).getD n.start) n.start := by
    cases habove : commentsAbove source (rowOf source n.start) n.siblingsBefore with
    | none => exact .start
    | some i => exact stretch_commentsAbove hbefore habove fun c hc hcomment => ⟨hc, hcomment⟩
  have hstop : Stretch source
      (fun c => c ∈ n.siblingsAfter ∧ (c.isComment = true ∨ c ∈ ahead source n)) n.stop
      ((commentBeside source (rowOf source n.stop) n.siblingsAfter).getD n.stop) := by
    cases hbeside : commentBeside source (rowOf source n.stop) n.siblingsAfter with
    | none => exact .start
    | some i =>
      obtain ⟨c, rest, hsplit, hcomment, rfl⟩ := siblingsAfter_eq_of_commentBeside hbeside
      have hmem (d : Node) (hd : d ∈ ahead source n ++ [c]) : d ∈ n.siblingsAfter := by
        rw [hsplit, List.append_cons]
        exact List.mem_append_left rest hd
      rw [hsplit, List.append_cons, ← List.cons_append] at hafter
      refine stretch_of_chain hafter.left_of_append fun d hd => ⟨hmem d hd, ?_⟩
      rcases List.mem_append.mp hd with hd | hd
      · exact .inr hd
      · rw [List.mem_singleton.mp hd]
        exact .inl hcomment
  rw [removalSpan]
  rcases getD_fullLineSpan?_cases source
    ((commentsAbove source (rowOf source n.start) n.siblingsBefore).getD n.start)
    ((commentBeside source (rowOf source n.stop) n.siblingsAfter).getD n.stop) with h | ⟨hf, hb⟩
  · rw [h]
    exact ⟨hstart, hstop⟩
  · exact ⟨(Stretch.start.blanks hf).trans hstart, hstop.blanks hb⟩

/-- The nodes that stand ahead of the comment beside a node go with it. -/
theorem removalSpan_takes_ahead (hn : (Node.root t).Holds n) (hfits : t.fits source = true)
    {s : Node} (hs : s ∈ ahead source n) :
    n.stop ≤ s.start ∧ s.stop ≤ (removalSpan source n).stop := by
  have hsome : (commentBeside source (rowOf source n.stop) n.siblingsAfter).isSome = true := by
    by_contra hnone
    rw [ahead, if_neg hnone] at hs
    cases hs
  obtain ⟨i, hbeside⟩ := Option.isSome_iff_exists.mp hsome
  obtain ⟨c, rest, hsplit, -, rfl⟩ := siblingsAfter_eq_of_commentBeside hbeside
  have hlast : c.stop ≤ (removalSpan source n).stop := by
    rw [removalSpan, hbeside]
    exact (getD_fullLineSpan?_covers source _ c.stop).2
  have hafter (d : Node) (hd : d ∈ ahead source n ++ [c]) : d ∈ n.siblingsAfter := by
    rw [hsplit, List.append_cons]
    exact List.mem_append_left rest hd
  cases hn with
  | self => cases hafter s (List.mem_append_left _ hs)
  | @child m _ hm hn =>
    have hpairs := Node.pairwise_children (hm.spans hfits).1
    rw [children_eq_siblings hn, hsplit] at hpairs
    obtain ⟨hnext, hpairs⟩ := List.pairwise_cons.mp (List.pairwise_append.mp hpairs).2.1
    have hmem : c ∈ m.children :=
      (Node.siblingsAfter_sublist hn).subset (hafter c (List.mem_append_right _ (.head _)))
    have hcomment : s.stop ≤ c.start :=
      (List.pairwise_append.mp hpairs).2.2 s hs c List.mem_cons_self
    have hcs : c.start ≤ c.stop := Tree.start_le_stop c.tree ((hm.child hmem).spans hfits).1
    exact ⟨hnext s (List.mem_append_left _ hs), by omega⟩

end Layout

end Amend
