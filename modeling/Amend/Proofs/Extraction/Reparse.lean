import Amend.Extraction.Method
import Amend.Proofs.Extraction.Facts
import Amend.Proofs.Extraction.Follow
import Amend.Proofs.Syntax.Regrow

/-!
# A source parsed again after a block was lifted

The tree of the source after a step is the one before it with the statements of the block exchanged
for those of the call and the new method put in behind the old one.  So the method is found again at
its start, its statements behind the call are those behind the block, and the type around it has one
more name.
-/

namespace Amend.Extraction

open Syntax Syntax.Node

/-! ## The method after the step -/

/-- The tree of a method whose block was exchanged for the trees of a call of `size` bytes. -/
def liftedMethod (method : Node) (block : Block) (call : List Tree) (size : Nat) : Option Tree := do
  let body ← method.childBy? .body
  let first ← body.parts[block.firstIndex]?
  let last ← body.parts[block.lastIndex]?
  let called :=
    body.tree.splice first.index (last.index + 1) call block.stop (block.start + size)
  return method.tree.splice body.index (body.index + 1) [called] block.stop (block.start + size)

section Lifted

variable {method : Node} {b : Block} {call : List Tree} {size : Nat} {lifted : Tree}
  {above' : List (Tree × Nat)}

/-- Where the exchanged parts of a method are: its children are those ahead of its body, the body
and those behind it, and the children of the body are, read once up to the first statement of the
block and once from the last one on, `front` and `back` around these statements. -/
structure LiftedAt (method : Node) (b : Block) (call : List Tree) (size : Nat) (lifted : Tree)
    (before behind front back : List Tree) (body called : Tree) (first last : Node) : Prop where
  children : method.tree.children = before ++ body :: behind
  isBody : method.childBy? .body = some ⟨body, (method.tree, before.length) :: method.above⟩
  firstAt : (Java.bodyStatements method)[b.firstIndex]? = some first
  lastAt : (Java.bodyStatements method)[b.lastIndex]? = some last
  firstChild : ∃ rest, body.children = front ++ first.tree :: rest
  lastChild : ∃ rest, body.children = rest ++ last.tree :: back
  ahead : (front.filter isPart).length = b.firstIndex
  later : ∃ i, (Java.bodyStatements method).drop (b.lastIndex + 1) = (nodesFrom body
    ((method.tree, before.length) :: method.above) i back).filter (isPart ·.tree)
  called_eq : called = { body with
    stop := body.stop - b.stop + (b.start + size)
    children := front ++ call ++ back.map (Tree.moved b.stop (b.start + size)) }
  lifted_eq : lifted = method.tree.splice before.length (before.length + 1) [called] b.stop
    (b.start + size)

theorem exists_liftedAt (h : liftedMethod method b call size = some lifted) :
    ∃ before behind front back body called first last,
      LiftedAt method b call size lifted before behind front back body called first last := by
  rw [liftedMethod] at h
  obtain ⟨body, hbody, h⟩ := Option.bind_eq_some_iff.mp h
  obtain ⟨first, hfirst, h⟩ := Option.bind_eq_some_iff.mp h
  obtain ⟨last, hlast, h⟩ := Option.bind_eq_some_iff.mp h
  have hstatements : Java.bodyStatements method = body.parts := by
    rw [Java.bodyStatements, hbody]
    rfl
  obtain ⟨before, behind, hchildren, habove, -⟩ := exists_of_childBy? hbody
  obtain ⟨front, rest, hfront, hfirstAbove, hahead, -⟩ := exists_of_getElem?_parts hfirst
  obtain ⟨rest', back, hback, hlastAbove, -, hlater⟩ := exists_of_getElem?_parts hlast
  have hindex : body.index = before.length := by rw [index, habove]
  have hfirstIndex : first.index = front.length := by rw [index, hfirstAbove]
  have hlastIndex : last.index = rest'.length := by rw [index, hlastAbove]
  rw [hindex, hfirstIndex, hlastIndex] at h
  cases h
  obtain ⟨bodyTree, bodyAbove⟩ := body
  obtain rfl : bodyAbove = (method.tree, before.length) :: method.above := habove
  refine ⟨before, behind, front, back, bodyTree, _, first, last, hchildren, hbody, ?_, ?_,
    ⟨rest, hfront⟩, ⟨rest', hback⟩, hahead, ⟨_, hstatements ▸ hlater⟩, ?_, rfl⟩
  · rw [hstatements, hfirst]
  · rw [hstatements, hlast]
  · have htake : bodyTree.children.take front.length = front := by rw [hfront, List.take_left]
    have hdrop : bodyTree.children.drop (rest'.length + 1) = back := by
      rw [hback, ← List.drop_drop, List.drop_left, List.drop_one, List.tail_cons]
    rw [Tree.splice, htake, hdrop]

namespace LiftedAt

variable {before behind front back : List Tree} {body called : Tree} {first last : Node}

/-- The statements of the method after the step. -/
theorem bodyStatements
    (h : LiftedAt method b call size lifted before behind front back body called first last) :
    Java.bodyStatements ⟨lifted, above'⟩ =
      (nodesFrom called ((lifted, before.length) :: above') 0 front).filter (isPart ·.tree) ++
        ((nodesFrom called ((lifted, before.length) :: above') front.length call).filter
            (isPart ·.tree) ++
          (nodesFrom called ((lifted, before.length) :: above') (front.length + call.length)
            (back.map (Tree.moved b.stop (b.start + size)))).filter (isPart ·.tree)) := by
  have hcalled : called.children =
      front ++ call ++ back.map (Tree.moved b.stop (b.start + size)) := by rw [h.called_eq]
  have hfield : called.field = body.field := by rw [h.called_eq]
  have hbody : (⟨lifted, above'⟩ : Node).childBy? .body =
      some ⟨called, (lifted, before.length) :: above'⟩ := by
    rw [h.lifted_eq]
    exact childBy?_splice h.isBody hfield
  rw [Java.bodyStatements, hbody, Option.map_some, Option.getD_some, parts_eq_filter, hcalled,
    List.append_assoc, nodesFrom_append, nodesFrom_append, List.filter_append, List.filter_append,
    Nat.zero_add]

/-- The statements of the call are where the block was, and behind them those behind the block. -/
theorem drop_bodyStatements
    (h : LiftedAt method b call size lifted before behind front back body called first last) :
    (Java.bodyStatements ⟨lifted, above'⟩).drop b.firstIndex =
      (nodesFrom called ((lifted, before.length) :: above') front.length call).filter
          (isPart ·.tree) ++
        (nodesFrom called ((lifted, before.length) :: above') (front.length + call.length)
          (back.map (Tree.moved b.stop (b.start + size)))).filter (isPart ·.tree) := by
  have hfront : ((nodesFrom called ((lifted, before.length) :: above') 0 front).filter
      (isPart ·.tree)).length = b.firstIndex := length_filter_nodesFrom.trans h.ahead
  rw [h.bodyStatements, ← hfront, List.drop_left]

theorem drop_behind_call
    (h : LiftedAt method b call size lifted before behind front back body called first last) :
    (Java.bodyStatements ⟨lifted, above'⟩).drop (b.firstIndex + (call.filter isPart).length) =
      (nodesFrom called ((lifted, before.length) :: above') (front.length + call.length)
        (back.map (Tree.moved b.stop (b.start + size)))).filter (isPart ·.tree) := by
  rw [← List.drop_drop, h.drop_bodyStatements, ← length_filter_nodesFrom, List.drop_left]

end LiftedAt

end Lifted

/-! ## The text after the step -/

/-- Where a block ends the text `c ++ d` and its method ends `c ++ d ++ q`, and the block is `d`. -/
structure Cut (method : Node) (b : Block) (c d q : String) : Prop where
  start : c.utf8ByteSize = b.start
  stop : (c ++ d).utf8ByteSize = b.stop
  methodStop : (c ++ d).utf8ByteSize + q.utf8ByteSize = method.stop

section Text

variable {method : Node} {b : Block} {call : List Tree} {lifted : Tree}
  {above' : List (Tree × Nat)} {before behind front back : List Tree} {body called : Tree}
  {first last : Node} {c d d' q u v : String}

/-- What is left of the spans in the method whose block was lifted. -/
structure Around (method : Node) (b : Block) (c d q u : String) (body : Tree) (back : List Tree) :
    Prop where
  start_le : body.start ≤ c.utf8ByteSize
  le_stop : (c ++ d).utf8ByteSize ≤ body.stop
  stop_le : body.stop ≤ (c ++ d).utf8ByteSize + q.utf8ByteSize
  back : Tree.fitAll (c ++ d ++ (q ++ u)) (c ++ d).utf8ByteSize body.stop back = true

theorem LiftedAt.around
    (h : LiftedAt method b call d'.utf8ByteSize lifted before behind front back body called first
      last)
    (hcut : Cut method b c d q) (hfits : method.tree.fits (c ++ d ++ (q ++ u)) = true)
    (hstart : b.start = first.start) (hstop : b.stop = last.stop) :
    Around method b c d q u body back := by
  have hchildren := (Tree.fits_iff.mp hfits).2.2
  rw [h.children] at hchildren
  obtain ⟨hbody, -, hbodyStop⟩ := Tree.fits_of_mem hchildren (t := body) (by simp)
  have hinner := (Tree.fits_iff.mp hbody).2.2
  obtain ⟨rest, hfirst⟩ := h.firstChild
  obtain ⟨rest', hlast⟩ := h.lastChild
  obtain ⟨-, hfirstStart, -⟩ := Tree.fits_of_mem hinner (t := first.tree) (by simp [hfirst])
  obtain ⟨-, -, hlastStop⟩ := Tree.fits_of_mem hinner (t := last.tree) (by simp [hlast])
  have hstarts : first.tree.start = c.utf8ByteSize := by rw [hcut.start, hstart, Node.start]
  have hstops : last.tree.stop = (c ++ d).utf8ByteSize := by rw [hcut.stop, hstop, Node.stop]
  have hmethod : method.tree.stop = (c ++ d).utf8ByteSize + q.utf8ByteSize := hcut.methodStop.symm
  rw [hlast] at hinner
  have hback := (Tree.fitAll_around hinner).2.2
  rw [hstops] at hback
  exact ⟨by omega, by omega, by omega, hback⟩

/-- What the method holds besides its body is written as before. -/
theorem LiftedAt.textBy?
    (h : LiftedAt method b call d'.utf8ByteSize lifted before behind front back body called first
      last)
    (hcut : Cut method b c d q) (hfits : method.tree.fits (c ++ d ++ (q ++ u)) = true)
    (haround : Around method b c d q u body back) {f : Field} (hf : f ≠ .body) :
    (lifted.wording (c ++ d' ++ (q ++ v))).textBy? f =
      (method.tree.wording (c ++ d ++ (q ++ u))).textBy? f := by
  have hbody : body.field = some .body := by simpa using List.find?_some h.isBody
  have hcalled : called.field = some .body := by rw [h.called_eq, ← hbody]
  have hne : some Field.body ≠ some f := fun heq => hf (Option.some.inj heq).symm
  have hnew : b.start + d'.utf8ByteSize = (c ++ d').utf8ByteSize := by
    rw [String.utf8ByteSize_append, hcut.start]
  rw [h.lifted_eq, hnew, ← hcut.stop]
  exact textBy?_splice hfits h.children haround.start_le haround.le_stop
    (Nat.le_of_eq hcut.methodStop.symm) (hbody ▸ hne) (hcalled ▸ hne)

theorem LiftedAt.stop_eq
    (h : LiftedAt method b call d'.utf8ByteSize lifted before behind front back body called first
      last)
    (hcut : Cut method b c d q) : lifted.stop = (c ++ d').utf8ByteSize + q.utf8ByteSize := by
  have hmethod := hcut.methodStop
  have hstart := hcut.start
  have hstop := hcut.stop
  rw [h.lifted_eq, Tree.stop_splice, ← hstart, ← hstop, ← String.utf8ByteSize_append]
  rw [Node.stop] at hmethod
  omega

theorem returnType_eq (source : String) (m : Node) :
    Java.returnType m source = ((m.tree.wording source).textBy? .type).getD "void" := by
  rw [textBy?_wording]
  rfl

theorem exists_variable_of_read {source x : String} {s : Node}
    (h : x ∈ (StatementFacts.ofStatement s source (.ofMethod method source)).readsInOrder) :
    ∃ n ∈ s.preorder, Java.isVariableName n = true ∧ n.text source = x := by
  have hread : x ∈ StatementFacts.namesRead method source s := by
    rw [← mem_firstOccurrences, ← StatementFacts.readsInOrder_of]
    exact h
  obtain ⟨n, hn, htext⟩ := List.mem_map.mp hread
  obtain ⟨hmem, hreads⟩ := List.mem_filter.mp hn
  rw [StatementFacts.reads, StatementFacts.namesVariable, Bool.and_eq_true, Bool.and_eq_true,
    Bool.and_eq_true] at hreads
  exact ⟨n, hmem, hreads.1.1.2, htext⟩

theorem exists_variable_of_reference {source x : String} {s : Node}
    (h : (Java.variableReferences s source x).isEmpty = false) :
    ∃ n ∈ s.preorder, Java.isVariableName n = true ∧ n.text source = x := by
  obtain ⟨n, hn⟩ := List.isEmpty_eq_false_iff_exists_mem.mp h
  have hoccurs := (List.mem_filter.mp hn).1
  obtain ⟨hmem, hthis⟩ := List.mem_filter.mp hoccurs
  rw [Bool.and_eq_true, Bool.and_eq_true, beq_iff_eq] at hthis
  exact ⟨n, hmem, hthis.2, hthis.1.2⟩

/-- The statements behind the call go on like those behind the block. -/
theorem LiftedAt.follows
    (h : LiftedAt method b call d'.utf8ByteSize lifted before behind front back body called first
      last)
    (hcut : Cut method b c d q) (hfits : method.tree.fits (c ++ d ++ (q ++ u)) = true)
    (haround : Around method b c d q u body back) (hbody : body.kind ∈ bodyKinds)
    (habove : above'.map (·.1.kind) = method.above.map (·.1.kind))
    (hscope : ∀ s ∈ (Java.bodyStatements method).drop (b.lastIndex + 1),
      (MethodScope.ofMethod method (c ++ d ++ (q ++ u))).AgreeOn
        (MethodScope.ofMethod ⟨lifted, above'⟩ (c ++ d' ++ (q ++ v))) (c ++ d ++ (q ++ u)) s) :
    MethodFlow.Follows (c ++ d) q u (c ++ d') v
      (MethodFlow.ofMethod method (c ++ d ++ (q ++ u)))
      (MethodFlow.ofMethod ⟨lifted, above'⟩ (c ++ d' ++ (q ++ v)))
      (b.lastIndex + 1) (b.firstIndex + (call.filter isPart).length) where
  source := rfl
  source' := rfl
  stop := hcut.methodStop.symm
  stop' := h.stop_eq hcut
  returnType := by
    have htype := h.textBy? (v := v) hcut hfits haround (f := .type) (by decide)
    exact (returnType_eq _ method).trans
      ((congrArg (Option.getD · "void") htype.symm).trans (returnType_eq _ ⟨lifted, above'⟩).symm)
  statements := by
    obtain ⟨i, hlater⟩ := h.later
    have hnew : b.start + d'.utf8ByteSize = (c ++ d').utf8ByteSize := by
      rw [String.utf8ByteSize_append, hcut.start]
    have hkind : called.kind = body.kind := by rw [h.called_eq]
    have hlifted : lifted.kind = method.tree.kind := by rw [h.lifted_eq, Tree.kind_splice]
    have hcarries : List.Forall₂ (Carries (c ++ d) q u (c ++ d') v)
        ((Java.bodyStatements method).drop (b.lastIndex + 1))
        ((Java.bodyStatements ⟨lifted, above'⟩).drop
          (b.firstIndex + (call.filter isPart).length)) := by
      rw [hlater, h.drop_behind_call]
      refine forall₂_nodesFrom (fun t => Tree.kind_moved) (fun t ht j j' => ?_) _ _
      obtain ⟨hthis, hstart, hstop⟩ := Tree.fits_of_mem haround.back ht
      refine ⟨hthis, hstart, Nat.le_trans hstop haround.stop_le, ?_, .outer ?_ hbody⟩
      · rw [hnew, ← hcut.stop]
      · simp only [List.map_cons, hkind, hlifted, habove]
    have hmem := (List.forall₂_and_left _ _).mpr ⟨fun s hs => hs, hcarries⟩
    rw [MethodFlow.ofMethod, MethodFlow.ofMethod, ← List.map_drop, ← List.map_drop,
      List.forall₂_map_left_iff, List.forall₂_map_right_iff]
    refine hmem.imp fun s s' hs => ⟨hs.2, ?_⟩
    exact StatementFacts.ofStatement_congr hs.2.alike (hscope s hs.1)
  types := by
    intro a ha x hx
    rw [MethodFlow.ofMethod, ← List.map_drop] at ha
    obtain ⟨s, hs, rfl⟩ := List.mem_map.mp ha
    obtain ⟨n, hn, hname, htext⟩ := hx.elim exists_variable_of_read exists_variable_of_reference
    have hlookup := hscope s hs n hn hname
    rw [MethodScope.typeOf?, MethodScope.typeOf?]
    rw [htext] at hlookup
    exact congrArg Option.join hlookup.symm

end Text

/-! ## The names around the method -/

/-- The names that a member of a type introduces. -/
def memberOf (w : Wording) : List String :=
  if [Kind.fieldDeclaration, .constantDeclaration].contains w.kind then
    (w.children.filter (·.field = some .declarator)).filterMap (·.textBy? .name)
  else (w.textBy? .name).toList

theorem memberNames_eq (n : Node) (source : String) :
    Java.memberNames n source = (n.tree.wording source).parts.flatMap memberOf := by
  rw [Java.memberNames, ← map_wording_parts, List.flatMap_map]
  congr 1
  funext m
  have hfields : ((m.tree.wording source).children.filter (·.field = some .declarator)).filterMap
      (·.textBy? .name) = (m.childrenBy .declarator).filterMap (Java.declaredName? · source) := by
    rw [← map_wording_childrenBy, List.filterMap_map]
    congr 1
    funext d
    exact textBy?_wording
  rw [memberOf, hfields, textBy?_wording, Tree.kind_wording]
  rfl

theorem isOneOf_classLike {n : Node} (h : n.kind ∈ Java.callableKinds) :
    n.isOneOf Java.classLike = false := by
  simp only [Java.callableKinds, List.mem_cons, List.not_mem_nil, or_false] at h
  rcases h with h | h <;> simp [isOneOf, h, Java.classLike]

/-- Whether a method is declared directly in the class or record around it. -/
def DeclaredInClass (method : Node) : Prop :=
  ∃ body, Java.enclosingClassBody? method = some body ∧ method.parent? = some body

section Around

variable {method : Node} {old new : Nat} {lifted : Tree} {beside : List Tree}

/-- The body around a method is still around it when the method was exchanged. -/
theorem enclosingClassBody?_regrow {p : Tree} {i : Nat} {above : List (Tree × Nat)}
    (habove : method.above = (p, i) :: above)
    (hbody : Java.enclosingClassBody? method = some ⟨p, above⟩)
    (hmethod : method.isOneOf Java.classLike = false) (hkind : lifted.kind = method.kind) :
    Java.enclosingClassBody? ⟨lifted, regrowAbove old new lifted beside method.above⟩ =
      some ⟨p.splice i (i + 1) (lifted :: beside) old new,
        regrowAbove old new (p.splice i (i + 1) (lifted :: beside) old new) [] above⟩ := by
  have hlifted (ups : List (Tree × Nat)) :
      (⟨lifted, ups⟩ : Node).isOneOf Java.classLike = false := by
    rw [← hmethod, isOneOf, isOneOf]
    exact congrArg _ hkind
  rw [Java.enclosingClassBody?, hmethod, if_neg Bool.false_ne_true] at hbody
  obtain ⟨decl, hdecl, hchild⟩ := Option.bind_eq_some_iff.mp hbody
  obtain ⟨front, back, -, hdeclAbove, -⟩ := exists_of_childBy? hchild
  obtain ⟨d, ups⟩ := decl
  obtain rfl : above = (d, front.length) :: ups := hdeclAbove
  have hskip {n : Node} (hn : n.isOneOf Java.classLike = false) (ns : List Node) :
      (n :: ns).find? (·.isOneOf Java.classLike) = ns.find? (·.isOneOf Java.classLike) :=
    List.find?_cons_of_neg (Bool.eq_false_iff.mp hn)
  have htake {n : Node} (hn : n.isOneOf Java.classLike = true) (ns : List Node) :
      (n :: ns).find? (·.isOneOf Java.classLike) = some n := List.find?_cons_of_pos hn
  have hclass : (⟨d, ups⟩ : Node).isOneOf Java.classLike = true := by
    rw [ancestor?] at hdecl
    simpa using List.find?_some hdecl
  -- the body itself is no class, for the class found is the one that holds it
  have hinner : (⟨p, (d, front.length) :: ups⟩ : Node).isOneOf Java.classLike = false := by
    rw [Bool.eq_false_iff]
    intro hp
    rw [ancestor?, ancestors, habove, upward, htake hp, Option.some.injEq, Node.mk.injEq] at hdecl
    have hlength := congrArg List.length hdecl.2
    rw [List.length_cons] at hlength
    omega
  have hgrown (ups : List (Tree × Nat)) :
      (⟨p.splice i (i + 1) (lifted :: beside) old new, ups⟩ : Node).isOneOf Java.classLike =
        false :=
    hinner
  have hgrownClass (t : Tree) (ups : List (Tree × Nat)) :
      (⟨d.splice front.length (front.length + 1) [t] old new, ups⟩ : Node).isOneOf
        Java.classLike = true := hclass
  rw [Java.enclosingClassBody?, hlifted, if_neg Bool.false_ne_true, ancestor?, ancestors, habove,
    regrowAbove, upward, regrowAbove, upward, hskip (hgrown _), htake (hgrownClass _ _)]
  exact childBy?_splice hchild rfl

/-- The names that some members of a type introduce. -/
def membersOf (ws : List Wording) : List String :=
  (ws.filter fun w => w.kind.isNamed && !w.kind.isComment).flatMap memberOf

theorem membersOf_append (ws ws' : List Wording) :
    membersOf (ws ++ ws') = membersOf ws ++ membersOf ws' := by
  rw [membersOf, List.filter_append, List.flatMap_append]
  rfl

variable {c d d' q u v : String} {declaration : Tree} {name : String}

/-- The type around the method has one more name, that of the new method. -/
theorem takenNames_regrow {p : Tree} {front back : List Tree} {above : List (Tree × Nat)}
    (habove : method.above = (p, front.length) :: above)
    (hchildren : p.children = front ++ method.tree :: back)
    (hfits : p.fits (c ++ d ++ (q ++ u)) = true)
    (hbody : Java.enclosingClassBody? method = some ⟨p, above⟩)
    (hmethod : method.kind ∈ Java.callableKinds) (hkind : lifted.kind = method.kind)
    (hname : (lifted.wording (c ++ d' ++ (q ++ (v ++ u)))).textBy? .name =
      (method.tree.wording (c ++ d ++ (q ++ u))).textBy? .name)
    (hstart : method.start ≤ c.utf8ByteSize)
    (hstop : (c ++ d).utf8ByteSize + q.utf8ByteSize = method.stop)
    (hlifted : lifted.stop = (c ++ d').utf8ByteSize + q.utf8ByteSize)
    (hdeclaration : declaration.kind = .methodDeclaration)
    (hdeclared : (declaration.wording (c ++ d' ++ (q ++ (v ++ u)))).textBy? .name = some name) :
    (takenNames ⟨lifted, regrowAbove method.stop (lifted.stop + v.utf8ByteSize) lifted [declaration]
      method.above⟩ (c ++ d' ++ (q ++ (v ++ u)))).Perm
        (name :: takenNames method (c ++ d ++ (q ++ u))) := by
  have hclass := isOneOf_classLike hmethod
  have hold : method.stop = (c ++ (d ++ q)).utf8ByteSize := by
    rw [← hstop]
    simp only [String.utf8ByteSize_append]
    omega
  have hnew : lifted.stop + v.utf8ByteSize = (c ++ (d' ++ q ++ v)).utf8ByteSize := by
    rw [hlifted]
    simp only [String.utf8ByteSize_append]
    omega
  have hsource : c ++ d ++ (q ++ u) = c ++ (d ++ q) ++ (u ++ "") := by
    simp only [String.append_assoc, String.append_empty]
  have hcontent : c ++ d' ++ (q ++ (v ++ u)) = c ++ (d' ++ q ++ v) ++ (u ++ "") := by
    simp only [String.append_assoc, String.append_empty]
  have hend : p.stop ≤ (c ++ (d ++ q)).utf8ByteSize + u.utf8ByteSize := by
    obtain ⟨x, y, hxy, hx⟩ := Text.isBoundary_iff.mp (Tree.fits_iff.mp hfits).2.1
    have hsize := congrArg String.utf8ByteSize hxy
    simp only [String.utf8ByteSize_append] at hsize ⊢
    omega
  have hthis : membersOf [lifted.wording (c ++ d' ++ (q ++ (v ++ u)))] =
      membersOf [method.tree.wording (c ++ d ++ (q ++ u))] := by
    have hkinds : lifted.kind = method.tree.kind := hkind
    have hcallable : method.tree.kind = .methodDeclaration ∨
        method.tree.kind = .constructorDeclaration := by
      simpa [Java.callableKinds, Node.kind] using hmethod
    rcases hcallable with h | h <;>
      simp [membersOf, memberOf, hkinds, h, hname, Kind.isNamed, Kind.isComment]
  have hother : membersOf [declaration.wording (c ++ d' ++ (q ++ (v ++ u)))] = [name] := by
    simp [membersOf, memberOf, hdeclaration, hdeclared, Kind.isNamed, Kind.isComment]
  have hwords : (p.splice front.length (front.length + 1) [lifted, declaration] method.stop
        (lifted.stop + v.utf8ByteSize)).children.map
          (Tree.wording (c ++ d' ++ (q ++ (v ++ u)))) =
      front.map (Tree.wording (c ++ d ++ (q ++ u))) ++
        [lifted, declaration].map (Tree.wording (c ++ d' ++ (q ++ (v ++ u)))) ++
          back.map (Tree.wording (c ++ d ++ (q ++ u))) := by
    rw [hsource] at hfits ⊢
    rw [hcontent, hold, hnew]
    exact map_wording_splice hfits hchildren hstart (Nat.le_of_eq hold.symm) hend
  have hbefore : Java.memberNames ⟨p, above⟩ (c ++ d ++ (q ++ u)) =
      membersOf (front.map (Tree.wording (c ++ d ++ (q ++ u)))) ++
        (membersOf [method.tree.wording (c ++ d ++ (q ++ u))] ++
          membersOf (back.map (Tree.wording (c ++ d ++ (q ++ u))))) := by
    rw [memberNames_eq, ← membersOf_append, ← membersOf_append, Wording.parts,
      Tree.children_wording, hchildren, List.map_append, List.map_cons]
    rfl
  rw [takenNames, takenNames, hbody, enclosingClassBody?_regrow habove hbody hclass hkind,
    Option.map_some, Option.map_some, Option.getD_some, Option.getD_some, hbefore, memberNames_eq,
    Wording.parts, Tree.children_wording, hwords]
  have hpair : [lifted, declaration].map (Tree.wording (c ++ d' ++ (q ++ (v ++ u)))) =
      [lifted.wording (c ++ d' ++ (q ++ (v ++ u)))] ++
        [declaration.wording (c ++ d' ++ (q ++ (v ++ u)))] := rfl
  rw [hpair]
  change (membersOf _).Perm _
  rw [membersOf_append, membersOf_append, membersOf_append, hthis, hother, ← List.append_assoc,
    ← List.append_assoc, @List.append_assoc _ _ [name], List.singleton_append]
  exact List.perm_middle

end Around

end Amend.Extraction
