import Amend.Proofs.EditSet
import Amend.Proofs.Extraction.Next
import Amend.Proofs.Extraction.Reparse

/-!
# Lifting one block

A step of the search finds the method, lifts its next block and writes the source anew.  Where that
source parses to the tree before it with the call in place of the block and the new method behind
the old one, the method is found again, and the blocks behind the call are those behind the block as
long as the variables there are known by the same types.
-/

namespace Amend.Extraction

open Syntax Syntax.Node

/-! ## The text of one step -/

section Text

variable {method : Node} {b : Block} {source c d q u : String}

/-- The pieces that a source and the text after a step consist of: `d` is the block, in place of
which the call stands afterwards, and the method ends with `q`. -/
structure Pieces (method : Node) (source : String) (b : Block) (name content c d q u : String) :
    Prop where
  cut : Cut method b c d q
  source_eq : source = c ++ d ++ (q ++ u)
  content_eq : content = c ++ callText source b name ++
    (q ++ (declarationText method source b name ++ u))

/-- The edits of a step turn the block into the call and put the new method behind the old one. -/
theorem applyTo?_edits (hcut : Cut method b c d q) (name : String)
    (hsource : source = c ++ d ++ (q ++ u)) :
    EditSet.ofList (edits method source b name) source.utf8ByteSize =
        .ok ⟨edits method source b name⟩ ∧
      (EditSet.mk (edits method source b name)).applyTo? source =
        some (c ++ callText source b name ++
          (q ++ (declarationText method source b name ++ u))) := by
  have hstart := hcut.start
  have hstop := hcut.stop
  have hmethod := hcut.methodStop
  have hsize := congrArg String.utf8ByteSize hsource
  simp only [String.utf8ByteSize_append] at hstop hmethod hsize
  refine ⟨?_, ?_⟩
  · have horder : TextEdit.InReadingOrder (edits method source b name)
        (edits method source b name) := by
      refine ⟨?_, fun _ => rfl⟩
      simp only [edits, List.pairwise_cons, List.mem_singleton, forall_eq, List.not_mem_nil,
        false_implies, implies_true, List.Pairwise.nil, and_true, TextEdit.key_le_iff,
        TextEdit.replace, TextEdit.insert]
      omega
    rw [EditSet.ofList_eq_ok_iff horder]
    refine ⟨rfl, ?_, ?_⟩
    · simp only [edits, List.mem_cons, List.not_mem_nil, or_false, forall_eq_or_imp, forall_eq,
        TextEdit.Fits, TextEdit.replace, TextEdit.insert]
      omega
    · simp only [TextEdit.Apart, edits, List.pairwise_cons, List.mem_singleton, forall_eq,
        List.not_mem_nil, false_implies, implies_true, List.Pairwise.nil, and_true,
        TextEdit.replace, TextEdit.insert]
      omega
  · have hrewrites : EditSet.Rewrites 0 (c ++ d ++ (q ++ "" ++ u)) (edits method source b name)
        (c ++ callText source b name ++ (q ++ declarationText method source b name ++ u)) := by
      refine .edit ?_ ?_ (.edit ?_ ?_ (.done _ u))
      · simp only [TextEdit.replace]
        omega
      · simp only [TextEdit.replace]
        omega
      · simp only [TextEdit.replace, TextEdit.insert]
        omega
      · simp [TextEdit.replace, TextEdit.insert]
    have happly := hrewrites.applyTo?_eq (a := "") rfl
    simpa only [String.empty_append, String.append_empty, ← hsource, String.append_assoc]
      using happly

/-- The pieces of a source around a block and behind its method. -/
theorem exists_cut (hfits : method.tree.fits source = true)
    (hfirst : Text.isBoundary source b.start = true) (hlast : Text.isBoundary source b.stop = true)
    (hordered : b.start ≤ b.stop) (hstop : b.stop ≤ method.stop) :
    ∃ c d q u, source = c ++ d ++ (q ++ u) ∧ Cut method b c d q := by
  have hmethod := (Tree.fits_iff.mp hfits).2.1
  obtain ⟨c, rest, rfl, hc⟩ := Text.isBoundary_iff.mp hfirst
  obtain ⟨d, rest, rfl, hd⟩ := Text.exists_append_of_isBoundary hlast (by omega)
  rw [← String.append_assoc] at hmethod
  obtain ⟨q, u, rfl, hq⟩ := Text.exists_append_of_isBoundary hmethod (by
    rw [String.utf8ByteSize_append]
    exact hd ▸ hstop)
  refine ⟨c, d, q, u, by rw [String.append_assoc], ⟨hc, ?_, hq⟩⟩
  rw [String.utf8ByteSize_append, hd]

/-- Statements of a method lie in it in their order. -/
theorem spans_bodyStatements (hfits : method.tree.fits source = true) {i j : Nat} {s t : Node}
    (hs : (Java.bodyStatements method)[i]? = some s)
    (ht : (Java.bodyStatements method)[j]? = some t) (hij : i ≤ j) :
    s.tree.fits source = true ∧ t.tree.fits source = true ∧ method.start ≤ s.start ∧
      s.start ≤ t.stop ∧ t.stop ≤ method.stop := by
  cases hbody : method.childBy? .body with
  | none =>
    rw [Java.bodyStatements, hbody] at hs
    cases hs
  | some body =>
    have hstatements : Java.bodyStatements method = body.parts := by
      rw [Java.bodyStatements, hbody]
      rfl
    rw [hstatements] at hs ht
    obtain ⟨before, behind, hchildren, -, -⟩ := exists_of_childBy? hbody
    obtain ⟨hthis, hbodyStart, hbodyStop⟩ := Tree.fits_of_mem (t := body.tree)
      (Tree.fits_iff.mp hfits).2.2 (by simp [hchildren])
    have hinner := (Tree.fits_iff.mp hthis).2.2
    obtain ⟨front, back, hfront, -, -, hdrop⟩ := exists_of_getElem?_parts hs
    obtain ⟨front', back', hfront', -, -, -⟩ := exists_of_getElem?_parts ht
    obtain ⟨hsfits, hsstart, -⟩ := Tree.fits_of_mem (t := s.tree) hinner (by simp [hfront])
    obtain ⟨htfits, -, htstop⟩ := Tree.fits_of_mem (t := t.tree) hinner (by simp [hfront'])
    have horder : s.tree.start ≤ t.tree.stop := by
      rcases Nat.eq_or_lt_of_le hij with rfl | hlt
      · cases hs.symm.trans ht
        exact Tree.start_le_stop s.tree hsfits
      · have hmem : t ∈ body.parts.drop (i + 1) := by
          refine List.mem_of_getElem? (i := j - (i + 1)) ?_
          rw [List.getElem?_drop, Nat.add_sub_cancel' hlt, ht]
        have htree := List.mem_map_of_mem (f := (·.tree)) (hdrop ▸ hmem)
        rw [map_tree_filter_nodesFrom] at htree
        rw [hfront] at hinner
        have hstart := (Tree.fits_of_mem (Tree.fitAll_around hinner).2.2
          (List.mem_of_mem_filter htree)).2.1
        have hsorder := Tree.start_le_stop s.tree hsfits
        have htorder := Tree.start_le_stop t.tree htfits
        omega
    exact ⟨hsfits, htfits, Nat.le_trans hbodyStart hsstart, horder,
      Nat.le_trans htstop hbodyStop⟩

/-- The pieces of a source around a block that was found and behind its method. -/
theorem exists_cut_of_mem (hfits : method.tree.fits source = true) {settings : BlockSettings}
    {resume : Nat} (h : b ∈ findBlocksFrom method source settings resume) :
    ∃ c d q u, source = c ++ d ++ (q ++ u) ∧ Cut method b c d q ∧ method.start ≤ b.start := by
  obtain ⟨first, last, hspans⟩ := MethodFlow.exists_spans_of_mem h
  have hstatement {i : Nat} {a : Node × StatementFacts}
      (ha : (MethodFlow.ofMethod method source).statements[i]? = some a) :
      (Java.bodyStatements method)[i]? = some a.1 := by
    rw [MethodFlow.ofMethod, List.getElem?_map] at ha
    obtain ⟨s, hs, rfl⟩ := Option.map_eq_some_iff.mp ha
    exact hs
  obtain ⟨hfirst, hlast, hstart, horder, hstop⟩ := spans_bodyStatements hfits
    (hstatement hspans.firstAt) (hstatement hspans.lastAt) hspans.ordered
  obtain ⟨c, d, q, u, hsource, hcut⟩ := exists_cut (b := b) hfits
    (hspans.start ▸ (Tree.fits_iff.mp hfirst).1) (hspans.stop ▸ (Tree.fits_iff.mp hlast).2.1)
    (by rw [hspans.start, hspans.stop]; exact horder) (hspans.stop ▸ hstop)
  exact ⟨c, d, q, u, hsource, hcut, hspans.start ▸ hstart⟩

end Text

/-! ## What is assumed of the parser -/

/-- A tree over a source as the grammar has it: its spans fit the source, and the body of a method
or constructor is a block. -/
structure Grammatical (source : String) (tree : Tree) : Prop where
  fits : tree.fits source = true
  bodies : ∀ m ∈ Java.callables (.root tree), ∀ body, m.childBy? .body = some body →
    body.kind ∈ bodyKinds

theorem grammatical_iff {source : String} {tree : Tree} : Grammatical source tree ↔
    tree.fits source = true ∧ ∀ m ∈ Java.callables (.root tree), ∀ body ∈ m.childBy? .body,
      body.kind ∈ bodyKinds :=
  ⟨fun h => ⟨h.fits, fun m hm body hbody => h.bodies m hm body hbody⟩,
    fun h => ⟨h.1, fun m hm body hbody => h.2 m hm body hbody⟩⟩

instance {source : String} {tree : Tree} : Decidable (Grammatical source tree) :=
  decidable_of_iff' _ grammatical_iff

/-- The trees of a call: one statement, and behind the call of a block that returns without a value
a `return`. -/
def ReadsAsCall : BlockReturn → List Tree → Prop
  | .exit, call => ∃ t back, call.filter isPart = [t, back] ∧ MethodFlow.isBareReturn back = true
  | _, call => ∃ t, call.filter isPart = [t]

/-- The source after a step parses to the tree before it, with the statements of the block exchanged
for those of the call, and the new method put in behind the old one. -/
def Reparses (parse : Parser) (method : Node) (source : String) (b : Block)
    (name content : String) : Prop :=
  ∃ (call : List Tree) (declaration lifted : Tree),
    ReadsAsCall b.returns call ∧ declaration.kind = .methodDeclaration ∧
      Java.declaredName? (.root declaration) content = some name ∧
      liftedMethod method b call (callText source b name).utf8ByteSize = some lifted ∧
      parse.verify content = .ok (regrow method.stop
        (lifted.stop + (declarationText method source b name).utf8ByteSize) lifted [declaration]
        method.above)

/-- The variables in the statements behind a block are known by the same types after the step. -/
def KeepsTypes (method : Node) (source : String) (b : Block) (method' : Node)
    (content : String) : Prop :=
  ∀ s ∈ (Java.bodyStatements method).drop (b.lastIndex + 1),
    (MethodScope.ofMethod method source).AgreeOn (MethodScope.ofMethod method' content) source s

instance {method method' : Node} {source content : String} {b : Block} :
    Decidable (KeepsTypes method source b method' content) :=
  inferInstanceAs (Decidable (∀ s ∈ (Java.bodyStatements method).drop (b.lastIndex + 1),
    ∀ n ∈ s.preorder, Java.isVariableName n = true →
      (MethodScope.ofMethod method' content).types.lookup (n.text source) =
        (MethodScope.ofMethod method source).types.lookup (n.text source)))

/-! ## One step -/

section Step

variable (parse : Parser) (start : Nat) (settings : BlockSettings)

/-- The method that starts at the offset in a source. -/
def FindsMethod (source : String) (method : Node) : Prop :=
  ∃ tree, parse.verify source = .ok tree ∧
    (Java.callables (.root tree)).find? (·.start = start) = some method

/-- The step from statement `resume` on lifts a block of the method. -/
structure IsStep (source : String) (resume : Nat) (method : Node) (b : Block)
    (e : ExtractedMethod) (content : String) : Prop where
  finds : FindsMethod parse start source method
  block : (findBlocksFrom method source settings resume).head? = some b
  next : next? parse source start settings resume = .ok (some (content, e, b.firstIndex))

variable {parse start settings} {source : String} {method : Node} {resume : Nat} {b : Block}

/-- Whether a tree is a method or constructor that starts at the offset. -/
def startsMethod (start : Nat) (t : Tree) : Bool :=
  Java.callableKinds.contains t.kind && t.start = start

theorem find?_callables (root : Node) : (Java.callables root).find? (·.start = start) =
    root.preorder.find? (startsMethod start ·.tree) := by
  rw [Java.callables, descendants, List.find?_filter]
  have hthis (n : Node) : startsMethod start n.tree =
      (n.isOneOf Java.callableKinds && decide (n.start = start)) := rfl
  simp only [hthis, Bool.decide_and, Bool.decide_eq_true]

/-- The method found is a tree that leads there, and fits. -/
theorem FindsMethod.leads (h : FindsMethod parse start source method)
    (hgrammar : ∀ source tree, parse.verify source = .ok tree → Grammatical source tree) :
    startsMethod start method.tree = true ∧ method.tree.fits source = true ∧
      ∃ tree, parse.verify source = .ok tree ∧ method ∈ Java.callables (.root tree) ∧
        Leads (startsMethod start) tree method.tree method.above := by
  obtain ⟨tree, htree, hfind⟩ := h
  have hmem := List.mem_of_find?_eq_some hfind
  rw [find?_callables] at hfind
  obtain ⟨hleads, hstarts⟩ := leads_of_visitTree .root hfind
  exact ⟨hstarts, (hleads.fits (hgrammar source tree htree).fits).1, tree, htree, hmem, hleads⟩

theorem FindsMethod.unique {method' : Node} (h : FindsMethod parse start source method)
    (h' : FindsMethod parse start source method') : method = method' := by
  obtain ⟨tree, htree, hfind⟩ := h
  obtain ⟨tree', htree', hfind'⟩ := h'
  cases htree.symm.trans htree'
  exact Option.some.inj (hfind.symm.trans hfind')

theorem IsStep.unique {method' : Node} {b' : Block} {e e' : ExtractedMethod}
    {content content' : String} (h : IsStep parse start settings source resume method b e content)
    (h' : IsStep parse start settings source resume method' b' e' content') :
    method = method' ∧ b = b' ∧ e = e' ∧ content = content' := by
  obtain rfl := h.finds.unique h'.finds
  have hnext := h.next.symm.trans h'.next
  simp only [Except.ok.injEq, Option.some.injEq, Prod.mk.injEq] at hnext
  exact ⟨rfl, Option.some.inj (h.block.symm.trans h'.block), hnext.2.1, hnext.1⟩

theorem next?_eq_none (hmethod : FindsMethod parse start source method)
    (hblocks : findBlocksFrom method source settings resume = []) :
    next? parse source start settings resume = .ok none := by
  obtain ⟨tree, htree, hfind⟩ := hmethod
  simp only [next?, htree, pure_bind, hfind, hblocks, List.head?_nil]
  rfl

/-- What a step comes to is put together from the pieces of its source. -/
theorem isStep_of_pieces (hmethod : FindsMethod parse start source method)
    (hhead : (findBlocksFrom method source settings resume).head? = some b)
    {name content c d q u : String}
    (hname : methodName (Text.sliceD source b.start b.stop) (takenNames method source) = name)
    (hpieces : Pieces method source b name content c d q u) :
    IsStep parse start settings source resume method b
      ⟨name, b.firstLine, b.lastLine, b.parameters, b.returns.javaType⟩ content := by
  obtain ⟨hset, happly⟩ := applyTo?_edits hpieces.cut name hpieces.source_eq
  refine ⟨hmethod, hhead, ?_⟩
  obtain ⟨tree, htree, hfind⟩ := hmethod
  simp only [next?, htree, pure_bind, hfind, hhead, hname, hset, happly, hpieces.content_eq]
  rfl

/-- The search never fails to lift the block that it found. -/
theorem exists_step (hgrammar : ∀ source tree, parse.verify source = .ok tree →
      Grammatical source tree)
    (hmethod : FindsMethod parse start source method) {rest : List Block}
    (hblocks : findBlocksFrom method source settings resume = b :: rest) :
    ∃ e content c d q u, IsStep parse start settings source resume method b e content ∧
      Pieces method source b e.methodName content c d q u ∧
      e.methodName = methodName (Text.sliceD source b.start b.stop) (takenNames method source) ∧
      e.parameters = b.parameters ∧ e.returnType = b.returns.javaType := by
  obtain ⟨-, hfits, -⟩ := hmethod.leads hgrammar
  have hmem : b ∈ findBlocksFrom method source settings resume := by
    rw [hblocks]
    exact List.mem_cons_self
  obtain ⟨c, d, q, u, hsource, hcut, -⟩ := exists_cut_of_mem hfits hmem
  have hhead : (findBlocksFrom method source settings resume).head? = some b := by
    rw [hblocks, List.head?_cons]
  have hpieces (name : String) : Pieces method source b name _ c d q u := ⟨hcut, hsource, rfl⟩
  exact ⟨_, _, c, d, q, u, isStep_of_pieces hmethod hhead rfl (hpieces _), hpieces _, rfl, rfl, rfl⟩

/-- The number of statements of a call. -/
def BlockReturn.callSize : BlockReturn → Nat
  | .exit => 2
  | _ => 1

theorem BlockReturn.callSize_eq_one {returns : BlockReturn} (h : returns ≠ .exit) :
    returns.callSize = 1 := by
  cases returns with
  | exit => exact absurd rfl h
  | nothing | value _ | «variable» _ _ => rfl

theorem BlockReturn.callSize_le (returns : BlockReturn) : returns.callSize ≤ 2 := by
  cases returns <;> simp [callSize]

theorem ReadsAsCall.length_eq {returns : BlockReturn} {call : List Tree}
    (h : ReadsAsCall returns call) : (call.filter isPart).length = returns.callSize := by
  cases returns with
  | exit =>
    obtain ⟨t, back, hparts, -⟩ := h
    rw [hparts]
    rfl
  | nothing | value _ | «variable» _ _ =>
    obtain ⟨t, hparts⟩ := h
    rw [hparts]
    rfl

/-- What the next search meets whatever the variables are known by: the method ends where the call
has put its end, behind the call there are as many statements as behind the lifted block, returns
without a value where these were, and the call of a block that returned without a value ends with
such a `return`. -/
structure Continues (method : Node) (source : String) (b : Block) (name : String) (method' : Node)
    (content : String) : Prop where
  stop : method'.stop + b.stop = method.stop + (b.start + (callText source b name).utf8ByteSize)
  behind : ((Java.bodyStatements method').drop (b.firstIndex + b.returns.callSize)).map
      (MethodFlow.isBareReturn ·.tree) =
    ((Java.bodyStatements method).drop (b.lastIndex + 1)).map (MethodFlow.isBareReturn ·.tree)
  back : b.returns = .exit → ∃ s rest,
    (MethodFlow.ofMethod method' content).statements.drop (b.firstIndex + 1) =
      (s, { hasReturn := true }) :: rest ∧ MethodFlow.isBareReturn s.tree = true

/-- What the next search finds: behind the call the blocks are those behind the lifted block, except
where single statements are blocks and the block returned without a value, for then the `return`
behind the call is the next block; and the new method's name is taken. -/
structure Resumes (settings : BlockSettings) (source : String) (method : Node) (b : Block)
    (name content : String) (method' : Node) : Prop where
  blocks : b.returns ≠ .exit ∨ 2 ≤ settings.minSize → List.Forall₂
    (MethodFlow.SameBlock (.ofMethod method source) (.ofMethod method' content))
    (findBlocksFrom method source settings (b.lastIndex + 1))
    (findBlocksFrom method' content settings (b.firstIndex + 1))
  names : DeclaredInClass method → DeclaredInClass method' ∧
    (takenNames method' content).Perm (name :: takenNames method source)

/-- The `return` behind the call of a block that returned without a value. -/
theorem LiftedAt.exists_return {call : List Tree} {size : Nat} {lifted : Tree}
    {before behind front back : List Tree} {body called : Tree} {first last : Node}
    (h : LiftedAt method b call size lifted before behind front back body called first last)
    (hcall : ReadsAsCall b.returns call) (hexit : b.returns = .exit) (above' : List (Tree × Nat))
    (content : String) :
    ∃ s rest, (MethodFlow.ofMethod ⟨lifted, above'⟩ content).statements.drop (b.firstIndex + 1) =
      (s, { hasReturn := true }) :: rest ∧ MethodFlow.isBareReturn s.tree = true := by
  rw [hexit] at hcall
  obtain ⟨t, r, hparts, hr⟩ := hcall
  have htrees : ((nodesFrom called ((lifted, before.length) :: above') front.length call).filter
      (isPart ·.tree)).map (·.tree) = [t, r] := map_tree_filter_nodesFrom.trans hparts
  rw [MethodFlow.ofMethod, ← List.map_drop, ← List.drop_drop, h.drop_bodyStatements]
  generalize (nodesFrom called ((lifted, before.length) :: above') front.length call).filter
    (isPart ·.tree) = calls at htrees
  obtain ⟨n, s, rfl⟩ : ∃ n s, calls = [n, s] :=
    List.length_eq_two.mp (by simpa using congrArg List.length htrees)
  obtain ⟨-, rfl⟩ : n.tree = t ∧ s.tree = r := by simpa using htrees
  rw [List.cons_append, List.drop_one, List.tail_cons, List.cons_append, List.map_cons,
    MethodFlow.facts_of_isBareReturn content _ hr]
  exact ⟨s, _, rfl, hr⟩

/-- The statements behind the call are those behind the block. -/
theorem LiftedAt.map_isBareReturn {call : List Tree} {size : Nat} {lifted : Tree}
    {before behind front back : List Tree} {body called : Tree} {first last : Node}
    (h : LiftedAt method b call size lifted before behind front back body called first last)
    (hcall : ReadsAsCall b.returns call) (above' : List (Tree × Nat)) :
    ((Java.bodyStatements ⟨lifted, above'⟩).drop (b.firstIndex + b.returns.callSize)).map
        (MethodFlow.isBareReturn ·.tree) =
      ((Java.bodyStatements method).drop (b.lastIndex + 1)).map
        (MethodFlow.isBareReturn ·.tree) := by
  obtain ⟨i, hlater⟩ := h.later
  have htrees (ns : List Node) : ns.map (MethodFlow.isBareReturn ·.tree) =
      (ns.map (·.tree)).map MethodFlow.isBareReturn := by
    rw [List.map_map]
    rfl
  have hparts : isPart ∘ Tree.moved b.stop (b.start + size) = isPart :=
    funext fun t => by rw [Function.comp_apply, isPart, isPart, Tree.kind_moved]
  have hreturns : MethodFlow.isBareReturn ∘ Tree.moved b.stop (b.start + size) =
      MethodFlow.isBareReturn := funext fun t => MethodFlow.isBareReturn_moved t _ _
  rw [← hcall.length_eq, h.drop_behind_call, hlater, htrees, htrees, map_tree_filter_nodesFrom,
    map_tree_filter_nodesFrom, List.filter_map, List.map_map, hparts, hreturns]

/-- Behind the call the blocks are those behind the lifted block. -/
theorem blocks_behind_call {p q u x v : String} {F F' : MethodFlow} {call : List Tree}
    (hfollows : MethodFlow.Follows p q u x v F F' (b.lastIndex + 1)
      (b.firstIndex + (call.filter isPart).length))
    (hcall : ReadsAsCall b.returns call)
    (hback : b.returns = .exit → ∃ s rest, F'.statements.drop (b.firstIndex + 1) =
      (s, { hasReturn := true }) :: rest ∧ MethodFlow.isBareReturn s.tree = true)
    (h : b.returns ≠ .exit ∨ 2 ≤ settings.minSize) :
    List.Forall₂ (MethodFlow.SameBlock F F') (F.blocksFrom settings (b.lastIndex + 1))
      (F'.blocksFrom settings (b.firstIndex + 1)) := by
  have hblocks := hfollows.blocksFrom settings
  rw [hcall.length_eq] at hblocks
  by_cases hexit : b.returns = .exit
  · obtain ⟨s, rest, hdrop, -⟩ := hback hexit
    rw [hexit] at hblocks
    rw [MethodFlow.blocksFrom_behind_return hdrop rfl (h.resolve_left (not_not_intro hexit))]
    exact hblocks
  · rw [BlockReturn.callSize_eq_one hexit] at hblocks
    exact hblocks

/-- The new method's name is taken afterwards. -/
theorem LiftedAt.names {c d q u name content : String} {call : List Tree}
    {lifted declaration tree : Tree} {before behind front back : List Tree} {body called : Tree}
    {first last : Node} (hpieces : Pieces method source b name content c d q u)
    (h : LiftedAt method b call (callText source b name).utf8ByteSize lifted before behind front
      back body called first last)
    (haround : Around method b c d q u body back) (hroot : tree.fits source = true)
    (hleads : Leads (startsMethod start) tree method.tree method.above)
    (hstarts : startsMethod start method.tree = true)
    (hdeclaration : declaration.kind = .methodDeclaration)
    (hdeclared : Java.declaredName? (.root declaration) content = some name)
    (hdirect : DeclaredInClass method) :
    DeclaredInClass ⟨lifted, regrowAbove method.stop (lifted.stop +
        (declarationText method source b name).utf8ByteSize) lifted [declaration] method.above⟩ ∧
      (takenNames ⟨lifted, regrowAbove method.stop (lifted.stop +
          (declarationText method source b name).utf8ByteSize) lifted [declaration] method.above⟩
        content).Perm (name :: takenNames method source) := by
  obtain ⟨hcut, rfl, rfl⟩ := hpieces
  obtain ⟨holder, hholder, hparent⟩ := hdirect
  have hkind : lifted.kind = method.tree.kind := by rw [h.lifted_eq, Tree.kind_splice]
  have hcallable : method.tree.kind ∈ Java.callableKinds := by
    simpa [startsMethod] using (Bool.and_eq_true_iff.mp hstarts).1
  obtain ⟨hfits, hfitsAbove⟩ := hleads.fits hroot
  have hname := h.textBy? (v := declarationText method (c ++ d ++ (q ++ u)) b name ++ u) hcut hfits
    haround (f := .name) (by decide)
  have hstop : lifted.stop =
      (c ++ callText (c ++ d ++ (q ++ u)) b name).utf8ByteSize + q.utf8ByteSize :=
    h.stop_eq hcut
  have hdeclared' : (declaration.wording (c ++ callText (c ++ d ++ (q ++ u)) b name ++
      (q ++ (declarationText method (c ++ d ++ (q ++ u)) b name ++ u)))).textBy? .name =
        some name := (textBy?_wording (n := .root declaration)).trans hdeclared
  have hstart : method.start ≤ c.utf8ByteSize := by
    have hchildren := (Tree.fits_iff.mp hfits).2.2
    have hbody := (Tree.fits_of_mem (t := body) hchildren (by simp [h.children])).2.1
    exact Nat.le_trans hbody haround.start_le
  cases habove : method.above with
  | nil =>
    rw [parent?, habove] at hparent
    cases hparent
  | cons a above =>
    obtain ⟨p, i⟩ := a
    rw [parent?, habove] at hparent
    cases hparent
    rw [habove] at hleads hfitsAbove
    cases hleads with
    | child _ _ _ hchild _ =>
      obtain ⟨front, back, hchildren, rfl⟩ := exists_append_of_getElem? hchild
      have hclass : method.isOneOf Java.classLike = false := isOneOf_classLike hcallable
      have htaken := takenNames_regrow habove hchildren (hfitsAbove _ List.mem_cons_self) hholder
        hcallable hkind hname hstart hcut.methodStop hstop hdeclaration hdeclared'
      rw [← habove]
      refine ⟨⟨_, enclosingClassBody?_regrow habove hholder hclass hkind, ?_⟩, htaken⟩
      rw [habove]
      rfl

/-- After a step whose result parses as assumed the search goes on behind the call, and as it would
have where the variables behind the block are known by the same types. -/
theorem exists_resumes
    (hgrammar : ∀ source tree, parse.verify source = .ok tree → Grammatical source tree)
    (hmethod : FindsMethod parse start source method) {rest : List Block}
    (hblocks : findBlocksFrom method source settings resume = b :: rest)
    {name content c d q u : String} (hpieces : Pieces method source b name content c d q u)
    (hreparses : Reparses parse method source b name content) :
    ∃ method', FindsMethod parse start content method' ∧
      Continues method source b name method' content ∧
      (KeepsTypes method source b method' content →
        Resumes settings source method b name content method') := by
  obtain ⟨call, declaration, lifted, hcall, hdeclaration, hdeclared, hlifted, htree'⟩ := hreparses
  obtain ⟨hstarts, hfits, tree, htree, hmem, hleads⟩ := hmethod.leads hgrammar
  obtain ⟨before, behind, front, back, body, called, first, last, hat⟩ := exists_liftedAt hlifted
  obtain ⟨-, -, first', last', hspans⟩ := MethodFlow.blocksFrom_cons hblocks
  have hstatement {i : Nat} {a : Node × StatementFacts} {s : Node}
      (ha : (MethodFlow.ofMethod method source).statements[i]? = some a)
      (hs : (Java.bodyStatements method)[i]? = some s) : s = a.1 := by
    rw [MethodFlow.ofMethod, List.getElem?_map, hs] at ha
    cases ha
    rfl
  have hstart : b.start = first.start := by
    rw [hspans.start, ← hstatement hspans.firstAt hat.firstAt]
  have hstop : b.stop = last.stop := by
    rw [hspans.stop, ← hstatement hspans.lastAt hat.lastAt]
  have haround := hat.around hpieces.cut (hpieces.source_eq ▸ hfits) hstart hstop
  have hbody := (hgrammar _ tree htree).bodies method hmem _ hat.isBody
  have hback (hexit : b.returns = .exit) := hat.exists_return hcall hexit (regrowAbove method.stop
    (lifted.stop + (declarationText method source b name).utf8ByteSize) lifted [declaration]
    method.above) content
  refine ⟨⟨lifted, regrowAbove method.stop (lifted.stop +
    (declarationText method source b name).utf8ByteSize) lifted [declaration] method.above⟩,
    ⟨_, htree', ?_⟩, ⟨?_, hat.map_isBareReturn hcall _, hback⟩, fun hscope => ?_⟩
  · obtain ⟨tree₀, htree₀, hfind⟩ := hmethod
    cases htree.symm.trans htree₀
    have hkind : lifted.kind = method.tree.kind := by rw [hat.lifted_eq, Tree.kind_splice]
    have hsame : lifted.start = method.tree.start := by rw [hat.lifted_eq, Tree.start_splice]
    rw [find?_callables] at hfind ⊢
    refine find?_preorder_regrow hfind (fun t t' hk hs => ?_) hkind hsame
    rw [startsMethod, startsMethod, hk, hs]
  · obtain ⟨hc, hd, hmethodStop⟩ := hpieces.cut
    rw [Node.stop, hat.stop_eq hpieces.cut, ← hc, ← hd, ← hmethodStop, String.utf8ByteSize_append,
      String.utf8ByteSize_append]
    omega
  · refine ⟨?_, hat.names hpieces haround (hgrammar _ tree htree).fits hleads hstarts
      hdeclaration hdeclared⟩
    obtain ⟨hcut, rfl, rfl⟩ := hpieces
    exact blocks_behind_call (hat.follows hcut hfits haround hbody kinds_regrowAbove hscope) hcall
      hback

end Step

end Amend.Extraction
