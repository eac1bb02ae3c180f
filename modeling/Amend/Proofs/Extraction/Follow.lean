import Amend.Extraction.Block
import Amend.Proofs.Extraction.Names
import Amend.Proofs.Syntax.Alike

/-!
# Flows that go on alike

The search for blocks from a statement on reads the facts of that statement and of those behind it,
and nothing else of the method.  So two methods whose statements say the same from some place on,
with the same types for the names in them, have the same blocks from there on.
-/

namespace Amend.Extraction

open Syntax Syntax.Node

/-! ## The facts of statements that are alike -/

theorem MethodScope.has_eq_isSome (scope : MethodScope) (x : String) :
    scope.has x = (scope.types.lookup x).isSome := by
  rw [has]
  induction scope.types with
  | nil => rfl
  | cons a types ih =>
    obtain ⟨y, t⟩ := a
    by_cases hxy : x = y
    · simp [hxy]
    · have hbeq : (x == y) = false := beq_false_of_ne hxy
      have hne : decide (y = x) = false := decide_eq_false (Ne.symm hxy)
      rw [List.any_cons, ih, List.lookup_cons, hbeq, hne, Bool.false_or]

/-- Two scopes that know the same of every variable named in a statement. -/
def MethodScope.AgreeOn (scope scope' : MethodScope) (source : String) (s : Node) : Prop :=
  ∀ n ∈ s.preorder, Java.isVariableName n = true →
    scope'.types.lookup (n.text source) = scope.types.lookup (n.text source)

namespace StatementFacts

variable {source source' : String} {scope scope' : MethodScope} {s s' m m' : Node}

/-- Above a statement the way up never meets the statement itself. -/
theorem jumpPasses_above {above : List (Tree × Nat)} (h : above.length ≤ s.above.length) :
    jumpPasses s (upward above) = above.all fun a => !jumpTargets.contains a.1.kind := by
  induction above with
  | nil => rfl
  | cons a above ih =>
    have hlt : above.length < s.above.length := h
    have hsame : (⟨a.1, above⟩ : Node).same s = false := by
      rw [same, beq_eq_false_iff_ne]
      intro heq
      have hlength := congrArg List.length heq
      rw [path, path, List.length_map, List.length_map] at hlength
      exact Nat.ne_of_lt hlt hlength
    have hkind : (⟨a.1, above⟩ : Node).isOneOf jumpTargets = jumpTargets.contains a.1.kind := rfl
    rw [upward, jumpPasses, hsame, ih (Nat.le_of_lt hlt), List.all_cons, hkind]
    cases jumpTargets.contains a.1.kind <;> rfl

/-- Whether a jump passes is told from the kinds on its way up and from how far up the statement
is. -/
theorem jumpPasses_congr {way way' : List (Tree × Nat)} (hlength : way.length = way'.length)
    (hkinds : (way ++ s.above).map (·.1.kind) = (way' ++ s'.above).map (·.1.kind)) :
    jumpPasses s (upward (way ++ s.above)) = jumpPasses s' (upward (way' ++ s'.above)) := by
  induction way generalizing way' with
  | nil =>
    obtain rfl : way' = [] := List.length_eq_zero_iff.mp hlength.symm
    rw [List.nil_append, List.nil_append] at hkinds ⊢
    rw [jumpPasses_above (Nat.le_refl _), jumpPasses_above (Nat.le_refl _)]
    have hall := congrArg (List.all · fun k => !jumpTargets.contains k) hkinds
    simpa only [List.all_map, Function.comp_def] using hall
  | cons a way ih =>
    cases way' with
    | nil => cases hlength
    | cons a' way' =>
      have hrest : way.length = way'.length := Nat.succ.inj hlength
      rw [List.cons_append, List.cons_append, List.map_cons, List.map_cons, List.cons.injEq]
        at hkinds
      have hsame (way : List (Tree × Nat)) (t : Tree) (s : Node)
          (hne : way ≠ []) : (⟨t, way ++ s.above⟩ : Node).same s = false := by
        rw [same, beq_eq_false_iff_ne]
        intro heq
        have hlong := congrArg List.length heq
        rw [path, path, List.length_map, List.length_map, List.length_append] at hlong
        exact hne (List.length_eq_zero_iff.mp (by omega))
      rw [List.cons_append, List.cons_append, upward, upward, jumpPasses, jumpPasses,
        ih hrest hkinds.2]
      rcases List.eq_nil_or_concat way with rfl | hway
      · obtain rfl : way' = [] := List.length_eq_zero_iff.mp hrest.symm
        simp [same, path, isOneOf, Node.kind, hkinds.1]
      · have hne : way ≠ [] := by
          rintro rfl
          obtain ⟨_, _, h⟩ := hway
          simp at h
        have hne' : way' ≠ [] := by
          rintro rfl
          exact hne (List.length_eq_zero_iff.mp hrest)
        rw [hsame way a.1 s hne, hsame way' a'.1 s' hne']
        simp [isOneOf, Node.kind, hkinds.1]

/-- The same jump leaves the statement. -/
theorem jumpLeaves_congr (h : Alike source source' m m') (hs : Alike source source' s s')
    (hm : ∃ way, m.above = way ++ s.above) (hm' : ∃ way, m'.above = way ++ s'.above) :
    jumpLeaves m s = jumpLeaves m' s' := by
  obtain ⟨way, hway⟩ := hm
  obtain ⟨way', hway'⟩ := hm'
  have hparts : m.parts.any (·.kind = .identifier) = m'.parts.any (·.kind = .identifier) := by
    have hread (source : String) (n : Node) : n.parts.any (·.kind = .identifier) =
        (n.tree.wording source).parts.any (·.kind = .identifier) := by
      rw [← map_wording_parts, List.any_map]
      congr 1
      funext c
      rw [Function.comp_apply, Tree.kind_wording]
      rfl
    rw [hread source, hread source', h.words]
  have hkinds := h.stands.kinds
  have hlength := congrArg List.length hkinds
  have hbase := congrArg List.length hs.stands.kinds
  rw [hway, hway'] at hkinds
  rw [hway, hway', List.length_map, List.length_map, List.length_append, List.length_append]
    at hlength
  rw [List.length_map, List.length_map] at hbase
  rw [jumpLeaves, jumpLeaves, hparts, ancestors, ancestors, hway, hway',
    jumpPasses_congr (by omega) hkinds]

theorem addIdentifier_congr (h : Alike source source' m m') (f : StatementFacts)
    (hscope : Java.isVariableName m = true →
      scope'.types.lookup (m.text source) = scope.types.lookup (m.text source)) :
    addIdentifier source scope f m = addIdentifier source' scope' f m' := by
  by_cases hvariable : Java.isVariableName m = true
  · have hhas : scope.has (m.text source) = scope'.has (m.text source) := by
      rw [MethodScope.has_eq_isSome, MethodScope.has_eq_isSome, hscope hvariable]
    simp only [addIdentifier, ← h.text, ← h.isVariableName, ← h.isDeclarationSite, ← h.access, hhas]
  · have hother : Java.isVariableName m' = false := by
      rw [← h.isVariableName, Bool.eq_false_iff]
      exact hvariable
    simp only [addIdentifier, hvariable, hother, Bool.not_false, Bool.or_true, if_true]

/-- Statements that are alike have the same facts where the scopes know the same of their names. -/
theorem ofStatement_congr (h : Alike source source' s s')
    (hscope : scope.AgreeOn scope' source s) :
    ofStatement s source scope = ofStatement s' source' scope' := by
  have htop : (s.childrenBy .declarator).filterMap (Java.declaredName? · source) =
      (s'.childrenBy .declarator).filterMap (Java.declaredName? · source') := by
    have hread (source : String) (n : Node) :
        (n.childrenBy .declarator).filterMap (Java.declaredName? · source) =
          ((n.tree.wording source).children.filter (·.field = some .declarator)).filterMap
            (·.textBy? .name) := by
      rw [← map_wording_childrenBy, List.filterMap_map]
      congr 1
      funext c
      rw [Function.comp_apply, textBy?_wording]
      rfl
    rw [hread source, hread source', h.words]
  have hflow := h.visit fun k => !ownBodies.contains k
  have hreturn : (s.visit fun n => !n.isOneOf ownBodies).any (·.kind = .returnStatement) =
      (s'.visit fun n => !n.isOneOf ownBodies).any (·.kind = .returnStatement) :=
    any_congr hflow fun m m' _ _ hm => by rw [hm.kind]
  have hjump : (s.visit fun n => !n.isOneOf ownBodies).any (fun n =>
        n.isOneOf [.breakStatement, .continueStatement] && jumpLeaves n s) =
      (s'.visit fun n => !n.isOneOf ownBodies).any fun n =>
        n.isOneOf [.breakStatement, .continueStatement] && jumpLeaves n s' :=
    any_congr hflow fun m m' hmem hmem' hm => by
      rw [isOneOf, isOneOf, hm.kind, jumpLeaves_congr hm h (above_of_mem_visitTree hmem)
        (above_of_mem_visitTree hmem')]
  have hnames : List.Forall₂ (Alike source source') (s.preorder.filter (·.kind = .identifier))
      (s'.preorder.filter (·.kind = .identifier)) :=
    filter_congr (h.visit fun _ => true) fun m m' hm => by rw [hm.kind]
  rw [ofStatement, ofStatement, hreturn, hjump, htop, h.kind]
  refine foldl_congr hnames (fun f m m' hmem hm => addIdentifier_congr hm f ?_) _
  exact hscope m (List.mem_filter.mp hmem).1

end StatementFacts

/-! ## What is read of alike statements besides -/

section Alike

variable {source source' : String} {s s' : Node}

/-- The same names are referred to. -/
theorem variableReferences_congr (h : Alike source source' s s') (x : String) :
    (Java.variableReferences s source x).isEmpty =
      (Java.variableReferences s' source' x).isEmpty := by
  have hoccurrences : List.Forall₂ (Alike source source') (Java.variableOccurrences s source x)
      (Java.variableOccurrences s' source' x) :=
    filter_congr (h.visit fun _ => true) fun m m' hm => by
      rw [hm.kind, hm.text, hm.isVariableName]
  have hreferences : List.Forall₂ (Alike source source') (Java.variableReferences s source x)
      (Java.variableReferences s' source' x) :=
    filter_congr hoccurrences fun m m' hm => by rw [hm.isDeclarationSite]
  exact isEmpty_congr hreferences

variable {flow flow' : MethodFlow}

theorem valueType_congr (h : Alike flow.source flow'.source s s')
    (htype : Java.returnType flow.method flow.source = Java.returnType flow'.method flow'.source) :
    flow.valueType s = flow'.valueType s' := by
  have hcreated := h.textBy? .type
  simp only [MethodFlow.valueType, h.kind, h.text, hcreated, htype]

/-- The same is returned. -/
theorem returned_congr (h : Alike flow.source flow'.source s s')
    (htype : Java.returnType flow.method flow.source = Java.returnType flow'.method flow'.source) :
    flow.returned s = flow'.returned s' := by
  have hnamed : List.Forall₂ (Alike flow.source flow'.source) s.namedChildren s'.namedChildren :=
    filter_congr h.children fun m m' hm => by rw [hm.kind]
  rw [MethodFlow.returned, MethodFlow.returned]
  generalize s.namedChildren = values, s'.namedChildren = values' at hnamed
  cases hnamed with
  | nil => rfl
  | cons hfirst _ => exact congrArg BlockReturn.value (valueType_congr hfirst htype)

end Alike

/-! ## Flows with a piece of text in common -/

/-- A statement in the piece `q` of one source, and the same in another source around that piece. -/
structure Carries (p q u x v : String) (s s' : Node) : Prop where
  fits : s.tree.fits (p ++ (q ++ u)) = true
  start_ge : p.utf8ByteSize ≤ s.start
  stop_le : s.stop ≤ p.utf8ByteSize + q.utf8ByteSize
  tree : s'.tree = s.tree.moved p.utf8ByteSize x.utf8ByteSize
  stands : Stand (p ++ (q ++ u)) (x ++ (q ++ v)) s.above s'.above

variable {p q u x v : String} {s s' : Node}

theorem Carries.alike (h : Carries p q u x v s s') :
    Alike (p ++ (q ++ u)) (x ++ (q ++ v)) s s' := by
  refine ⟨?_, h.stands⟩
  rw [h.tree]
  exact (Tree.wording_moved s.tree h.fits h.start_ge h.stop_le).symm

theorem Carries.stop_ge (h : Carries p q u x v s s') : p.utf8ByteSize ≤ s.stop :=
  Nat.le_trans h.start_ge (Tree.start_le_stop s.tree h.fits)

theorem Carries.start_eq (h : Carries p q u x v s s') :
    s'.start = s.start - p.utf8ByteSize + x.utf8ByteSize := by
  rw [Node.start, h.tree, Tree.start_moved]
  rfl

theorem Carries.stop_eq (h : Carries p q u x v s s') :
    s'.stop = s.stop - p.utf8ByteSize + x.utf8ByteSize := by
  rw [Node.stop, h.tree, Tree.stop_moved]
  rfl

namespace MethodFlow

/-- From statement `i'` on, the flow `F'` goes on like `F` from `i` on: both methods end in the
same piece of text, and their statements from there on lie in it, with the same facts. -/
structure Follows (p q u x v : String) (F F' : MethodFlow) (i i' : Nat) : Prop where
  source : F.source = p ++ (q ++ u)
  source' : F'.source = x ++ (q ++ v)
  stop : F.method.stop = p.utf8ByteSize + q.utf8ByteSize
  stop' : F'.method.stop = x.utf8ByteSize + q.utf8ByteSize
  returnType : Java.returnType F.method F.source = Java.returnType F'.method F'.source
  statements : List.Forall₂ (fun a a' => Carries p q u x v a.1 a'.1 ∧ a.2 = a'.2)
    (F.statements.drop i) (F'.statements.drop i')
  types : ∀ a ∈ F.statements.drop i, ∀ y, y ∈ a.2.readsInOrder ∨
    (Java.variableReferences a.1 F.source y).isEmpty = false →
      F.scope.typeOf? y = F'.scope.typeOf? y

/-- Two blocks that cover the same statements, counted from the ends of their methods, and become
the same method. -/
structure SameBlock (F F' : MethodFlow) (b b' : Block) : Prop where
  behindFirst : F.statements.length - b.firstIndex = F'.statements.length - b'.firstIndex
  behindLast : F.statements.length - b.lastIndex = F'.statements.length - b'.lastIndex
  text : Text.sliceD F.source b.start b.stop = Text.sliceD F'.source b'.start b'.stop
  rest : Text.sliceD F.source b.start F.method.stop = Text.sliceD F'.source b'.start F'.method.stop
  used : b.used = b'.used
  defined : b.defined = b'.defined
  parameters : b.parameters = b'.parameters
  returns : b.returns = b'.returns

theorem SameBlock.refl (F : MethodFlow) (b : Block) : SameBlock F F b b :=
  ⟨rfl, rfl, rfl, rfl, rfl, rfl, rfl, rfl⟩

theorem SameBlock.trans {F F' F'' : MethodFlow} {b b' b'' : Block} (h : SameBlock F F' b b')
    (h' : SameBlock F' F'' b' b'') : SameBlock F F'' b b'' where
  behindFirst := h.behindFirst.trans h'.behindFirst
  behindLast := h.behindLast.trans h'.behindLast
  text := h.text.trans h'.text
  rest := h.rest.trans h'.rest
  used := h.used.trans h'.used
  defined := h.defined.trans h'.defined
  parameters := h.parameters.trans h'.parameters
  returns := h.returns.trans h'.returns

theorem mapM_parameter?_congr {scope scope' : MethodScope} {names : List String}
    (h : ∀ y ∈ names, scope.typeOf? y = scope'.typeOf? y) :
    names.mapM (parameter? scope) = names.mapM (parameter? scope') := by
  induction names with
  | nil => rfl
  | cons y names ih =>
    have hy : parameter? scope y = parameter? scope' y := by
      rw [parameter?, parameter?, h y List.mem_cons_self]
    rw [List.mapM_cons, List.mapM_cons, hy, ih fun z hz => h z (List.mem_cons_of_mem y hz)]

namespace Follows

variable {F F' : MethodFlow} {i i' : Nat}

theorem drop (h : Follows p q u x v F F' i i') (n : Nat) :
    Follows p q u x v F F' (i + n) (i' + n) where
  source := h.source
  source' := h.source'
  stop := h.stop
  stop' := h.stop'
  returnType := h.returnType
  statements := by
    rw [← List.drop_drop, ← List.drop_drop]
    exact List.forall₂_drop n h.statements
  types := fun a ha => h.types a (by
    rw [← List.drop_drop] at ha
    exact List.mem_of_mem_drop ha)

theorem facts (h : Follows p q u x v F F' i i') :
    (F.statements.drop i).map (·.2) = (F'.statements.drop i').map (·.2) :=
  List.forall₂_eq_eq_eq ▸ List.forall₂_map_left_iff.mpr
    (List.forall₂_map_right_iff.mpr (h.statements.imp fun _ _ hab => hab.2))

theorem remaining (h : Follows p q u x v F F' i i') :
    F.statements.length - i = F'.statements.length - i' := by
  have hlength := h.statements.length_eq
  rwa [List.length_drop, List.length_drop] at hlength

/-- The same piece of the common text. -/
theorem sliceD_eq (h : Follows p q u x v F F' i i') {start stop : Nat}
    (hstart : p.utf8ByteSize ≤ start) (hstop : p.utf8ByteSize ≤ stop)
    (hle : stop ≤ p.utf8ByteSize + q.utf8ByteSize) :
    Text.sliceD F.source start stop =
      Text.sliceD F'.source (start - p.utf8ByteSize + x.utf8ByteSize)
        (stop - p.utf8ByteSize + x.utf8ByteSize) := by
  obtain ⟨a, rfl⟩ := Nat.exists_eq_add_of_le hstart
  obtain ⟨b, rfl⟩ := Nat.exists_eq_add_of_le hstop
  have hb : b ≤ q.utf8ByteSize := Nat.le_of_add_le_add_left hle
  rw [Nat.add_sub_cancel_left, Nat.add_sub_cancel_left, Nat.add_comm a, Nat.add_comm b, h.source,
    h.source', Text.sliceD_append_right, Text.sliceD_append_right, Text.sliceD_append_left hb,
    Text.sliceD_append_left hb]

/-- The same variables are read. -/
theorem any_refers (h : Follows p q u x v F F' i i') (y : String) :
    (F.statements.drop i).any (fun (s, _) => !(Java.variableReferences s F.source y).isEmpty) =
      (F'.statements.drop i').any fun (s, _) =>
        !(Java.variableReferences s F'.source y).isEmpty :=
  any_congr h.statements fun _ _ _ _ ha => by
    have halike := ha.1.alike
    rw [← h.source, ← h.source'] at halike
    exact congrArg (!·) (variableReferences_congr halike y)

/-- The same variables that a test keeps are declared by a window. -/
theorem flatMap_declared (h : Follows p q u x v F F' i i') (size : Nat) (g : String → Bool) :
    ((F.statements.drop i).take size).flatMap (fun (_, f) =>
        f.declaredTopLevel.members.filter g) =
      ((F'.statements.drop i').take size).flatMap fun (_, f) =>
        f.declaredTopLevel.members.filter g := by
  have hfacts := congrArg (List.take size) h.facts
  rw [← List.map_take, ← List.map_take] at hfacts
  have hread (l : List (Node × StatementFacts)) :
      l.flatMap (fun a => a.2.declaredTopLevel.members.filter g) =
        (l.map (·.2)).flatMap fun f => f.declaredTopLevel.members.filter g := by
    rw [List.flatMap_map]
  exact (hread _).trans (hfacts ▸ (hread _).symm)

/-- A variable that is read has the same type. -/
theorem typeOf?_eq_of_any (h : Follows p q u x v F F' i i') {y : String} (size : Nat)
    (hreads : (F.statements.drop (i + size)).any
      (fun (s, _) => !(Java.variableReferences s F.source y).isEmpty) = true) :
    F.scope.typeOf? y = F'.scope.typeOf? y := by
  obtain ⟨a, ha, hrefers⟩ := List.any_eq_true.mp hreads
  rw [← List.drop_drop] at ha
  exact h.types a (List.mem_of_mem_drop ha) y (.inr (by simpa using hrefers))

/-- The same variable leaves a window. -/
theorem escaping_eq (h : Follows p q u x v F F' i i') (size : Nat) :
    F.escaping ((F.statements.drop i).take size) (F.statements.drop (i + size)) =
      F'.escaping ((F'.statements.drop i').take size) (F'.statements.drop (i' + size)) := by
  have htype (y : String) (hy : y ∈ ((F.statements.drop i).take size).flatMap fun a =>
        a.2.declaredTopLevel.members.filter fun y => (F.statements.drop (i + size)).any
          fun b => !(Java.variableReferences b.1 F.source y).isEmpty) :
      F.scope.typeOf? y = F'.scope.typeOf? y := by
    obtain ⟨_, -, hya⟩ := List.mem_flatMap.mp hy
    exact h.typeOf?_eq_of_any size (List.mem_filter.mp hya).2
  rw [MethodFlow.escaping, MethodFlow.escaping, ← h.flatMap_declared,
    ← funext (h.drop size).any_refers]
  generalize ((F.statements.drop i).take size).flatMap _ = names at htype ⊢
  cases names with
  | nil => rfl
  | cons y rest =>
    cases rest with
    | nil => simp only [htype y List.mem_cons_self]
    | cons z rest => rfl

/-- The same names become the parameters of a window. -/
theorem parametersOf_eq (h : Follows p q u x v F F' i i') (size : Nat) :
    F.parametersOf (((F.statements.drop i).take size).map (·.2)) =
      F'.parametersOf (((F'.statements.drop i').take size).map (·.2)) := by
  have hfacts := congrArg (List.take size) h.facts
  rw [← List.map_take, ← List.map_take] at hfacts
  rw [MethodFlow.parametersOf, MethodFlow.parametersOf, ← hfacts]
  refine mapM_parameter?_congr fun y hy => ?_
  obtain ⟨f, hf, hyf⟩ := List.mem_flatMap.mp (mem_firstOccurrences.mp (List.mem_filter.mp hy).1)
  obtain ⟨a, ha, rfl⟩ := List.mem_map.mp hf
  exact h.types a (List.mem_of_mem_take ha) y (.inl hyf)

/-- A window of the one flow is a block when the same window of the other is, and then they are the
same block. -/
theorem accept (h : Follows p q u x v F F' i i') (size : Nat) :
    Option.Rel (SameBlock F F') (F.accept i size).toOption (F'.accept i' size).toOption := by
  rcases Nat.eq_zero_or_pos size with rfl | hsize
  · rw [MethodFlow.accept, MethodFlow.accept, List.take_zero, List.take_zero]
    exact .none
  have hwindow := List.forall₂_take size h.statements
  have hfacts := congrArg (List.take size) h.facts
  rw [← List.map_take, ← List.map_take] at hfacts
  have hparameters := h.parametersOf_eq size
  have hescaping := h.escaping_eq size
  have hremaining := h.remaining
  rw [← hfacts] at hparameters
  rw [MethodFlow.accept, MethodFlow.accept, ← hfacts]
  have hhead := head?_rel hwindow
  have hlast := getLast?_rel hwindow
  generalize ((F.statements.drop i).take size).head? = first,
    ((F'.statements.drop i').take size).head? = first' at hhead ⊢
  generalize ((F.statements.drop i).take size).getLast? = final,
    ((F'.statements.drop i').take size).getLast? = final' at hlast ⊢
  cases hhead with
  | none => exact .none
  | @some a a' ha =>
    cases hlast with
    | none => exact .none
    | @some b b' hb =>
      have hends (facts : List StatementFacts) :
          endsInReturn facts b.1 = endsInReturn facts b'.1 := by
        rw [endsInReturn, endsInReturn, hb.1.alike.kind]
      have hreturned : F.returned b.1 = F'.returned b'.1 := by
        have halike := hb.1.alike
        rw [← h.source, ← h.source'] at halike
        exact returned_congr halike h.returnType
      dsimp only
      rw [hparameters, hescaping, hends, hreturned]
      have htext := h.sliceD_eq ha.1.start_ge hb.1.stop_ge hb.1.stop_le
      have hrest := h.sliceD_eq ha.1.start_ge (Nat.le_add_right _ _) (Nat.le_refl _)
      rw [← ha.1.start_eq, ← hb.1.stop_eq] at htext
      rw [← ha.1.start_eq, Nat.add_sub_cancel_left, Nat.add_comm q.utf8ByteSize, ← h.stop,
        ← h.stop'] at hrest
      generalize checkEffects _ = effects, endsInReturn _ _ = ends, F'.parametersOf _ = parameters,
        F'.escaping _ _ = escaping
      have hlast : F.statements.length - (i + size - 1) =
          F'.statements.length - (i' + size - 1) := by
        omega
      -- every step before the last is the same for both
      match effects, ends, parameters, escaping with
      | .error _, _, _, _ => exact .none
      | .ok _, .error _, _, _ => exact .none
      | .ok _, .ok _, .error _, _ => exact .none
      | .ok _, .ok true, .ok _, _ =>
        exact .some ⟨hremaining, hlast, htext, hrest, rfl, rfl, rfl, rfl⟩
      | .ok _, .ok false, .ok _, .error _ => exact .none
      | .ok _, .ok false, .ok _, .ok _ =>
        exact .some ⟨hremaining, hlast, htext, hrest, rfl, rfl, rfl, rfl⟩

/-- A flow that goes on like another has the same blocks from there on. -/
theorem blocksFrom (h : Follows p q u x v F F' i i') (settings : BlockSettings) :
    List.Forall₂ (SameBlock F F') (F.blocksFrom settings i) (F'.blocksFrom settings i') := by
  induction hn : F.statements.length - i using Nat.strong_induction_on generalizing i i' with
  | _ n ih =>
    subst hn
    have hremaining := h.remaining
    have hfacts := h.facts
    rw [MethodFlow.blocksFrom.eq_def F, MethodFlow.blocksFrom.eq_def F', ← hfacts, ← hremaining]
    by_cases hin : i < F.statements.length
    · have hin' : i' < F'.statements.length := by omega
      have hnext {k : Nat} (hk : 0 < k) := ih _ (by omega) (h.drop k) rfl
      simp only [hin, hin', and_true]
      split
      · split
        · exact hnext Nat.one_pos
        · rename_i hsize
          have haccept := h.accept (openWindow settings ((F.statements.drop i).map (·.2)))
          revert haccept
          cases F.accept i (openWindow settings ((F.statements.drop i).map (·.2))) <;>
            cases F'.accept i' (openWindow settings ((F.statements.drop i).map (·.2))) <;>
            intro haccept
          · exact hnext Nat.one_pos
          · cases haccept
          · cases haccept
          · cases haccept with
            | some hsame => exact .cons hsame (hnext (by omega))
      · exact .nil
    · have hout : ¬ i' < F'.statements.length := by omega
      simp only [hin, hout, and_false]
      exact .nil

end Follows

end MethodFlow

end Amend.Extraction

