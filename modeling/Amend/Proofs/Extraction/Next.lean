import Amend.Extraction.Block
import Amend.Proofs.Extraction.Names
import Amend.Proofs.Syntax.Alike

/-!
# The next block

The first block that a search finds is an accepted window of the statements left, and the search
goes on behind it.  Where single statements are blocks, a `return` without a value is one: the
search finds it, or a block that ends in it, or a block ahead of it.
-/

namespace Amend.Extraction

open Syntax Syntax.Node

namespace MethodFlow

/-! ## The next block and its statements -/

variable {F : MethodFlow} {settings : BlockSettings} {i : Nat} {b : Block} {s : Node}
  {f : StatementFacts} {rest : List (Node × StatementFacts)}

theorem windowSize_le (settings : BlockSettings) (size : Nat) (defined : Names)
    (facts : List StatementFacts) :
    windowSize settings size defined facts ≤ size + facts.length := by
  induction facts generalizing size defined with
  | nil => exact Nat.le_refl _
  | cons next facts ih =>
    have hrest := ih (size + 1) (defined.union next.defined)
    rw [windowSize, List.length_cons]
    split
    · omega
    · split <;> omega

theorem openWindow_le (facts : List StatementFacts) : openWindow settings facts ≤ facts.length := by
  cases facts with
  | nil => exact Nat.le_refl _
  | cons first facts =>
    have hsize := windowSize_le settings 1 first.defined facts
    rw [openWindow, List.length_cons]
    omega

theorem openWindow_left_le (i : Nat) :
    openWindow settings ((F.statements.drop i).map (·.2)) ≤ F.statements.length - i := by
  rw [← List.length_drop, ← List.length_map (·.2)]
  exact openWindow_le _

theorem le_windowSize (settings : BlockSettings) (size : Nat) (defined : Names)
    (facts : List StatementFacts) : size ≤ windowSize settings size defined facts := by
  induction facts generalizing size defined with
  | nil => exact Nat.le_refl _
  | cons next facts ih =>
    have hrest := ih (size + 1) (defined.union next.defined)
    rw [windowSize]
    split
    · omega
    · split <;> omega

theorem openWindow_pos {facts : List StatementFacts} (h : facts ≠ []) :
    0 < openWindow settings facts := by
  cases facts with
  | nil => exact absurd rfl h
  | cons first facts => exact le_windowSize settings 1 first.defined facts

/-- A block lies from the start of its first statement to the end of its last one. -/
structure Spans (F : MethodFlow) (b : Block) (first last : Node × StatementFacts) : Prop where
  ordered : b.firstIndex ≤ b.lastIndex
  firstAt : F.statements[b.firstIndex]? = some first
  lastAt : F.statements[b.lastIndex]? = some last
  start : b.start = first.1.start
  stop : b.stop = last.1.stop

theorem size_pos_of_accept {size : Nat} (h : F.accept i size = .ok b) : 0 < size := by
  rw [Nat.pos_iff_ne_zero]
  rintro rfl
  rw [accept, List.take_zero] at h
  cases h

theorem getLast?_window {size : Nat} (hsize : 0 < size) (hin : i + size ≤ F.statements.length) :
    ((F.statements.drop i).take size).getLast? = F.statements[i + size - 1]? := by
  rw [List.getLast?_eq_getElem?, List.length_take_of_le (by rw [List.length_drop]; omega),
    List.getElem?_take_of_lt (by omega), List.getElem?_drop, Nat.add_sub_assoc hsize]

theorem accept_spans {size : Nat} (h : F.accept i size = .ok b)
    (hin : i + size ≤ F.statements.length) :
    b.firstIndex = i ∧ b.lastIndex = i + size - 1 ∧ ∃ first last, Spans F b first last := by
  have hsize := size_pos_of_accept h
  have hfirst : F.statements[i]? = some F.statements[i] := List.getElem?_eq_getElem (by omega)
  have hlast : F.statements[i + size - 1]? = some F.statements[i + size - 1] :=
    List.getElem?_eq_getElem (by omega)
  have hwindowFirst : ((F.statements.drop i).take size).head? = some F.statements[i] := by
    rw [← hfirst, List.head?_take, if_neg (Nat.ne_of_gt hsize), List.head?_drop]
  rw [accept, hwindowFirst, getLast?_window hsize hin, hlast] at h
  dsimp only at h
  generalize checkEffects _ = effects, endsInReturn _ _ = ends, F.parametersOf _ = parameters,
    F.escaping _ _ = escaping at h
  match effects, ends, parameters, escaping with
  | .error _, _, _, _ => cases h
  | .ok _, .error _, _, _ => cases h
  | .ok _, .ok _, .error _, _ => cases h
  | .ok _, .ok true, .ok _, _ =>
    cases h
    exact ⟨rfl, rfl, _, _, by dsimp only; omega, hfirst, hlast, rfl, rfl⟩
  | .ok _, .ok false, .ok _, .error _ => cases h
  | .ok _, .ok false, .ok _, .ok _ =>
    cases h
    exact ⟨rfl, rfl, _, _, by dsimp only; omega, hfirst, hlast, rfl, rfl⟩

/-- The first block found from a statement on is an accepted window of the statements left, and the
search goes on behind it. -/
theorem exists_accept_of_blocksFrom {rest : List Block} (h : F.blocksFrom settings i = b :: rest) :
    rest = F.blocksFrom settings (b.lastIndex + 1) ∧ ∃ k size, i ≤ k ∧ settings.minSize ≤ size ∧
      k + size ≤ F.statements.length ∧ F.accept k size = .ok b := by
  fun_induction blocksFrom F settings i with
  | case1 i hleft size hsmall ih =>
    obtain ⟨hrest, k, m, hk, hwindow⟩ := ih h
    exact ⟨hrest, k, m, Nat.le_of_succ_le hk, hwindow⟩
  | case2 i hleft size hbig b haccept ih =>
    cases h
    have hsize : size ≤ F.statements.length - i := openWindow_left_le i
    obtain ⟨-, hlast, -⟩ := accept_spans haccept (by omega)
    refine ⟨?_, i, size, Nat.le_refl _, by omega, by omega, haccept⟩
    rw [hlast]
    congr 1
    omega
  | case3 i hleft size hbig e haccept ih =>
    obtain ⟨hrest, k, m, hk, hwindow⟩ := ih h
    exact ⟨hrest, k, m, Nat.le_of_succ_le hk, hwindow⟩
  | case4 i hleft => cases h

theorem blocksFrom_cons {rest : List Block} (h : F.blocksFrom settings i = b :: rest) :
    i ≤ b.firstIndex ∧ rest = F.blocksFrom settings (b.lastIndex + 1) ∧
      ∃ first last, Spans F b first last := by
  obtain ⟨hrest, k, size, hk, -, hin, haccept⟩ := exists_accept_of_blocksFrom h
  obtain ⟨hfirst, -, hspans⟩ := accept_spans haccept hin
  exact ⟨hfirst ▸ hk, hrest, hspans⟩

/-- Every block found lies from the start of its first statement to the end of its last one. -/
theorem exists_spans_of_mem (h : b ∈ F.blocksFrom settings i) :
    ∃ first last, Spans F b first last := by
  fun_induction blocksFrom F settings i with
  | case1 i hleft size hsmall ih => exact ih h
  | case2 i hleft size hbig c haccept ih =>
    have hsize : size ≤ F.statements.length - i := openWindow_left_le i
    rcases List.mem_cons.mp h with rfl | h
    · exact (accept_spans haccept (by omega)).2.2
    · exact ih h
  | case3 i hleft size hbig e haccept ih => exact ih h
  | case4 i hleft => cases h

/-! ## A return without a value -/

/-- Whether a tree is a `return` without a value. -/
def isBareReturn (t : Tree) : Bool :=
  t.kind = .returnStatement && t.children.all (!·.kind.isNamed)

@[simp] theorem isBareReturn_moved (t : Tree) (old new : Nat) :
    isBareReturn (t.moved old new) = isBareReturn t := by
  obtain ⟨kind, field, missing, start, stop, children⟩ := t
  simp [isBareReturn, Tree.moved, List.all_map, Function.comp_def]

theorem visit_of_isBareReturn (enter : Node → Bool) (h : isBareReturn s.tree = true) :
    s.visit enter = [s] := by
  obtain ⟨⟨kind, field, missing, start, stop, children⟩, above⟩ := s
  have htokens : children.all (!·.kind.isNamed) = true := (Bool.and_eq_true_iff.mp h).2
  have hnone (t : Tree) (i : Nat) : visitTrees enter t above i children = [] := by
    clear h
    induction children generalizing i with
    | nil => rfl
    | cons c children ih =>
      rw [List.all_cons, Bool.and_eq_true_iff, Bool.not_eq_true'] at htokens
      rw [visitTrees, htokens.1, ih htokens.2]
      rfl
  rw [visit, visitTree, hnone, ite_self]

theorem facts_of_isBareReturn (source : String) (scope : MethodScope)
    (h : isBareReturn s.tree = true) :
    StatementFacts.ofStatement s source scope = { hasReturn := true } := by
  have hkind : s.kind = .returnStatement := of_decide_eq_true (Bool.and_eq_true_iff.mp h).1
  rw [StatementFacts.ofStatement, preorder, visit_of_isBareReturn _ h, visit_of_isBareReturn _ h,
    hkind]
  simp [hkind, isOneOf, Names.ofList]

theorem isBareReturn_iff :
    isBareReturn s.tree = true ↔ s.kind = .returnStatement ∧ s.namedChildren = [] := by
  have hnamed : s.namedChildren = [] ↔ s.tree.children.all (!·.kind.isNamed) = true := by
    rw [namedChildren, List.filter_eq_nil_iff, ← map_tree_children, List.all_map, List.all_eq_true]
    refine forall₂_congr fun c _ => ?_
    rw [Function.comp_apply, Bool.not_eq_true', ← Bool.not_eq_true]
    rfl
  rw [isBareReturn, Bool.and_eq_true, decide_eq_true_eq, hnamed]
  rfl

theorem length_of_drop (hdrop : F.statements.drop i = (s, f) :: rest) :
    F.statements.length - i = rest.length + 1 := by
  rw [← List.length_drop, hdrop, List.length_cons]

/-- A window of several statements that starts with a `return` is refused. -/
theorem accept_at_return (hdrop : F.statements.drop i = (s, f) :: rest)
    (hreturn : f.hasReturn = true) {size : Nat} (hsize : 2 ≤ size) (hrest : rest ≠ []) :
    ∃ e, F.accept i size = .error e := by
  obtain ⟨a, rest, rfl⟩ := List.exists_cons_of_ne_nil hrest
  obtain ⟨n, rfl⟩ := Nat.exists_eq_add_of_le' hsize
  obtain ⟨last, hlast⟩ : ∃ last, ((s, f) :: a :: rest.take n).getLast? = some last :=
    ⟨_, List.getLast?_eq_some_getLast (List.cons_ne_nil _ _)⟩
  have hends : endsInReturn (((s, f) :: a :: rest.take n).map (·.2)) last.1 =
      .error .earlyReturn := by
    simp [endsInReturn, hreturn]
  rw [accept, hdrop, List.take_succ_cons, List.take_succ_cons, hlast, List.head?_cons]
  dsimp only
  rw [hends]
  cases checkEffects _ with
  | error e => exact ⟨e, rfl⟩
  | ok _ => exact ⟨_, rfl⟩

/-- No block of several statements starts with a `return`. -/
theorem blocksFrom_behind_return (hdrop : F.statements.drop i = (s, f) :: rest)
    (hreturn : f.hasReturn = true) (hmin : 2 ≤ settings.minSize) :
    F.blocksFrom settings i = F.blocksFrom settings (i + 1) := by
  have hlength := length_of_drop hdrop
  rw [blocksFrom.eq_def F settings i]
  split
  · rename_i hin
    have hrest : rest ≠ [] := by
      rintro rfl
      have hshort : F.statements.length - i = 1 := hlength
      omega
    dsimp only
    split
    · rfl
    · rename_i hsize
      obtain ⟨e, he⟩ := accept_at_return hdrop hreturn
        (Nat.le_trans hmin (Nat.not_lt.mp (not_or.mp hsize).1)) hrest
      rw [he]
  · rename_i hout
    rw [blocksFrom.eq_def F settings (i + 1), dif_neg]
    omega

theorem openWindow_at_return (hdrop : F.statements.drop i = (s, { hasReturn := true }) :: rest)
    (hmin : settings.minSize = 1) : openWindow settings ((F.statements.drop i).map (·.2)) = 1 := by
  rw [hdrop, List.map_cons, openWindow]
  cases rest.map (·.2) with
  | nil => rfl
  | cons next facts =>
    have hdisjoint : next.used.disjoint (StatementFacts.defined { hasReturn := true }) = true :=
      List.all_eq_true.mpr fun _ _ => rfl
    rw [windowSize, hdisjoint, hmin]
    simp

/-- A window of one `return` without a value is a block. -/
theorem exists_accept_at_return
    (hdrop : F.statements.drop i = (s, { hasReturn := true }) :: rest)
    (h : isBareReturn s.tree = true) : ∃ b, F.accept i 1 = .ok b := by
  have hkind : s.kind = .returnStatement := of_decide_eq_true (Bool.and_eq_true_iff.mp h).1
  have hends : endsInReturn [{ hasReturn := true }] s = .ok true := by
    simp [endsInReturn, hkind]
  rw [accept, hdrop, List.take_succ_cons, List.take_zero, List.head?_cons,
    List.getLast?_singleton]
  dsimp only
  rw [List.map_singleton, hends]
  exact ⟨_, rfl⟩

theorem endsInReturn_eq_ok {facts : List StatementFacts} {last : Node} {returning : Bool}
    (h : endsInReturn facts last = .ok returning) : returning = facts.any (·.hasReturn) ∧
      (returning = true →
        facts.dropLast.any (·.hasReturn) = false ∧ last.kind = .returnStatement) := by
  dsimp only [endsInReturn] at h
  split at h
  · cases h
  · rename_i hends
    cases h
    refine ⟨rfl, fun hreturning => ?_⟩
    rw [hreturning] at hends
    simpa using hends

theorem escaping_ne_exit {window later : List (Node × StatementFacts)} :
    F.escaping window later ≠ .ok .exit := by
  dsimp only [escaping]
  split
  · nofun
  · split <;> nofun
  · nofun

/-- A block returns what its last statement returns if one of its statements does, and then this is
the last one. -/
theorem accept_returns {size : Nat} (h : F.accept i size = .ok b)
    (hin : i + size ≤ F.statements.length) {last : Node × StatementFacts}
    (hlast : F.statements[b.lastIndex]? = some last) :
    ∃ returning, endsInReturn (((F.statements.drop i).take size).map (·.2)) last.1 =
      .ok returning ∧ if returning then b.returns = F.returned last.1 else b.returns ≠ .exit := by
  rw [(accept_spans h hin).2.1, ← getLast?_window (size_pos_of_accept h) hin] at hlast
  cases hfirst : ((F.statements.drop i).take size).head? with
  | none =>
    rw [List.head?_eq_none_iff.mp hfirst] at hlast
    cases hlast
  | some first =>
    rw [accept, hfirst, hlast] at h
    dsimp only at h
    generalize checkEffects _ = effects, endsInReturn _ _ = ends, F.parametersOf _ = parameters
      at h ⊢
    generalize hescaping : F.escaping _ _ = escaping at h
    match effects, ends, parameters, escaping with
    | .error _, _, _, _ => cases h
    | .ok _, .error _, _, _ => cases h
    | .ok _, .ok _, .error _, _ => cases h
    | .ok _, .ok true, .ok _, _ =>
      cases h
      exact ⟨true, rfl, rfl⟩
    | .ok _, .ok false, .ok _, .error _ => cases h
    | .ok _, .ok false, .ok _, .ok _ =>
      cases h
      refine ⟨false, rfl, ?_⟩
      rintro rfl
      exact escaping_ne_exit hescaping

/-- A block that returns without a value ends in a `return` without one. -/
theorem accept_exit {size : Nat} (h : F.accept i size = .ok b)
    (hin : i + size ≤ F.statements.length) (hexit : b.returns = .exit) :
    ∃ a, F.statements[b.lastIndex]? = some a ∧ isBareReturn a.1.tree = true := by
  obtain ⟨-, -, first, last, hspans⟩ := accept_spans h hin
  obtain ⟨returning, hends, hreturns⟩ := accept_returns h hin hspans.lastAt
  cases returning with
  | false => exact absurd hexit hreturns
  | true =>
    have hkind := ((endsInReturn_eq_ok hends).2 rfl).2
    refine ⟨last, hspans.lastAt, isBareReturn_iff.mpr ⟨hkind, ?_⟩⟩
    rw [if_pos rfl, hexit, returned] at hreturns
    split at hreturns
    · cases hreturns
    · rename_i hnone
      exact List.head?_eq_none_iff.mp hnone

theorem mem_facts_window {n j : Nat} {a : Node × StatementFacts} (hi : i ≤ j) (hj : j < i + n)
    (ha : F.statements[j]? = some a) : a.2 ∈ ((F.statements.drop i).take n).map (·.2) := by
  refine List.mem_map_of_mem (List.mem_of_getElem? (i := j - i) ?_)
  rw [List.getElem?_take_of_lt (by omega), List.getElem?_drop, Nat.add_sub_cancel' hi, ha]

/-- A block with a `return` without a value in it returns without a value. -/
theorem accept_around_return {size j : Nat} (h : F.accept i size = .ok b)
    (hin : i + size ≤ F.statements.length) (hi : i ≤ j) (hj : j ≤ b.lastIndex)
    (hs : F.statements[j]? = some (s, { hasReturn := true }))
    (hreturn : isBareReturn s.tree = true) : b.returns = .exit := by
  obtain ⟨-, hlast, first, last, hspans⟩ := accept_spans h hin
  obtain ⟨returning, hends, hreturns⟩ := accept_returns h hin hspans.lastAt
  obtain ⟨hany, honly⟩ := endsInReturn_eq_ok hends
  have hsize := size_pos_of_accept h
  have hreturning : returning = true :=
    hany ▸ List.any_eq_true.mpr ⟨_, mem_facts_window hi (by omega) hs, rfl⟩
  subst hreturning
  have hdropLast : ((F.statements.drop i).take size).dropLast =
      (F.statements.drop i).take (size - 1) := by
    rw [List.dropLast_eq_take, List.length_take_of_le (by rw [List.length_drop]; omega),
      List.take_take, Nat.min_eq_left (Nat.sub_le _ _)]
  have hearly := (honly rfl).1
  rw [← List.map_dropLast, hdropLast] at hearly
  have hj : j = b.lastIndex := by
    by_contra hne
    have hmem := mem_facts_window (n := size - 1) hi (by omega) hs
    exact absurd (List.any_eq_true.mpr ⟨_, hmem, rfl⟩) (Bool.eq_false_iff.mp hearly)
  cases (hj ▸ hs).symm.trans hspans.lastAt
  rw [if_pos rfl, returned, (isBareReturn_iff.mp hreturn).2] at hreturns
  exact hreturns

/-- A search that meets a `return` without a value where single statements are blocks finds a block,
and this returns without a value or lies ahead of that `return`. -/
theorem exists_block_at_return {j : Nat} (hmin : settings.minSize = 1) (hi : i ≤ j)
    (hs : F.statements[j]? = some (s, { hasReturn := true }))
    (hreturn : isBareReturn s.tree = true) :
    ∃ b rest, F.blocksFrom settings i = b :: rest ∧ (b.returns = .exit ∨ b.lastIndex < j) := by
  have hlength := (List.getElem?_eq_some_iff.mp hs).1
  fun_induction blocksFrom F settings i with
  | case1 i hleft size hsmall ih =>
    have hpos : 0 < size := openWindow_pos (by simp; omega)
    omega
  | case2 i hleft size hbig b haccept ih =>
    have hsize : size ≤ F.statements.length - i := openWindow_left_le i
    refine ⟨b, _, rfl, ?_⟩
    rcases Nat.lt_or_ge b.lastIndex j with hj | hj
    · exact Or.inr hj
    · exact Or.inl (accept_around_return haccept (by omega) hi hj hs hreturn)
  | case3 i hleft size hbig e haccept ih =>
    rcases Nat.eq_or_lt_of_le hi with rfl | hi
    · have hdrop := List.drop_eq_getElem_cons hleft.2
      rw [(List.getElem?_eq_some_iff.mp hs).2] at hdrop
      have hsize : size = 1 := openWindow_at_return hdrop hmin
      obtain ⟨b, hb⟩ := exists_accept_at_return hdrop hreturn
      rw [hsize, hb] at haccept
      cases haccept
    · exact ih hi
  | case4 i hleft => omega
end MethodFlow

end Amend.Extraction
