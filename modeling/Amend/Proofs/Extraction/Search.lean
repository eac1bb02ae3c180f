import Amend.Proofs.Extraction.Window

/-!
# What the search for blocks finds

The search opens a window at each statement and goes on behind it where it is accepted, and one
statement further where it is refused.  So the blocks lie one behind the other, and a statement from
which enough statements are left is in one of them unless the window opened there is refused.
-/

namespace Amend.Extraction

open Syntax
open StatementFacts (namesRead namesWritten Returns Jumps)

variable (method : Node) (source : String) (settings : BlockSettings)

/-- A block of a method that was looked for from statement `first` on. -/
structure IsBlock (first : Nat) (b : Block) : Prop where
  first_le : first ≤ b.firstIndex
  ordered : b.firstIndex ≤ b.lastIndex
  inBody : b.lastIndex < (Java.bodyStatements method).length
  minSize_le : settings.minSize ≤ b.size
  le_maxSize : b.size ≤ settings.maxSize
  isWindow : IsWindow method source settings ((Java.bodyStatements method).drop b.firstIndex) b.size
  lifts : Lifts method source (((Java.bodyStatements method).drop b.firstIndex).take b.size)
    ((Java.bodyStatements method).drop (b.lastIndex + 1)) b

/-- The blocks that a search from statement `first` on has to find. -/
structure Searched (first : Nat) (blocks : List Block) : Prop where
  isBlock : ∀ b ∈ blocks, IsBlock method source settings first b
  apart : blocks.Pairwise fun a b => a.lastIndex < b.firstIndex
  exhaustive : ∀ i, first ≤ i → i + settings.minSize ≤ (Java.bodyStatements method).length →
    (∀ b ∈ blocks, i < b.firstIndex ∨ b.lastIndex < i) →
    ∃ size, IsWindow method source settings ((Java.bodyStatements method).drop i) size ∧
      Refused method source (((Java.bodyStatements method).drop i).take size)
        ((Java.bodyStatements method).drop (i + size))

variable {method source settings} {first : Nat} {blocks : List Block}

theorem IsBlock.earlier {b : Block} (h : IsBlock method source settings (first + 1) b) :
    IsBlock method source settings first b :=
  { h with first_le := Nat.le_of_succ_le h.first_le }

/-- Where too few statements are left there is nothing to find. -/
theorem searched_nil (h : (Java.bodyStatements method).length < first + settings.minSize) :
    Searched method source settings first [] where
  isBlock := nofun
  apart := List.Pairwise.nil
  exhaustive := by
    intro i hi hleft
    omega

/-- A search that goes on behind a refused window. -/
theorem Searched.refused {size : Nat} (h : Searched method source settings (first + 1) blocks)
    (hwindow : IsWindow method source settings ((Java.bodyStatements method).drop first) size)
    (hrefused : Refused method source (((Java.bodyStatements method).drop first).take size)
      ((Java.bodyStatements method).drop (first + size))) :
    Searched method source settings first blocks where
  isBlock := fun b hb => (h.isBlock b hb).earlier
  apart := h.apart
  exhaustive := by
    intro i hi hleft hout
    rcases Nat.eq_or_lt_of_le hi with rfl | hi
    · exact ⟨size, hwindow, hrefused⟩
    · exact h.exhaustive i hi hleft hout

/-- A search that goes on behind a block. -/
theorem Searched.accepted {b : Block}
    (h : Searched method source settings (b.lastIndex + 1) blocks)
    (hb : IsBlock method source settings b.firstIndex b) :
    Searched method source settings b.firstIndex (b :: blocks) where
  isBlock := by
    intro c hc
    rcases List.mem_cons.mp hc with rfl | hc
    · exact hb
    · have hlater := h.isBlock c hc
      have hle : b.firstIndex ≤ c.firstIndex :=
        Nat.le_trans hb.ordered (Nat.le_of_succ_le hlater.first_le)
      exact { hlater with first_le := hle }
  apart := List.pairwise_cons.mpr ⟨fun c hc => (h.isBlock c hc).first_le, h.apart⟩
  exhaustive := by
    intro i hi hleft hout
    have hbehind : b.lastIndex < i := by
      rcases hout b List.mem_cons_self with hlt | hlt
      · omega
      · exact hlt
    exact h.exhaustive i hbehind hleft fun c hc => hout c (List.mem_cons_of_mem b hc)

namespace MethodFlow

/-- The window that the search opens at a statement from which enough statements are left. -/
theorem isWindow_at (method : Node) (source : String) (settings : BlockSettings) (first : Nat)
    (h : first < (Java.bodyStatements method).length) :
    IsWindow method source settings ((Java.bodyStatements method).drop first)
      (openWindow settings (((ofMethod method source).statements.drop first).map (·.2))) := by
  have hfacts : ((ofMethod method source).statements.drop first).map (·.2) =
      ((Java.bodyStatements method).drop first).map (StatementFacts.of method source) := by
    rw [List.map_drop, List.map_drop]
    congr 1
    exact List.map_map
  rw [hfacts]
  refine isWindow_openWindow fun hnil => ?_
  rw [List.drop_eq_nil_iff] at hnil
  omega

/-- The window that is opened where enough statements are left is as big as the settings want, and
it is not empty. -/
theorem size_openWindow
    (h : first + settings.minSize ≤ (Java.bodyStatements method).length) {size : Nat}
    (hwindow : IsWindow method source settings ((Java.bodyStatements method).drop first) size) :
    settings.minSize ≤ size ∧ size ≤ settings.maxSize ∧
      first + size ≤ (Java.bodyStatements method).length ∧
      ((Java.bodyStatements method).drop first).take size ≠ [] := by
  have hlength : ((Java.bodyStatements method).drop first).length =
      (Java.bodyStatements method).length - first := List.length_drop
  have hmin := settings.minSize_pos
  obtain ⟨hminSize, hmaxSize, hsize⟩ := hwindow.size_le (by omega)
  refine ⟨hminSize, hmaxSize, by omega, fun hnil => ?_⟩
  have hzero := congrArg List.length hnil
  rw [List.length_take, hlength, List.length_nil] at hzero
  omega

/-- The search from any statement on. -/
theorem searched_blocksFrom (method : Node) (source : String) (settings : BlockSettings)
    (first : Nat) :
    Searched method source settings first ((ofMethod method source).blocksFrom settings first) := by
  have hlength : (ofMethod method source).statements.length =
      (Java.bodyStatements method).length := List.length_map _
  have hmin := settings.minSize_pos
  fun_induction blocksFrom (ofMethod method source) settings first with
  | case1 first hleft size hsmall =>
    have hwindow := isWindow_at method source settings first (by omega)
    have hsize := (size_openWindow (by omega) hwindow).1
    exfalso
    omega
  | case2 first hleft size hbig b haccept ih =>
    have hwindow := isWindow_at method source settings first (by omega)
    obtain ⟨hminSize, hmaxSize, hend, hne⟩ := size_openWindow (by omega) hwindow
    have haccepted := accept_eq method source first size hne
    rw [haccept] at haccepted
    obtain ⟨rfl, hlast, hlifts⟩ := haccepted
    have hnext : b.lastIndex + 1 = b.firstIndex + size := by omega
    have hbsize : b.size = size := by
      rw [Block.size]
      omega
    rw [Nat.max_eq_left (by omega), ← hnext] at ih ⊢
    refine ih.accepted ⟨Nat.le_refl _, by omega, by omega, ?_, ?_, ?_, ?_⟩
    · rw [hbsize]
      exact hminSize
    · rw [hbsize]
      exact hmaxSize
    · rw [hbsize]
      exact hwindow
    · rw [hbsize, hnext]
      exact hlifts
  | case3 first hleft size hbig e haccept ih =>
    have hwindow := isWindow_at method source settings first (by omega)
    obtain ⟨-, -, -, hne⟩ := size_openWindow (by omega) hwindow
    have hrefused := accept_eq method source first size hne
    rw [haccept] at hrefused
    exact ih.refused hwindow hrefused
  | case4 first hleft =>
    exact searched_nil (by omega)

end MethodFlow

/-- Names in the order of their first reading are distinct. -/
theorem Lifts.nodup_parameters {window later : List Node} {b : Block}
    (h : Lifts method source window later b) : (b.parameters.map (·.name)).Nodup := by
  refine h.parametersOrdered.imp fun hlt heq => ?_
  rw [heq] at hlt
  exact Nat.lt_irrefl _ hlt

/-- The blocks of a method keep their contract, and every statement that could start one and is in
none is refused for one of six reasons. -/
theorem searched_findBlocksFrom (method : Node) (source : String) (settings : BlockSettings)
    (first : Nat) :
    Searched method source settings first (findBlocksFrom method source settings first) ∧
      ∀ b ∈ findBlocksFrom method source settings first,
        (b.parameters.map (·.name)).Nodup := by
  have hsearched := MethodFlow.searched_blocksFrom method source settings first
  exact ⟨hsearched, fun b hb => (hsearched.isBlock b hb).lifts.nodup_parameters⟩

/-! ## A variable of unknown type that is handed on -/

/-- The text of a method that hands on a variable whose type is inferred. -/
def inferredSource : String := "{var x=1;g(x);}"

/-- The method of that text. -/
def inferredMethod : Node := .root
  ⟨.methodDeclaration, none, false, 0, 15, [
    ⟨.block, some .body, false, 0, 15, [
      ⟨.localVariableDeclaration, none, false, 1, 9, [
        ⟨.typeIdentifier, some .type, false, 1, 4, []⟩,
        ⟨.variableDeclarator, some .declarator, false, 5, 8, [
          ⟨.identifier, some .name, false, 5, 6, []⟩,
          ⟨.decimalIntegerLiteral, some .value, false, 7, 8, []⟩]⟩]⟩,
      ⟨.expressionStatement, none, false, 9, 14, [
        ⟨.methodInvocation, none, false, 9, 13, [
          ⟨.identifier, some .name, false, 9, 10, []⟩,
          ⟨.argumentList, some .arguments, false, 10, 13, [
            ⟨.identifier, none, false, 11, 12, []⟩]⟩]⟩]⟩]⟩]⟩

/-- The search refuses the first statement of that method, although its window writes and reads
nothing, has no jump and no return, and hands on only one variable. -/
theorem refused_for_type_of_handed_on :
    (BlockSettings.of 1 1).minSize ≤ (Java.bodyStatements inferredMethod).length ∧
    findBlocksFrom inferredMethod inferredSource (.of 1 1) 0 = [] ∧
    ∀ size, IsWindow inferredMethod inferredSource (.of 1 1)
        (Java.bodyStatements inferredMethod) size →
      (∀ s ∈ (Java.bodyStatements inferredMethod).take size,
        namesWritten inferredMethod inferredSource s = [] ∧
        namesRead inferredMethod inferredSource s = [] ∧ ¬ Jumps s ∧ ¬ Returns s) ∧
      ∀ i j x y, HandsOn inferredSource ((Java.bodyStatements inferredMethod).take size)
          ((Java.bodyStatements inferredMethod).drop size) i x →
        HandsOn inferredSource ((Java.bodyStatements inferredMethod).take size)
          ((Java.bodyStatements inferredMethod).drop size) j y → (i, x) = (j, y) := by
  refine ⟨by decide, List.isEmpty_iff.mp (by decide +kernel), fun size hwindow => ?_⟩
  have hsize : size = 1 := by
    obtain ⟨hmin, hmax, -⟩ := hwindow.size_le (by decide)
    exact Nat.le_antisymm hmax hmin
  subst hsize
  constructor
  · have hfacts : ∀ s ∈ (Java.bodyStatements inferredMethod).take 1,
        namesWritten inferredMethod inferredSource s = [] ∧
        namesRead inferredMethod inferredSource s = [] ∧
        (StatementFacts.of inferredMethod inferredSource s).hasEscapingJump = false ∧
        (StatementFacts.of inferredMethod inferredSource s).hasReturn = false := by
      decide +kernel
    intro s hs
    obtain ⟨hwritten, hread, hjump, hreturn⟩ := hfacts s hs
    rw [← Bool.not_eq_true, StatementFacts.hasEscapingJump_of] at hjump
    rw [← Bool.not_eq_true, StatementFacts.hasReturn_of] at hreturn
    exact ⟨hwritten, hread, hjump, hreturn⟩
  · have hhanded : handedOn inferredMethod inferredSource
        ((Java.bodyStatements inferredMethod).take 1)
        ((Java.bodyStatements inferredMethod).drop 1) = [(0, "x")] := by
      decide +kernel
    intro i j x y hx hy
    rw [← mem_handedOn inferredMethod, hhanded, List.mem_singleton] at hx hy
    rw [hx, hy]

end Amend.Extraction
