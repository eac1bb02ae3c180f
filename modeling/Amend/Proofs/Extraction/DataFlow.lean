import Amend.Proofs.Extraction.Search

/-!
# A block does outside what it does in place

Statements are taken to do anything that their facts allow: what they do depends on the variables
that they use or define, and they change those that they define.  A block that is run where it
stands sees all variables that are visible there.  Lifted into a method it sees its parameters, and
only the variable that it hands on comes back.  What the rest of the method can see of the two is
the same.
-/

namespace Amend.Extraction

open Syntax
open StatementFacts (namesRead namesWritten namesDeclared namesIntroduced Returns)

/-! ## What statements do -/

/-- The values of the variables that have one. -/
abbrev Env (V : Type) := String → Option V

/-- What the statements of a body do, by their indices: the values that they leave, and what they
return if they return. -/
abbrev Semantics (V R : Type) := Nat → Env V → Env V × Option R

section Run

variable {V R : Type} {method : Node} {source : String} {exec : Semantics V R}

/-- Two environments give some names the same values. -/
def AgreeOn (names : String → Prop) (ρ σ : Env V) : Prop := ∀ x, names x → ρ x = σ x

/-- A statement uses or defines a name. -/
def StatementFacts.Touches (f : StatementFacts) (x : String) : Prop :=
  f.used.has x = true ∨ f.defined.has x = true

/-- Each statement depends on what it uses and defines, and changes what it defines. -/
structure Respects (method : Node) (source : String) (exec : Semantics V R) : Prop where
  depends : ∀ i s, (Java.bodyStatements method)[i]? = some s → ∀ ρ σ,
    AgreeOn (StatementFacts.of method source s).Touches ρ σ →
      AgreeOn (StatementFacts.of method source s).Touches (exec i ρ).1 (exec i σ).1 ∧
        (exec i ρ).2 = (exec i σ).2
  changes : ∀ i s, (Java.bodyStatements method)[i]? = some s → ∀ ρ x,
    (StatementFacts.of method source s).defined.has x = false → (exec i ρ).1 x = ρ x

/-- Runs `n` statements from index `i` on, up to the first one that returns. -/
def run (exec : Semantics V R) : Nat → Nat → Env V → Env V × Option R
  | _, 0, ρ => (ρ, none)
  | i, n + 1, ρ =>
    match exec i ρ with
    | (σ, some r) => (σ, some r)
    | (σ, none) => run exec (i + 1) n σ

/-- One statement keeps two environments in agreement on names among which it works. -/
theorem Respects.agree_exec (h : Respects method source exec) {names : String → Prop} {i : Nat}
    {s : Node} (hs : (Java.bodyStatements method)[i]? = some s)
    (hnames : ∀ x, (StatementFacts.of method source s).Touches x → names x) {ρ σ : Env V}
    (hagree : AgreeOn names ρ σ) :
    AgreeOn names (exec i ρ).1 (exec i σ).1 ∧ (exec i ρ).2 = (exec i σ).2 := by
  obtain ⟨hvalues, houtcome⟩ := h.depends i s hs ρ σ fun x hx => hagree x (hnames x hx)
  refine ⟨fun x hx => ?_, houtcome⟩
  by_cases htouched : (StatementFacts.of method source s).Touches x
  · exact hvalues x htouched
  · have hundefined : (StatementFacts.of method source s).defined.has x = false :=
      Bool.not_eq_true _ ▸ fun hd => htouched (Or.inr hd)
    rw [h.changes i s hs ρ x hundefined, h.changes i s hs σ x hundefined]
    exact hagree x hx

/-- A run keeps two environments in agreement on names among which its statements work, and ends
in the same way in both. -/
theorem Respects.agree_run (h : Respects method source exec) {names : String → Prop} {i n : Nat}
    (hn : i + n ≤ (Java.bodyStatements method).length)
    (hnames : ∀ s ∈ ((Java.bodyStatements method).drop i).take n, ∀ x,
      (StatementFacts.of method source s).Touches x → names x) {ρ σ : Env V}
    (hagree : AgreeOn names ρ σ) :
    AgreeOn names (run exec i n ρ).1 (run exec i n σ).1 ∧
      (run exec i n ρ).2 = (run exec i n σ).2 := by
  induction n generalizing i ρ σ with
  | zero => exact ⟨hagree, rfl⟩
  | succ n ih =>
    have hi : i < (Java.bodyStatements method).length := by omega
    have hdrop := List.drop_eq_getElem_cons hi
    rw [hdrop, List.take_succ_cons] at hnames
    obtain ⟨hvalues, houtcome⟩ := h.agree_exec (List.getElem?_eq_getElem hi)
      (hnames _ List.mem_cons_self) hagree
    rw [run, run]
    rcases hρ : exec i ρ with ⟨ρ', outcome⟩
    rcases hσ : exec i σ with ⟨σ', outcome'⟩
    rw [hρ, hσ] at hvalues houtcome
    obtain rfl : outcome = outcome' := houtcome
    cases outcome with
    | some r => exact ⟨hvalues, rfl⟩
    | none =>
      exact ih (by omega) (fun s hs => hnames s (List.mem_cons_of_mem _ hs)) hvalues

/-- A run changes no name that none of its statements defines. -/
theorem Respects.run_unchanged (h : Respects method source exec) {i n : Nat} {x : String}
    (hn : i + n ≤ (Java.bodyStatements method).length)
    (hx : ¬ Defines method source (((Java.bodyStatements method).drop i).take n) x) (ρ : Env V) :
    (run exec i n ρ).1 x = ρ x := by
  induction n generalizing i ρ with
  | zero => rfl
  | succ n ih =>
    have hi : i < (Java.bodyStatements method).length := by omega
    have hdrop := List.drop_eq_getElem_cons hi
    rw [hdrop, List.take_succ_cons] at hx
    have hkept : (exec i ρ).1 x = ρ x := by
      refine h.changes i _ (List.getElem?_eq_getElem hi) ρ x ?_
      rw [← Bool.not_eq_true, has_defined]
      exact fun hdefined => hx ⟨_, List.mem_cons_self, hdefined⟩
    have hrest : ¬ Defines method source (((Java.bodyStatements method).drop (i + 1)).take n) x := by
      rintro ⟨s, hs, hdefined⟩
      exact hx ⟨s, List.mem_cons_of_mem _ hs, hdefined⟩
    rw [run]
    rcases hρ : exec i ρ with ⟨σ, outcome⟩
    rw [hρ] at hkept
    cases outcome with
    | some r => exact hkept
    | none => exact (ih (by omega) hrest σ).trans hkept

end Run

/-! ## Visible variables -/

section Visible

variable (method : Node) (source : String)

/-- A variable is visible in front of statement `i` of a body: it is declared outside the body, or
an earlier statement introduces it. -/
def Visible (i : Nat) (x : String) : Prop :=
  (∃ n ∈ MethodScope.sites method, n.text source = x ∧
    ∀ s ∈ Java.bodyStatements method, s.contains n = false) ∨
  ∃ j s, j < i ∧ (Java.bodyStatements method)[j]? = some s ∧ x ∈ namesIntroduced source s

/-- No statement declares a name, at any depth, that is visible in front of it. -/
def NeverRedeclared : Prop :=
  ∀ i s x, (Java.bodyStatements method)[i]? = some s →
    x ∈ namesDeclared method source s ∨ x ∈ namesIntroduced source s → ¬ Visible method source i x

variable {method source}

theorem Visible.mono {i j : Nat} {x : String} (h : Visible method source i x) (hij : i ≤ j) :
    Visible method source j x := by
  rcases h with houter | ⟨k, s, hk, hs, hx⟩
  · exact Or.inl houter
  · exact Or.inr ⟨k, s, by omega, hs, hx⟩

end Visible

/-! ## Running a block as a method -/

section Lifted

variable {V R : Type}

/-- An environment with the values of some parameters and nothing else. -/
def passed (ps : List BlockParameter) (ρ : Env V) : Env V :=
  fun x => if x ∈ ps.map (·.name) then ρ x else none

/-- The caller's environment after the call: the variable that the block hands on has the value that
it has at the end of the block. -/
def BlockReturn.handBack (returns : BlockReturn) (after before : Env V) : Env V :=
  match returns with
  | .variable name _ => fun x => if x = name then after x else before x
  | .nothing | .value _ | .exit => before

/-- A block that ends in a `return`. -/
def BlockReturn.IsReturn : BlockReturn → Prop
  | .value _ | .exit => True
  | .nothing | .variable _ _ => False

/-- What a block does where it stands. -/
def Block.inPlace (b : Block) (exec : Semantics V R) (ρ : Env V) : Env V × Option R :=
  run exec b.firstIndex b.size ρ

/-- What a block does as a method. -/
def Block.lifted (b : Block) (exec : Semantics V R) (ρ : Env V) : Env V × Option R :=
  let (after, outcome) := run exec b.firstIndex b.size (passed b.parameters ρ)
  (b.returns.handBack after ρ, outcome)

end Lifted

section Block

variable {V R : Type} {method : Node} {source : String} {settings : BlockSettings} {first : Nat}
  {b : Block} {exec : Semantics V R}

/-- The statements of a block stand in the body where its indices say. -/
theorem IsBlock.mem_window (h : IsBlock method source settings first b) {s : Node} :
    s ∈ ((Java.bodyStatements method).drop b.firstIndex).take b.size ↔
      ∃ j, b.firstIndex ≤ j ∧ j ≤ b.lastIndex ∧ (Java.bodyStatements method)[j]? = some s := by
  have hordered := h.ordered
  rw [Block.size, List.mem_iff_getElem?]
  constructor
  · rintro ⟨i, hi⟩
    have hlt := (List.getElem?_eq_some_iff.mp hi).1
    rw [List.length_take] at hlt
    rw [List.getElem?_take_of_lt (by omega), List.getElem?_drop] at hi
    exact ⟨b.firstIndex + i, by omega, by omega, hi⟩
  · rintro ⟨j, hfirst, hlast, hj⟩
    refine ⟨j - b.firstIndex, ?_⟩
    rw [List.getElem?_take_of_lt (by omega), List.getElem?_drop, Nat.add_sub_cancel' hfirst]
    exact hj

theorem IsBlock.stop_le (h : IsBlock method source settings first b) :
    b.firstIndex + b.size ≤ (Java.bodyStatements method).length := by
  have hbody := h.inBody
  have hordered := h.ordered
  rw [Block.size]
  omega

/-- What is visible in front of a block is not defined in it. -/
theorem IsBlock.not_defines (h : IsBlock method source settings first b)
    (hnever : NeverRedeclared method source) {x : String}
    (hx : Visible method source b.firstIndex x) :
    ¬ Defines method source (((Java.bodyStatements method).drop b.firstIndex).take b.size) x := by
  rintro ⟨s, hs, hdefines⟩
  -- what a block writes it declares itself
  obtain ⟨t, ht, hdeclared⟩ : ∃ t ∈ ((Java.bodyStatements method).drop b.firstIndex).take b.size,
      x ∈ namesDeclared method source t := by
    rcases hdefines with hdeclared | hwritten
    · exact ⟨s, hs, hdeclared⟩
    · exact h.lifts.writesOwn s hs x hwritten
  obtain ⟨j, hfirst, -, hj⟩ := h.mem_window.mp ht
  exact hnever j t x hj (Or.inl hdeclared) (hx.mono hfirst)

/-- The two runs of a block start in agreement on all that its statements use or define. -/
theorem IsBlock.agree_passed (h : IsBlock method source settings first b)
    (hnever : NeverRedeclared method source) {before : Env V}
    (hbefore : ∀ x, ¬ Visible method source b.firstIndex x → before x = none) :
    AgreeOn (fun x => b.used.has x = true ∨ b.defined.has x = true)
      (passed b.parameters before) before := by
  intro x hx
  rw [passed]
  split
  · rfl
  · rename_i hparameter
    rw [h.lifts.parameters] at hparameter
    have hdefined : b.defined.has x = true := by
      rcases hx with hused | hdefined
      · by_contra hnot
        exact hparameter ⟨hused, Bool.not_eq_true _ ▸ hnot⟩
      · exact hdefined
    refine (hbefore x fun hvisible => ?_).symm
    exact h.not_defines hnever hvisible ((h.lifts.defined x).mp hdefined)

/-- The variable that comes back was introduced by the block. -/
theorem IsBlock.introduced (h : IsBlock method source settings first b) {x type : String}
    (hreturns : b.returns = .variable x type) :
    ∃ j s, b.firstIndex ≤ j ∧ (Java.bodyStatements method)[j]? = some s ∧
      x ∈ namesIntroduced source s := by
  have hgoesOn : ∀ s ∈ ((Java.bodyStatements method).drop b.firstIndex).take b.size,
      ¬ Returns s := by
    intro s hs hreturn
    rcases h.lifts.endsInReturn ⟨s, hs, hreturn⟩ with heq | ⟨type', heq⟩
    · exact absurd (hreturns.symm.trans heq) nofun
    · exact absurd (hreturns.symm.trans heq) nofun
  by_cases hhands : ∃ i y, HandsOn source
      (((Java.bodyStatements method).drop b.firstIndex).take b.size)
      ((Java.bodyStatements method).drop (b.lastIndex + 1)) i y
  · obtain ⟨i, y, hy⟩ := hhands
    obtain ⟨⟨type', -, heq⟩, -⟩ := h.lifts.handsOn hgoesOn i y hy
    obtain ⟨rfl, -⟩ := BlockReturn.variable.inj (hreturns.symm.trans heq)
    obtain ⟨s, hs, hx⟩ := hy.introduced
    obtain ⟨j, hj, -, hjs⟩ := h.mem_window.mp (List.mem_of_getElem? hs)
    exact ⟨j, s, hj, hjs, hx⟩
  · push Not at hhands
    exact absurd (hreturns.symm.trans (h.lifts.handsOnNothing hgoesOn hhands)) nofun

/-- The two runs of a block end in the same way and in agreement on all that its statements use or
define. -/
theorem IsBlock.agree_run (h : IsBlock method source settings first b)
    (hnever : NeverRedeclared method source) (hexec : Respects method source exec)
    {before : Env V} (hbefore : ∀ x, ¬ Visible method source b.firstIndex x → before x = none) :
    AgreeOn (fun x => b.used.has x = true ∨ b.defined.has x = true)
        (run exec b.firstIndex b.size (passed b.parameters before)).1 (b.inPlace exec before).1 ∧
      (b.lifted exec before).2 = (b.inPlace exec before).2 := by
  refine hexec.agree_run h.stop_le (fun s hs x hx => ?_) (h.agree_passed hnever hbefore)
  rcases hx with hused | hdefined
  · rw [StatementFacts.has_used] at hused
    exact Or.inl ((h.lifts.used x).mpr ⟨s, hs, hused⟩)
  · rw [has_defined] at hdefined
    exact Or.inr ((h.lifts.defined x).mpr ⟨s, hs, hdefined⟩)

/-- A variable from before the block has its old value after it, however the block is run. -/
theorem IsBlock.lifted_old (h : IsBlock method source settings first b)
    (hnever : NeverRedeclared method source) (hexec : Respects method source exec)
    (before : Env V) {x : String} (hx : Visible method source b.firstIndex x) :
    (b.lifted exec before).1 x = before x ∧ (b.inPlace exec before).1 x = before x := by
  refine ⟨?_, hexec.run_unchanged h.stop_le (h.not_defines hnever hx) before⟩
  change b.returns.handBack _ before x = before x
  cases hreturns : b.returns with
  | «variable» y type =>
    obtain ⟨j, s, hj, hs, hy⟩ := h.introduced hreturns
    have hne : x ≠ y := by
      rintro rfl
      exact hnever j s x hs (Or.inr hy) (hx.mono hj)
    exact if_neg hne
  | nothing => rfl
  | value type => rfl
  | exit => rfl

/-- A variable that a block introduces and the rest refers to comes back, unless the block ends in a
return. -/
theorem IsBlock.lifted_new (h : IsBlock method source settings first b)
    (hnever : NeverRedeclared method source) (hexec : Respects method source exec)
    {before : Env V} (hbefore : ∀ x, ¬ Visible method source b.firstIndex x → before x = none)
    (hgoesOn : ¬ b.returns.IsReturn) {j k : Nat} {s t : Node} {x : String}
    (hnew : ¬ Visible method source b.firstIndex x) (hj : b.firstIndex ≤ j) (hlast : j ≤ b.lastIndex)
    (hs : (Java.bodyStatements method)[j]? = some s) (hx : x ∈ namesIntroduced source s)
    (hk : b.lastIndex < k) (ht : (Java.bodyStatements method)[k]? = some t)
    (hrefers : Java.variableReferences t source x ≠ []) :
    (b.lifted exec before).1 x = (b.inPlace exec before).1 x := by
  have hnoReturn : ∀ s ∈ ((Java.bodyStatements method).drop b.firstIndex).take b.size,
      ¬ Returns s := by
    intro s hs hreturn
    refine hgoesOn ?_
    rcases h.lifts.endsInReturn ⟨s, hs, hreturn⟩ with heq | ⟨type, heq⟩
    · rw [heq]
      trivial
    · rw [heq]
      trivial
  have hhands : HandsOn source (((Java.bodyStatements method).drop b.firstIndex).take b.size)
      ((Java.bodyStatements method).drop (b.lastIndex + 1)) (j - b.firstIndex) x := by
    have hordered := h.ordered
    refine ⟨⟨s, ?_, hx⟩, t, ?_, hrefers⟩
    · rw [List.getElem?_take_of_lt (by rw [Block.size]; omega), List.getElem?_drop,
        Nat.add_sub_cancel' hj]
      exact hs
    · refine List.mem_iff_getElem?.mpr ⟨k - (b.lastIndex + 1), ?_⟩
      rw [List.getElem?_drop, Nat.add_sub_cancel' (by omega)]
      exact ht
  obtain ⟨⟨type, -, hreturns⟩, -⟩ := h.lifts.handsOn hnoReturn _ _ hhands
  have hback : (b.lifted exec before).1 x =
      (run exec b.firstIndex b.size (passed b.parameters before)).1 x := by
    change b.returns.handBack _ before x = _
    rw [hreturns]
    exact if_pos rfl
  rw [hback]
  by_cases htouched : b.used.has x = true ∨ b.defined.has x = true
  · exact (h.agree_run hnever hexec hbefore).1 x htouched
  · -- what no statement of the block uses or defines has no value in either run
    have hundefined : ¬ Defines method source
        (((Java.bodyStatements method).drop b.firstIndex).take b.size) x :=
      fun hdefines => htouched (Or.inr ((h.lifts.defined x).mpr hdefines))
    have hparameter : x ∉ b.parameters.map (·.name) :=
      fun hmem => htouched (Or.inl ((h.lifts.parameters x).mp hmem).1)
    rw [hexec.run_unchanged h.stop_le hundefined, Block.inPlace,
      hexec.run_unchanged h.stop_le hundefined, hbefore x hnew, passed, if_neg hparameter]

/-- A block that is run as a method ends as it ends in place, and each variable that is visible
behind it and that a later statement refers to has the value that it has there.  Where the block
ends in a return, nothing behind it is run, and only the variables from before it are meant. -/
theorem lifted_eq_inPlace (hnever : NeverRedeclared method source)
    (hb : b ∈ findBlocksFrom method source settings first)
    (hexec : Respects method source exec) {before : Env V}
    (hbefore : ∀ x, ¬ Visible method source b.firstIndex x → before x = none) :
    (b.lifted exec before).2 = (b.inPlace exec before).2 ∧
      ∀ k t x, b.lastIndex < k → (Java.bodyStatements method)[k]? = some t →
        Java.variableReferences t source x ≠ [] → Visible method source (b.lastIndex + 1) x →
        ¬ b.returns.IsReturn ∨ Visible method source b.firstIndex x →
        (b.lifted exec before).1 x = (b.inPlace exec before).1 x := by
  have hblock := (MethodFlow.searched_blocksFrom method source settings first).isBlock b hb
  refine ⟨(hblock.agree_run hnever hexec hbefore).2, ?_⟩
  intro k t x hk ht hrefers hbehind hgoesOn
  by_cases hold : Visible method source b.firstIndex x
  · obtain ⟨hlifted, hplace⟩ := hblock.lifted_old hnever hexec before hold
    rw [hlifted, hplace]
  · rcases hbehind with houter | ⟨j, s, hj, hs, hx⟩
    · exact absurd (Or.inl houter) hold
    · have hfirst : b.firstIndex ≤ j := by
        by_contra hlt
        exact hold (Or.inr ⟨j, s, by omega, hs, hx⟩)
      exact hblock.lifted_new hnever hexec hbefore (hgoesOn.resolve_right hold) hold hfirst
        (Nat.le_of_lt_succ hj) hs hx hk ht hrefers

end Block

/-! ## A method whose last statement is never reached -/

/-- The text of a method with a call behind its `return`. -/
def unreachableSource : String := "int f(int a){int x=a;return x;g(x);}"

/-- The method of that text. -/
def unreachableMethod : Node := .root
  ⟨.methodDeclaration, none, false, 0, 36, [
    ⟨.integralType, some .type, false, 0, 3, []⟩,
    ⟨.identifier, some .name, false, 4, 5, []⟩,
    ⟨.formalParameters, some .parameters, false, 5, 12, [
      ⟨.formalParameter, none, false, 6, 11, [
        ⟨.integralType, some .type, false, 6, 9, []⟩,
        ⟨.identifier, some .name, false, 10, 11, []⟩]⟩]⟩,
    ⟨.block, some .body, false, 12, 36, [
      ⟨.localVariableDeclaration, none, false, 13, 21, [
        ⟨.integralType, some .type, false, 13, 16, []⟩,
        ⟨.variableDeclarator, some .declarator, false, 17, 20, [
          ⟨.identifier, some .name, false, 17, 18, []⟩,
          ⟨.identifier, some .value, false, 19, 20, []⟩]⟩]⟩,
      ⟨.returnStatement, none, false, 21, 30, [
        ⟨.identifier, none, false, 28, 29, []⟩]⟩,
      ⟨.expressionStatement, none, false, 30, 35, [
        ⟨.methodInvocation, none, false, 30, 34, [
          ⟨.identifier, some .name, false, 30, 31, []⟩,
          ⟨.argumentList, some .arguments, false, 31, 34, [
            ⟨.identifier, none, false, 32, 33, []⟩]⟩]⟩]⟩]⟩]⟩

/-- The statements of that method: the first one copies the parameter, the second one returns the
copy. -/
def copyAndReturn : Semantics Nat Nat
  | 0, ρ => (fun x => if x = "x" then ρ "a" else ρ x, none)
  | 1, ρ => (ρ, ρ "x")
  | _, ρ => (ρ, none)

/-- The call of that method with 7. -/
def calledWithSeven : Env Nat := fun x => if x = "a" then some 7 else none

/-- What each statement of that method reads, declares, writes and introduces. -/
theorem names_unreachableMethod {i : Nat} {s : Node}
    (hs : (Java.bodyStatements unreachableMethod)[i]? = some s) :
    [(["a"], ["x"], [], ["x"]), (["x"], [], [], []), (["x"], [], [], [])][i]? =
      some (namesRead unreachableMethod unreachableSource s,
        namesDeclared unreachableMethod unreachableSource s,
        namesWritten unreachableMethod unreachableSource s,
        namesIntroduced unreachableSource s) := by
  have hall : (Java.bodyStatements unreachableMethod).map (fun s =>
      (namesRead unreachableMethod unreachableSource s,
        namesDeclared unreachableMethod unreachableSource s,
        namesWritten unreachableMethod unreachableSource s,
        namesIntroduced unreachableSource s)) =
      [(["a"], ["x"], [], ["x"]), (["x"], [], [], []), (["x"], [], [], [])] := by
    decide +kernel
  rw [← hall, List.getElem?_map, hs]
  rfl

theorem neverRedeclared_unreachableMethod :
    NeverRedeclared unreachableMethod unreachableSource := by
  intro i s x hs hx
  have hnames := names_unreachableMethod hs
  match i with
  | 0 =>
    simp only [List.getElem?_cons_zero, Option.some.injEq, Prod.mk.injEq] at hnames
    obtain ⟨-, hdeclared, -, hintroduced⟩ := hnames
    rw [← hdeclared, ← hintroduced, or_self, List.mem_singleton] at hx
    subst hx
    have hinside : ∀ n ∈ MethodScope.sites unreachableMethod, n.text unreachableSource = "x" →
        ∃ s ∈ Java.bodyStatements unreachableMethod, s.contains n = true := by
      decide +kernel
    rintro (⟨n, hn, htext, houtside⟩ | ⟨j, t, hj, -⟩)
    · obtain ⟨t, ht, hcontains⟩ := hinside n hn htext
      rw [houtside t ht] at hcontains
      cases hcontains
    · exact absurd hj (Nat.not_lt_zero j)
  | i + 1 =>
    have hnothing : namesDeclared unreachableMethod unreachableSource s = [] ∧
        namesIntroduced unreachableSource s = [] := by
      match i with
      | 0 | 1 =>
        simp only [List.getElem?_cons_succ, List.getElem?_cons_zero, Option.some.injEq,
          Prod.mk.injEq] at hnames
        exact ⟨hnames.2.1.symm, hnames.2.2.2.symm⟩
      | i + 2 => simp at hnames
    rw [hnothing.1, hnothing.2] at hx
    rcases hx with hx | hx <;> cases hx

theorem respects_copyAndReturn : Respects unreachableMethod unreachableSource copyAndReturn where
  depends := by
    intro i s hs ρ σ hagree
    have hnames := names_unreachableMethod hs
    match i with
    | 0 =>
      simp only [List.getElem?_cons_zero, Option.some.injEq, Prod.mk.injEq] at hnames
      obtain ⟨hread, -⟩ := hnames
      have ha : ρ "a" = σ "a" := by
        refine hagree "a" (Or.inl ?_)
        rw [StatementFacts.has_used, ← hread]
        exact List.mem_singleton_self _
      refine ⟨fun x hx => ?_, rfl⟩
      change (if x = "x" then ρ "a" else ρ x) = if x = "x" then σ "a" else σ x
      rw [ha, hagree x hx]
    | 1 =>
      simp only [List.getElem?_cons_succ, List.getElem?_cons_zero, Option.some.injEq,
        Prod.mk.injEq] at hnames
      obtain ⟨hread, -⟩ := hnames
      refine ⟨hagree, hagree "x" (Or.inl ?_)⟩
      rw [StatementFacts.has_used, ← hread]
      exact List.mem_singleton_self _
    | i + 2 => exact ⟨hagree, rfl⟩
  changes := by
    intro i s hs ρ x hx
    match i with
    | 0 =>
      have hnames := names_unreachableMethod hs
      simp only [List.getElem?_cons_zero, Option.some.injEq, Prod.mk.injEq] at hnames
      refine if_neg fun heq => ?_
      rw [← Bool.not_eq_true, has_defined, ← hnames.2.1, heq] at hx
      exact hx (Or.inl (List.mem_singleton_self _))
    | 1 => rfl
    | i + 2 => rfl

theorem visible_of_calledWithSeven {x : String}
    (h : ¬ Visible unreachableMethod unreachableSource 0 x) : calledWithSeven x = none := by
  refine if_neg fun hx => h (Or.inl ?_)
  subst hx
  decide +kernel

/-- The first statement introduces the copy. -/
theorem visible_copy {i : Nat} (h : 0 < i) : Visible unreachableMethod unreachableSource i "x" := by
  have hthere : ((Java.bodyStatements unreachableMethod)[0]?.map fun s =>
      (namesIntroduced unreachableSource s).contains "x") = some true := by
    decide +kernel
  obtain ⟨s, hs, hx⟩ := Option.map_eq_some_iff.mp hthere
  exact Or.inr ⟨0, s, h, hs, List.contains_iff_mem.mp hx⟩

/-- The other two statements refer to the copy. -/
theorem refers_copy {k : Nat} (hk : k = 1 ∨ k = 2) :
    ∃ t, (Java.bodyStatements unreachableMethod)[k]? = some t ∧
      Java.variableReferences t unreachableSource "x" ≠ [] := by
  have hthere : ((Java.bodyStatements unreachableMethod)[k]?.map fun t =>
      (Java.variableReferences t unreachableSource "x").isEmpty) = some false := by
    rcases hk with rfl | rfl <;> decide +kernel
  obtain ⟨t, ht, hx⟩ := Option.map_eq_some_iff.mp hthere
  rw [← Bool.not_eq_true, List.isEmpty_iff] at hx
  exact ⟨t, ht, hx⟩

/-- The first statement of that method, as a method of its own, hands its copy back. -/
theorem lifted_copy : ∃ b ∈ findBlocksFrom unreachableMethod unreachableSource (.of 1 1) 0,
    b.returns = .variable "x" "int" ∧
    (b.lifted copyAndReturn calledWithSeven).2 = (b.inPlace copyAndReturn calledWithSeven).2 ∧
    (b.lifted copyAndReturn calledWithSeven).1 "x" =
      (b.inPlace copyAndReturn calledWithSeven).1 "x" := by
  have hfound : ∃ b ∈ findBlocksFrom unreachableMethod unreachableSource (.of 1 1) 0,
      b.firstIndex = 0 ∧ b.lastIndex = 0 ∧ b.returns = .variable "x" "int" := by
    decide +kernel
  obtain ⟨b, hb, hfirst, hlast, hreturns⟩ := hfound
  obtain ⟨houtcome, hvalues⟩ := lifted_eq_inPlace neverRedeclared_unreachableMethod hb
    respects_copyAndReturn
    (fun x hx => visible_of_calledWithSeven (hfirst ▸ hx) : ∀ x, _ → calledWithSeven x = none)
  obtain ⟨t, ht, hrefers⟩ := refers_copy (Or.inl rfl)
  refine ⟨b, hb, hreturns, houtcome, hvalues 1 t "x" ?_ ht hrefers (visible_copy ?_) (Or.inl ?_)⟩
  · rw [hlast]
    exact Nat.one_pos
  · exact Nat.succ_pos _
  · rw [hreturns]
    exact id

/-- Its first two statements, as a method of their own, return the copy, but the caller's
environment does not have it. -/
theorem lifted_loses_returned_copy :
    NeverRedeclared unreachableMethod unreachableSource ∧
    Respects unreachableMethod unreachableSource copyAndReturn ∧
    ∃ b ∈ findBlocksFrom unreachableMethod unreachableSource (.of 2 2) 0,
      (∀ x, ¬ Visible unreachableMethod unreachableSource b.firstIndex x →
        calledWithSeven x = none) ∧
      ∃ k t x, b.lastIndex < k ∧ (Java.bodyStatements unreachableMethod)[k]? = some t ∧
        Java.variableReferences t unreachableSource x ≠ [] ∧
        Visible unreachableMethod unreachableSource (b.lastIndex + 1) x ∧
        (b.lifted copyAndReturn calledWithSeven).1 x = none ∧
        (b.inPlace copyAndReturn calledWithSeven).1 x = some 7 := by
  have hfound : ∃ b ∈ findBlocksFrom unreachableMethod unreachableSource (.of 2 2) 0,
      b.firstIndex = 0 ∧ b.lastIndex = 1 ∧ b.returns = .value "int" := by
    decide +kernel
  obtain ⟨b, hb, hfirst, hlast, hreturns⟩ := hfound
  obtain ⟨t, ht, hrefers⟩ := refers_copy (Or.inr rfl)
  refine ⟨neverRedeclared_unreachableMethod, respects_copyAndReturn, b, hb,
    fun x hx => visible_of_calledWithSeven (hfirst ▸ hx), 2, t, "x", ?_, ht, hrefers,
    visible_copy (Nat.succ_pos _), ?_, ?_⟩
  · rw [hlast]
    exact Nat.one_lt_two
  · change b.returns.handBack _ calledWithSeven "x" = none
    rw [hreturns]
    rfl
  · rw [Block.inPlace, Block.size, hfirst, hlast]
    rfl

end Amend.Extraction
