import Amend.Proofs.Refactoring.Inline
import Mathlib.Data.List.Nodup
import Mathlib.Data.List.Perm.Subperm

/-!
# What inlining does to the order of effects

A call first does what its arguments do, one after the other, and then what the method's expression
does.  In the inlined expression an argument does it where its parameter stood.  The checks of the
substitution see to it that parameters of arguments with effects stand there once each and in order.
They do not see to it that evaluation gets that far, or that the expression does nothing before:
where both hold, the effects stay as they were.
-/

namespace Amend.Refactoring.Inline

open Syntax

section Substitutions

variable {source : String} {expression : Node} {line : Nat} {pairs : List (String × Node)}
  {edits : List TextEdit}

/-- The edits that put an argument in the place of its parameter. -/
def paramEdits (expression : Node) (source param : String) (arg : Node) : List TextEdit :=
  (Java.variableReferences expression source param).map fun use =>
    .replace (use.start - expression.start) (use.stop - expression.start)
      (argumentText arg source) ("substitute " ++ param)

/-- One more parameter that is accepted: an argument without effects leaves the last effect where it
is, and one with effects has a single use, not before the last effect. -/
theorem substitutions_cons_eq_ok {lastEffect : Option (Nat × String)} {param : String} {arg : Node}
    (h : substitutions expression source line lastEffect ((param, arg) :: pairs) = .ok edits) :
    ∃ nextEffect rest, substitutions expression source line nextEffect pairs = .ok rest ∧
      edits = paramEdits expression source param arg ++ rest ∧
      (Java.hasSideEffects arg = false ∧ nextEffect = lastEffect ∨
        Java.hasSideEffects arg = true ∧
          ∃ use, Java.variableReferences expression source param = [use] ∧
            nextEffect = some (use.start, param) ∧ ∀ last ∈ lastEffect, last.1 ≤ use.start) := by
  rw [substitutions] at h
  split at h
  · next heffects =>
    split at h
    · next use huse =>
      split at h
      · next previous earlier =>
        obtain ⟨horder, h⟩ := passed_of_eq_ok h
        obtain ⟨_, ⟨⟩, h⟩ := exists_of_bind_eq_ok h
        obtain ⟨rest, hrest, h⟩ := exists_of_bind_eq_ok h
        cases h
        refine ⟨_, rest, hrest, rfl, .inr ⟨heffects, use, huse, rfl, ?_⟩⟩
        rintro last ⟨⟩
        exact Nat.le_of_not_lt horder
      · obtain ⟨_, ⟨⟩, h⟩ := exists_of_bind_eq_ok h
        obtain ⟨rest, hrest, h⟩ := exists_of_bind_eq_ok h
        cases h
        exact ⟨_, rest, hrest, rfl, .inr ⟨heffects, use, huse, rfl, nofun⟩⟩
    · cases h
  · next heffects =>
    obtain ⟨_, ⟨⟩, h⟩ := exists_of_bind_eq_ok h
    obtain ⟨rest, hrest, h⟩ := exists_of_bind_eq_ok h
    cases h
    exact ⟨_, rest, hrest, rfl, .inl ⟨Bool.eq_false_of_not_eq_true heffects, rfl⟩⟩

/-- A substitution is accepted if there is an argument for each parameter, the arguments with
effects are in order, and the edits of the expression's text do not clash. -/
theorem substitute_eq_ok_iff {params : List (String × String)} {call : Node} {text : String} :
    substitute expression source params call = .ok text ↔
      (Java.callArguments call).length = params.length ∧ ∃ edits set,
        substitutions expression source (call.firstLine source) none
          ((params.map (·.2)).zip (Java.callArguments call)) = .ok edits ∧
        EditSet.ofList edits (expression.text source).utf8ByteSize = .ok set ∧
        set.applyTo? (expression.text source) = some text := by
  rw [substitute]
  dsimp only
  constructor
  · intro h
    split at h
    · cases h
    next hlength =>
    obtain ⟨edits, hedits, h⟩ := exists_of_bind_eq_ok h
    split at h
    · cases h
    next set hset =>
    split at h
    · next result hresult =>
      cases h
      exact ⟨not_not.mp hlength, edits, set, hedits, hset, hresult⟩
    · cases h
  · rintro ⟨hlength, edits, set, hedits, hset, happly⟩
    rw [if_neg (not_not.mpr hlength), hedits]
    simp only [bind, Except.bind, hset, happly]
    rfl

/-- Of the parameters that stand for arguments with effects each has one use, and these are the
uses, in the order of the parameters. -/
def UsedOnce (expression : Node) (source : String) (pairs : List (String × Node))
    (uses : List Node) : Prop :=
  List.Forall₂ (fun pair use => Java.variableReferences expression source pair.1 = [use])
    (pairs.filter fun pair => Java.hasSideEffects pair.2) uses

/-- Arguments with effects are used once each, and their uses stand in order, behind the last effect
before them. -/
theorem exists_uses_of_substitutions {lastEffect : Option (Nat × String)}
    (h : substitutions expression source line lastEffect pairs = .ok edits) :
    ∃ uses : List Node, UsedOnce expression source pairs uses ∧
      uses.Pairwise (fun a b => a.start ≤ b.start) ∧
      ∀ last ∈ lastEffect, ∀ use ∈ uses, last.1 ≤ use.start := by
  induction pairs generalizing lastEffect edits with
  | nil => exact ⟨[], .nil, .nil, nofun⟩
  | cons pair pairs ih =>
    obtain ⟨param, arg⟩ := pair
    obtain ⟨nextEffect, rest, hrest, -, hcase⟩ := substitutions_cons_eq_ok h
    obtain ⟨uses, hpairs, horder, hlast⟩ := ih hrest
    rcases hcase with ⟨hquiet, rfl⟩ | ⟨heffects, use, huse, rfl, hbefore⟩
    · exact ⟨uses, by simpa [UsedOnce, hquiet] using hpairs, horder, hlast⟩
    · have hbehind : ∀ later ∈ uses, use.start ≤ later.start := hlast _ rfl
      refine ⟨use :: uses, by simpa [UsedOnce, heffects] using ⟨huse, hpairs⟩,
        .cons hbehind horder, ?_⟩
      intro last hmem later hlater
      rcases List.mem_cons.mp hlater with rfl | hlater
      · exact hbefore last hmem
      · exact Nat.le_trans (hbefore last hmem) (hbehind later hlater)

/-- Whether a node is a parameter that stands for an argument with effects. -/
def isEffectful (source : String) (pairs : List (String × Node)) (n : Node) : Bool :=
  pairs.any fun pair => Java.hasSideEffects pair.2 && Java.refersTo source pair.1 n

theorem isEffectful_iff {n : Node} : isEffectful source pairs n = true ↔
    ∃ pair ∈ pairs.filter fun pair => Java.hasSideEffects pair.2,
      Java.refersTo source pair.1 n = true := by
  simp [isEffectful, and_assoc]

variable {uses : List Node}

theorem mem_of_variableReferences_eq {name : String} {use : Node}
    (h : Java.variableReferences expression source name = [use]) :
    use ∈ expression.preorder ∧ Java.refersTo source name use = true := by
  have hmem : use ∈ Java.variableReferences expression source name := by
    rw [h]
    exact List.mem_singleton_self use
  rwa [Java.variableReferences_eq, List.mem_filter] at hmem

/-- The effectful parameters that are met are the uses of the arguments with effects. -/
theorem mem_filter_isEffectful_iff {n : Node}
    (hpairs : UsedOnce expression source pairs uses) :
    n ∈ expression.preorder.filter (isEffectful source pairs) ↔ n ∈ uses := by
  rw [List.mem_filter, isEffectful_iff]
  constructor
  · rintro ⟨hn, pair, hpair, hrefers⟩
    obtain ⟨use, huse, hone⟩ := exists_of_forall₂ hpairs hpair
    have hfound : n ∈ Java.variableReferences expression source pair.1 := by
      rw [Java.variableReferences_eq]
      exact List.mem_filter.mpr ⟨hn, hrefers⟩
    rw [hone, List.mem_singleton] at hfound
    exact hfound ▸ huse
  · intro hn
    obtain ⟨pair, hpair, hone⟩ := exists_of_forall₂ hpairs.flip hn
    obtain ⟨hmet, hrefers⟩ := mem_of_variableReferences_eq hone
    exact ⟨hmet, pair, hpair, hrefers⟩

/-- Different parameters have different uses. -/
theorem nodup_uses (hdistinct : (pairs.map (·.1)).Nodup)
    (hpairs : UsedOnce expression source pairs uses) : uses.Nodup := by
  have htexts : List.Forall₂ Eq ((pairs.filter fun pair => Java.hasSideEffects pair.2).map (·.1))
      (uses.map (·.text source)) := by
    rw [List.forall₂_map_left_iff, List.forall₂_map_right_iff]
    exact hpairs.imp fun pair use hone =>
      (Java.refersTo_iff.mp (mem_of_variableReferences_eq hone).2).2.1.symm
  rw [List.forall₂_eq_eq_eq] at htexts
  refine List.Nodup.of_map (·.text source) ?_
  rw [← htexts]
  exact hdistinct.sublist (List.filter_sublist.map _)

/-- In a tree that fits a source each effectful parameter starts before the next one that is met. -/
theorem pairwise_isEffectful (hfits : expression.tree.fits source = true)
    (hbare : expression.tree.wordsBare = true) (hnamed : ∀ pair ∈ pairs, pair.1 ≠ "") :
    (expression.preorder.filter (isEffectful source pairs)).Pairwise
      fun a b => a.start < b.start := by
  refine ((Node.pairwise_preorder hfits).filter _).imp_of_mem fun {a b} ha _ hab => ?_
  obtain ⟨hmet, heffectful⟩ := List.mem_filter.mp ha
  obtain ⟨pair, hpair, hrefers⟩ := isEffectful_iff.mp heffectful
  have hstop := hab (Java.children_of_refersTo
    ((Node.holds_of_mem_visit hmet).wordsBare hbare) hrefers)
  have hsome := Java.start_lt_stop_of_refersTo hrefers (hnamed pair (List.mem_of_mem_filter hpair))
  exact Nat.lt_of_lt_of_le hsome hstop

/-- The effectful parameters are met in the order of their arguments. -/
theorem filter_isEffectful_eq (hfits : expression.tree.fits source = true)
    (hbare : expression.tree.wordsBare = true) (hdistinct : (pairs.map (·.1)).Nodup)
    (hnamed : ∀ pair ∈ pairs, pair.1 ≠ "")
    (hpairs : UsedOnce expression source pairs uses)
    (horder : uses.Pairwise fun a b => a.start ≤ b.start) :
    expression.preorder.filter (isEffectful source pairs) = uses := by
  have hstrict := pairwise_isEffectful hfits hbare hnamed
  have hstarts : ((expression.preorder.filter (isEffectful source pairs)).map (·.start)).Nodup :=
    List.pairwise_map.mpr (hstrict.imp Nat.ne_of_lt)
  have hperm := (List.perm_ext_iff_of_nodup hstarts.of_map (nodup_uses hdistinct hpairs)).mpr
    fun n => mem_filter_isEffectful_iff hpairs
  refine hperm.eq_of_pairwise (fun a b ha hb hab hba => ?_) (hstrict.imp Nat.le_of_lt) horder
  exact List.inj_on_of_nodup_map hstarts ha ((mem_filter_isEffectful_iff hpairs).mpr hb)
    (Nat.le_antisymm hab hba)

end Substitutions

/-! ## Effects -/

section Effects

variable {Effect : Type} {source : String} {expression : Node} {pairs : List (String × Node)}
  {effects own : Node → List Effect} {args run uses : List Node}

/-- What a call does: its arguments, one after the other, and then the nodes of the expression that
are evaluated. -/
def callEffects (effects own : Node → List Effect) (args run : List Node) : List Effect :=
  args.flatMap effects ++ run.flatMap own

/-- What a node does in the inlined expression: a parameter does what its argument does. -/
def inlinedEffect (effects own : Node → List Effect) (source : String)
    (pairs : List (String × Node)) (n : Node) : List Effect :=
  match pairs.find? fun pair => Java.refersTo source pair.1 n with
  | some pair => effects pair.2
  | none => own n

/-- Reading a parameter does nothing, and neither does an argument that has no effects by its
look. -/
structure Sensible (effects own : Node → List Effect) (source : String)
    (pairs : List (String × Node)) : Prop where
  quiet : ∀ pair ∈ pairs, Java.hasSideEffects pair.2 = false → effects pair.2 = []
  reading : ∀ pair ∈ pairs, ∀ n, Java.refersTo source pair.1 n = true → own n = []

/-- The nodes that are evaluated, in their order: every parameter that stands for an argument with
effects is among them, and nothing is done before it. -/
structure ArgumentsFirst (own : Node → List Effect) (expression : Node) (source : String)
    (pairs : List (String × Node)) (run : List Node) : Prop where
  inOrder : run.Sublist expression.postorder
  reached : ∀ n ∈ expression.preorder, isEffectful source pairs n = true → n ∈ run
  first : run.Pairwise fun n use => isEffectful source pairs use = true → own n = []

/-- What the members of a list do, if some of them do it first and otherwise nothing. -/
theorem flatMap_eq_of_first {α : Type} {f g : α → List Effect} {p : α → Bool} {xs : List α}
    (hothers : ∀ x ∈ xs, p x = false → f x = g x) (hnothing : ∀ x ∈ xs, p x = true → g x = [])
    (hfirst : xs.Pairwise fun x y => p y = true → g x = []) :
    xs.flatMap f = (xs.filter p).flatMap f ++ xs.flatMap g := by
  induction xs with
  | nil => rfl
  | cons x xs ih =>
    obtain ⟨hx, hfirst⟩ := List.pairwise_cons.mp hfirst
    have hrest := ih (fun y hy => hothers y (List.mem_cons_of_mem x hy))
      (fun y hy => hnothing y (List.mem_cons_of_mem x hy)) hfirst
    rw [List.flatMap_cons, List.flatMap_cons, List.filter_cons, hrest]
    cases hp : p x with
    | true => simp [hnothing x List.mem_cons_self hp]
    | false =>
      rw [hothers x List.mem_cons_self hp]
      -- what does something has nothing of `p` behind it
      cases hnone : xs.filter p with
      | nil => simp
      | cons y ys =>
        have hy : y ∈ xs.filter p := by
          rw [hnone]
          exact List.mem_cons_self
        obtain ⟨hmem, hpy⟩ := List.mem_filter.mp hy
        simp [hx y hmem hpy]

/-- A parameter does what its argument does. -/
theorem inlinedEffect_of_refersTo {pair : String × Node} {n : Node}
    (hdistinct : (pairs.map (·.1)).Nodup) (hpair : pair ∈ pairs)
    (hrefers : Java.refersTo source pair.1 n = true) :
    inlinedEffect effects own source pairs n = effects pair.2 := by
  rw [inlinedEffect]
  cases hfind : pairs.find? fun pair => Java.refersTo source pair.1 n with
  | none => exact absurd hrefers (List.find?_eq_none.mp hfind pair hpair)
  | some other =>
    have hother := List.find?_some hfind
    have hname : other.1 = pair.1 :=
      (Java.refersTo_iff.mp hother).2.1.symm.trans (Java.refersTo_iff.mp hrefers).2.1
    rw [List.inj_on_of_nodup_map hdistinct (List.mem_of_find?_eq_some hfind) hpair hname]

/-- A node that is no effectful parameter does in the inlined expression what it did. -/
theorem inlinedEffect_of_not_isEffectful {n : Node} (hsensible : Sensible effects own source pairs)
    (h : isEffectful source pairs n = false) :
    inlinedEffect effects own source pairs n = own n := by
  rw [inlinedEffect]
  cases hfind : pairs.find? fun pair => Java.refersTo source pair.1 n with
  | none => rfl
  | some pair =>
    have hpair := List.mem_of_find?_eq_some hfind
    have hrefers := List.find?_some hfind
    have hquiet : Java.hasSideEffects pair.2 = false := by
      by_contra heffects
      have hsome := isEffectful_iff.mpr ⟨pair,
        List.mem_filter.mpr ⟨hpair, Bool.eq_true_of_not_eq_false heffects⟩, hrefers⟩
      rw [h] at hsome
      cases hsome
    exact (hsensible.quiet pair hpair hquiet).trans (hsensible.reading pair hpair n hrefers).symm

/-- The effectful parameters do in turn what the arguments do. -/
theorem flatMap_uses (hpairs : UsedOnce expression source pairs uses)
    (hdistinct : (pairs.map (·.1)).Nodup) (hsensible : Sensible effects own source pairs) :
    uses.flatMap (inlinedEffect effects own source pairs) =
      (pairs.map (·.2)).flatMap effects := by
  have hvalues : List.Forall₂ Eq
      ((pairs.filter fun pair => Java.hasSideEffects pair.2).map fun pair => effects pair.2)
      (uses.map (inlinedEffect effects own source pairs)) := by
    rw [List.forall₂_map_left_iff, List.forall₂_map_right_iff]
    refine ((List.forall₂_and_left _ _).mpr
      ⟨fun pair hpair => List.mem_of_mem_filter hpair, hpairs⟩).imp ?_
    rintro pair use ⟨hpair, hone⟩
    exact (inlinedEffect_of_refersTo hdistinct hpair (mem_of_variableReferences_eq hone).2).symm
  rw [List.forall₂_eq_eq_eq] at hvalues
  rw [List.flatMap_map, ← flatMap_filter_of_nil hsensible.quiet, List.flatMap_def,
    List.flatMap_def, hvalues]

/-- An evaluation comes to the effectful parameters in the order of their arguments. -/
theorem filter_run_eq (hfits : expression.tree.fits source = true)
    (hbare : expression.tree.wordsBare = true) (hdistinct : (pairs.map (·.1)).Nodup)
    (hnamed : ∀ pair ∈ pairs, pair.1 ≠ "") (hpairs : UsedOnce expression source pairs uses)
    (horder : uses.Pairwise fun a b => a.start ≤ b.start)
    (hrun : ArgumentsFirst own expression source pairs run) :
    run.filter (isEffectful source pairs) = uses := by
  have hmet := filter_isEffectful_eq hfits hbare hdistinct hnamed hpairs horder
  have hleaf (n : Node) (hn : expression.Holds n) (heffectful : isEffectful source pairs n = true) :
      n.tree.children = [] := by
    obtain ⟨pair, -, hrefers⟩ := isEffectful_iff.mp heffectful
    exact Java.children_of_refersTo (hn.wordsBare hbare) hrefers
  have hsublist : (run.filter (isEffectful source pairs)).Sublist uses := by
    rw [← hmet, ← Node.filter_postorder hleaf]
    exact hrun.inOrder.filter _
  have hall : uses ⊆ run.filter (isEffectful source pairs) := by
    intro n hn
    obtain ⟨hmem, heffectful⟩ := List.mem_filter.mp ((mem_filter_isEffectful_iff hpairs).mpr hn)
    exact List.mem_filter.mpr ⟨hrun.reached n hmem heffectful, heffectful⟩
  exact hsublist.eq_of_length_le ((nodup_uses hdistinct hpairs).subperm hall).length_le

/-- Inlining keeps the order of effects where evaluation gets as far as every parameter that stands
for an argument with effects, and does nothing before it.  The substitution itself makes sure of the
rest: each such argument is evaluated once, and after those before it. -/
theorem inlined_effects_eq {text : String} {params : List (String × String)} {call : Node}
    (hfits : expression.tree.fits source = true) (hbare : expression.tree.wordsBare = true)
    (hdistinct : (params.map (·.2)).Nodup) (hnamed : "" ∉ params.map (·.2))
    (h : substitute expression source params call = .ok text)
    (hsensible : Sensible effects own source ((params.map (·.2)).zip (Java.callArguments call)))
    (hrun : ArgumentsFirst own expression source
      ((params.map (·.2)).zip (Java.callArguments call)) run) :
    run.flatMap
        (inlinedEffect effects own source ((params.map (·.2)).zip (Java.callArguments call))) =
      callEffects effects own (Java.callArguments call) run := by
  obtain ⟨hlength, edits, -, hedits, -, -⟩ := substitute_eq_ok_iff.mp h
  generalize hpairs : (params.map (·.2)).zip (Java.callArguments call) = pairs at *
  have hnames : pairs.map (·.1) = params.map (·.2) := by
    rw [← hpairs, List.map_fst_zip (by rw [List.length_map, hlength])]
  have hargs : pairs.map (·.2) = Java.callArguments call := by
    rw [← hpairs, List.map_snd_zip (by rw [List.length_map, hlength])]
  rw [← hnames] at hdistinct
  have hnamed' : ∀ pair ∈ pairs, pair.1 ≠ "" := fun pair hpair hempty =>
    hnamed (hnames ▸ hempty ▸ List.mem_map_of_mem hpair)
  obtain ⟨uses, huses, horder, -⟩ := exists_uses_of_substitutions hedits
  have hmet := filter_run_eq hfits hbare hdistinct hnamed' huses horder hrun
  have hothers : ∀ n ∈ run, isEffectful source pairs n = false →
      inlinedEffect effects own source pairs n = own n :=
    fun n _ hn => inlinedEffect_of_not_isEffectful hsensible hn
  have hnothing : ∀ n ∈ run, isEffectful source pairs n = true → own n = [] := by
    intro n _ hn
    obtain ⟨pair, hpair, hrefers⟩ := isEffectful_iff.mp hn
    exact hsensible.reading pair (List.mem_of_mem_filter hpair) n hrefers
  rw [flatMap_eq_of_first hothers hnothing hrun.first, hmet, flatMap_uses huses hdistinct hsensible,
    hargs, callEffects]

/-- At every call that is replaced the order of effects is kept, where evaluation of the inlined
expression comes to the arguments with effects first. -/
theorem rewrite_keeps_effects {t : Tree} {d : Defect} {r : Rewrite} (hfits : t.fits source = true)
    (hbare : t.wordsBare = true) (h : rewrite d source t = .ok r) :
    ∃ m : Inlinable source t, m.calls ≠ [] ∧ ∀ call ∈ m.calls,
      (Java.callArguments call).length = m.params.length ∧
      ((m.params.map (·.2)).Nodup → "" ∉ m.params.map (·.2) →
        ∀ {effects own : Node → List Effect} {run : List Node},
          Sensible effects own source (m.pairs call) →
          ArgumentsFirst own m.expression source (m.pairs call) run →
          run.flatMap (inlinedEffect effects own source (m.pairs call)) =
            callEffects effects own (Java.callArguments call) run) := by
  obtain ⟨m, hfound, hsome⟩ := exists_inlinable h
  rw [m.rewrite_eq hfound hsome] at h
  obtain ⟨edits, hedits, -⟩ := exists_of_bind_eq_ok h
  have hheld := m.held.trans (holds_of_singleExpression? m.single)
  refine ⟨m, hsome, fun call hcall => ?_⟩
  obtain ⟨e, -, hedit⟩ := exists_of_forall₂ (forall₂_of_mapM_eq_ok hedits) hcall
  obtain ⟨-, -, inlined, hinlined, -⟩ := callEdit_eq_ok hedit
  refine ⟨(substitute_eq_ok_iff.mp hinlined).1, fun hdistinct hnamed effects own run => ?_⟩
  exact inlined_effects_eq (hheld.spans hfits).1 (hheld.wordsBare hbare) hdistinct hnamed hinlined

end Effects

/-! ## An argument that need not be evaluated -/

/-- A class whose method `pick` evaluates its second argument or drops it. -/
def pickSource : String :=
  "class Calc \x7b\n    int run(boolean flag) \x7b\n        return pick(flag, next());\n" ++
    "    \x7d\n\n    private int next() \x7b\n        return 4;\n    \x7d\n\n" ++
    "    private int pick(boolean c, int x) \x7b\n        return c ? x : 0;\n    \x7d\n\x7d\n"

/-- The expression of the method. -/
def pickExpression : Node := .root
  ⟨.ternaryExpression, none, false, 189, 198, [
    ⟨.identifier, some .condition, false, 189, 190, []⟩, ⟨.token "?", none, false, 191, 192, []⟩,
    ⟨.identifier, some .consequence, false, 193, 194, []⟩,
    ⟨.token ":", none, false, 195, 196, []⟩,
    ⟨.decimalIntegerLiteral, some .alternative, false, 197, 198, []⟩]⟩

/-- The call of the method. -/
def pickCall : Node := .root
  ⟨.methodInvocation, none, false, 56, 74, [⟨.identifier, some .name, false, 56, 60, []⟩,
    ⟨.argumentList, some .arguments, false, 60, 74, [⟨.token "(", none, false, 60, 61, []⟩,
    ⟨.identifier, none, false, 61, 65, []⟩, ⟨.token ",", none, false, 65, 66, []⟩,
    ⟨.methodInvocation, none, false, 67, 73, [⟨.identifier, some .name, false, 67, 71, []⟩,
    ⟨.argumentList, some .arguments, false, 71, 73, [⟨.token "(", none, false, 71, 72, []⟩,
    ⟨.token ")", none, false, 72, 73, []⟩]⟩]⟩, ⟨.token ")", none, false, 73, 74, []⟩]⟩]⟩

/-- Its parameters. -/
def pickParams : List (String × String) := [("boolean", "c"), ("int", "x")]

theorem substitute_pick :
    substitute pickExpression pickSource pickParams pickCall = .ok "flag ? next() : 0" := by
  have hedits : (substitutions pickExpression pickSource (pickCall.firstLine pickSource) none
      ((pickParams.map (·.2)).zip (Java.callArguments pickCall))).toOption =
        some [.replace 0 1 "flag" "substitute c", .replace 4 5 "next()" "substitute x"] := by
    decide +kernel
  refine substitute_eq_ok_iff.mpr ⟨by decide +kernel, _, _, EditSet.toOption_eq_some_iff.mp hedits,
    (EditSet.ofList_eq_ok_iff ⟨by decide +kernel, fun _ => rfl⟩ _).mpr ⟨rfl, ?_, ?_⟩,
    by decide +kernel⟩
  · simp only [TextEdit.Fits]
    decide +kernel
  · rw [TextEdit.Apart]
    decide +kernel

/-- What is evaluated when a part of the expression is passed over. -/
def pickRun (without : String) : List Node :=
  pickExpression.postorder.filter fun n => n.text pickSource != without

/-- A call is observed, and so is the choice when it is done. -/
def pickEffects (n : Node) : List String :=
  if n.kind = .methodInvocation ∨ n.kind = .ternaryExpression then [n.text pickSource] else []

/-- The parameters with their arguments. -/
def pickPairs : List (String × Node) := (pickParams.map (·.2)).zip (Java.callArguments pickCall)

theorem sensible_pick : Sensible pickEffects pickEffects pickSource pickPairs where
  quiet := by decide +kernel
  reading pair _ n hrefers := by simp [pickEffects, (Java.refersTo_iff.mp hrefers).1]

/-- Where the second argument is chosen, it is evaluated first. -/
theorem argumentsFirst_pick :
    ArgumentsFirst pickEffects pickExpression pickSource pickPairs (pickRun "0") where
  inOrder := List.filter_sublist
  reached n hn heffectful := by
    have hother : ∀ n ∈ pickExpression.preorder, isEffectful pickSource pickPairs n = true →
        n.text pickSource ≠ "0" := by
      decide +kernel
    exact List.mem_filter.mpr
      ⟨Node.mem_postorder_iff.mpr hn, bne_iff_ne.mpr (hother n hn heffectful)⟩
  first := by decide +kernel

/-- Where the second argument is chosen, the effects stay as they were. -/
theorem inlined_effects_eq_pick :
    (pickRun "0").flatMap (inlinedEffect pickEffects pickEffects pickSource pickPairs) =
      callEffects pickEffects pickEffects (Java.callArguments pickCall) (pickRun "0") :=
  inlined_effects_eq (by decide +kernel) (by decide +kernel) (by decide) (by decide)
    substitute_pick sensible_pick argumentsFirst_pick

/-- Where the other one is chosen, the call in the argument is lost. -/
theorem inlined_effects_ne_pick :
    substitute pickExpression pickSource pickParams pickCall = .ok "flag ? next() : 0" ∧
    (pickRun "x").Sublist pickExpression.postorder ∧
    (pickRun "x").flatMap (inlinedEffect pickEffects pickEffects pickSource pickPairs) =
      ["c ? x : 0"] ∧
    callEffects pickEffects pickEffects (Java.callArguments pickCall) (pickRun "x") =
      ["next()", "c ? x : 0"] :=
  ⟨substitute_pick, List.filter_sublist, by decide +kernel, by decide +kernel⟩

end Amend.Refactoring.Inline
