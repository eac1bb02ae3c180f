import Amend.Extraction.Block
import Amend.Proofs.Extraction.Facts
import Mathlib.Data.List.Nodup

/-!
# When a window is a block

A window is a run of neighbouring statements of a method.  It closes where the greatest size or the
end of the body is reached, or where the next statement reads nothing that it defines.  The search
accepts a closed window exactly if none of six reasons speaks against it, and the block that it
makes of it is described by the statements themselves.
-/

namespace Amend.Extraction

open Syntax
open StatementFacts (namesRead namesWritten namesDeclared namesIntroduced Returns Jumps)

variable (method : Node) (source : String) (settings : BlockSettings)

/-! ## Closing -/

/-- One of some statements declares or writes the name. -/
def Defines (ss : List Node) (x : String) : Prop :=
  ∃ s ∈ ss, x ∈ namesDeclared method source s ∨ x ∈ namesWritten method source s

/-- A window of the first `size` of some statements closes: it is of the greatest size, or it is
all of them, or it is big enough and the next one reads nothing that it defines. -/
def Closes (ss : List Node) (size : Nat) : Prop :=
  settings.maxSize ≤ size ∨ ss.length ≤ size ∨ settings.minSize ≤ size ∧
    ∀ s, ss[size]? = some s → ∀ x ∈ namesRead method source s,
      ¬ Defines method source (ss.take size) x

/-- A window of the first `size` of some statements closes, and no smaller one does. -/
structure IsWindow (ss : List Node) (size : Nat) : Prop where
  pos : 0 < size
  closes : Closes method source settings ss size
  least : ∀ k, 0 < k → k < size → ¬ Closes method source settings ss k

variable {method source settings}

theorem has_defined {s : Node} {x : String} :
    (StatementFacts.of method source s).defined.has x = true ↔
      x ∈ namesDeclared method source s ∨ x ∈ namesWritten method source s := by
  rw [StatementFacts.defined, Names.has_union, StatementFacts.has_declared,
    StatementFacts.has_assigned]

theorem defines_concat {ss : List Node} {s : Node} {x : String} :
    Defines method source (ss ++ [s]) x ↔ Defines method source ss x ∨
      x ∈ namesDeclared method source s ∨ x ∈ namesWritten method source s := by
  simp [Defines, or_and_right, exists_or]

namespace MethodFlow

/-- A window that holds some statements grows over those after them until it closes. -/
theorem windowSize_closes {ss done rest : List Node} {defined : Names} (hss : ss = done ++ rest)
    (hdefined : ∀ x, defined.has x = true ↔ Defines method source done x) {size : Nat}
    (hsize : size = windowSize settings done.length defined
      (rest.map (StatementFacts.of method source))) :
    done.length ≤ size ∧ Closes method source settings ss size ∧
      ∀ k, done.length ≤ k → k < size → ¬ Closes method source settings ss k := by
  induction rest generalizing done defined with
  | nil =>
    rw [List.append_nil] at hss
    subst hss
    rw [hsize]
    refine ⟨Nat.le_refl _, Or.inr (Or.inl (Nat.le_refl _)), fun k hk hlt => ?_⟩
    exact absurd hlt (Nat.not_lt.mpr hk)
  | cons s rest ih =>
    rw [List.map_cons, windowSize] at hsize
    have hnext : ss[done.length]? = some s := by
      rw [hss, List.getElem?_append_right (Nat.le_refl _), Nat.sub_self]
      rfl
    have hwindow : ss.take done.length = done := by
      rw [hss, List.take_left]
    have hdisjoint : (StatementFacts.of method source s).used.disjoint defined = true ↔
        ∀ x ∈ namesRead method source s, ¬ Defines method source done x := by
      rw [Names.disjoint_iff]
      refine forall_congr' fun x => ?_
      rw [StatementFacts.has_used, ← hdefined, Bool.not_eq_true]
    have hnow : Closes method source settings ss done.length ↔
        settings.maxSize ≤ done.length ∨ settings.minSize ≤ done.length ∧
          (StatementFacts.of method source s).used.disjoint defined = true := by
      have hmore : ¬ ss.length ≤ done.length := by
        rw [hss, List.length_append, List.length_cons]
        omega
      rw [Closes, hdisjoint, hwindow, hnext]
      simp only [hmore, false_or, Option.some.injEq, forall_eq']
    split at hsize
    · rename_i hmax
      rw [hsize]
      exact ⟨Nat.le_refl _, hnow.mpr (Or.inl hmax), fun k hk hlt => absurd hlt (Nat.not_lt.mpr hk)⟩
    · rename_i hmax
      split at hsize
      · rename_i hmin
        rw [hsize]
        exact ⟨Nat.le_refl _, hnow.mpr (Or.inr hmin),
          fun k hk hlt => absurd hlt (Nat.not_lt.mpr hk)⟩
      · rename_i hmin
        have hmore (x : String) :
            (defined.union (StatementFacts.of method source s).defined).has x = true ↔
              Defines method source (done ++ [s]) x := by
          rw [Names.has_union, has_defined, hdefined, defines_concat]
        obtain ⟨hle, hcloses, hleast⟩ :=
          @ih (done ++ [s]) _ (by rw [hss, List.append_assoc]; rfl) hmore
            (by rw [hsize, List.length_append]; rfl)
        rw [List.length_append, List.length_singleton] at hle hleast
        refine ⟨by omega, hcloses, fun k hk hlt => ?_⟩
        rcases Nat.eq_or_lt_of_le hk with rfl | hk
        · rw [hnow]
          tauto
        · exact hleast k hk hlt

/-- The size of the window that the search opens. -/
theorem isWindow_openWindow {ss : List Node} (h : ss ≠ []) : IsWindow method source settings ss
    (openWindow settings (ss.map (StatementFacts.of method source))) := by
  cases ss with
  | nil => exact absurd rfl h
  | cons s rest =>
    have hfirst (x : String) : (StatementFacts.of method source s).defined.has x = true ↔
        Defines method source [s] x := by
      rw [has_defined]
      simp [Defines]
    have hss : s :: rest = [s] ++ rest := rfl
    obtain ⟨hle, hcloses, hleast⟩ := windowSize_closes hss hfirst rfl
    exact ⟨hle, hcloses, hleast⟩

end MethodFlow

/-- A window is as big as it has to be, unless there are too few statements, and never too big. -/
theorem IsWindow.size_le {ss : List Node} {size : Nat} (h : IsWindow method source settings ss size)
    (hss : settings.minSize ≤ ss.length) :
    settings.minSize ≤ size ∧ size ≤ settings.maxSize ∧ size ≤ ss.length := by
  have hmin := settings.minSize_pos
  have hmax := settings.minSize_le_maxSize
  refine ⟨?_, ?_, ?_⟩
  · rcases h.closes with hcloses | hcloses | hcloses
    · exact Nat.le_trans hmax hcloses
    · exact Nat.le_trans hss hcloses
    · exact hcloses.1
  · by_contra hlt
    exact h.least settings.maxSize (by omega) (by omega) (Or.inl (Nat.le_refl _))
  · by_contra hlt
    exact h.least ss.length (by omega) (by omega) (Or.inr (Or.inl (Nat.le_refl _)))

/-! ## What is handed on -/

/-- The statement at index `i` of a window introduces the name, and a later one refers to it. -/
structure HandsOn (source : String) (window later : List Node) (i : Nat) (x : String) : Prop where
  introduced : ∃ s, window[i]? = some s ∧ x ∈ namesIntroduced source s
  referred : ∃ t ∈ later, Java.variableReferences t source x ≠ []

/-- The names that a window hands on, each with the index of its statement. -/
def handedOn (method : Node) (source : String) (window later : List Node) : List (Nat × String) :=
  window.zipIdx.flatMap fun (s, i) =>
    ((StatementFacts.of method source s).declaredTopLevel.members.filter fun x =>
      later.any fun t => !(Java.variableReferences t source x).isEmpty).map (i, ·)

variable (method source) (window later : List Node)

theorem mem_handedOn {i : Nat} {x : String} :
    (i, x) ∈ handedOn method source window later ↔ HandsOn source window later i x := by
  simp only [handedOn, List.mem_flatMap, List.mem_map, List.mem_filter, ← Names.has_iff,
    StatementFacts.has_declaredTopLevel, List.any_eq_true, Prod.mk.injEq, Prod.exists,
    List.mem_zipIdx_iff_getElem?]
  constructor
  · rintro ⟨s, j, hs, y, ⟨hy, t, ht, hrefs⟩, rfl, rfl⟩
    exact ⟨⟨s, hs, hy⟩, t, ht, by simpa using hrefs⟩
  · rintro ⟨⟨s, hs, hx⟩, t, ht, hrefs⟩
    exact ⟨s, i, hs, x, ⟨hx, t, ht, by simpa using hrefs⟩, rfl, rfl⟩

theorem nodup_handedOn : (handedOn method source window later).Nodup := by
  rw [handedOn, List.nodup_flatMap]
  constructor
  · rintro ⟨s, i⟩ -
    refine List.Nodup.map (fun x y h => (Prod.mk.inj h).2) (List.Nodup.filter _ ?_)
    rw [StatementFacts.records_of.declaredTopLevel]
    exact (Names.sorted_ofList _).nodup
  · have hindex : window.zipIdx.Pairwise fun a b => a.2 ≠ b.2 := by
      rw [← List.pairwise_map (f := Prod.snd) (R := (· ≠ ·)), List.zipIdx_map_snd]
      exact List.nodup_range'
    refine hindex.imp fun {a b} hne p hp hq => hne ?_
    obtain ⟨x, -, rfl⟩ := List.mem_map.mp hp
    obtain ⟨y, -, heq⟩ := List.mem_map.mp hq
    exact (Prod.mk.inj heq).1.symm

theorem snd_handedOn : (handedOn method source window later).map Prod.snd =
    (window.map fun s => (s, StatementFacts.of method source s)).flatMap fun (_, f) =>
      f.declaredTopLevel.members.filter fun name =>
        (later.map fun s => (s, StatementFacts.of method source s)).any fun (s, _) =>
          !(Java.variableReferences s source name).isEmpty := by
  have hfst {β : Type} (g : Node → List β) :
      window.zipIdx.flatMap (fun p => g p.1) = window.flatMap g := by
    rw [← List.flatMap_map, List.zipIdx_map_fst]
  rw [handedOn, List.map_flatMap, List.flatMap_map]
  simp only [List.map_map, Function.comp_def, List.map_id', List.any_map]
  exact hfst fun s => (StatementFacts.of method source s).declaredTopLevel.members.filter fun x =>
    later.any fun t => !(Java.variableReferences t source x).isEmpty

variable {method source window later}

/-! ## Reasons against a window -/

/-- What speaks against a window with some statements after it. -/
inductive Refused (method : Node) (source : String) (window later : List Node) : Prop
  /-- It writes a variable that it does not declare. -/
  | outerWrite {s : Node} {x : String} (hs : s ∈ window) (hx : x ∈ namesWritten method source s)
      (houter : ∀ t ∈ window, x ∉ namesDeclared method source t)
  /-- A jump leaves one of its statements. -/
  | jump {s : Node} (hs : s ∈ window) (hjump : Jumps s)
  /-- It returns otherwise than by a `return` at its end. -/
  | earlyReturn {i : Nat} {s : Node} (hs : window[i]? = some s) (hreturn : Returns s)
      (hearly : i + 1 = window.length → s.kind ≠ .returnStatement)
  /-- A variable that it reads and does not define has no known type. -/
  | parameterType {s : Node} {x : String} (hs : s ∈ window) (hx : x ∈ namesRead method source s)
      (hfree : ¬ Defines method source window x)
      (hunknown : ∀ type, ¬ MethodScope.HasType method source x type)
  /-- Without a return, a variable that it hands on has no known type. -/
  | handedOnType {i : Nat} {x : String} (hgoesOn : ∀ s ∈ window, ¬ Returns s)
      (hx : HandsOn source window later i x)
      (hunknown : ∀ type, ¬ MethodScope.HasType method source x type)
  /-- Without a return, it hands on more than one variable. -/
  | several {i j : Nat} {x y : String} (hgoesOn : ∀ s ∈ window, ¬ Returns s)
      (hx : HandsOn source window later i x) (hy : HandsOn source window later j y)
      (hne : (i, x) ≠ (j, y))

/-- What a block made of a window with some statements after it is like. -/
structure Lifts (method : Node) (source : String) (window later : List Node) (b : Block) :
    Prop where
  used : ∀ x, b.used.has x = true ↔ ∃ s ∈ window, x ∈ namesRead method source s
  defined : ∀ x, b.defined.has x = true ↔ Defines method source window x
  writesOwn : ∀ s ∈ window, ∀ x ∈ namesWritten method source s,
    ∃ t ∈ window, x ∈ namesDeclared method source t
  staysIn : ∀ s ∈ window, ¬ Jumps s
  returnsLast : ∀ i s, window[i]? = some s → Returns s →
    i + 1 = window.length ∧ s.kind = .returnStatement
  parameters : ∀ x, x ∈ b.parameters.map (·.name) ↔ b.used.has x = true ∧ b.defined.has x = false
  parametersOrdered : (b.parameters.map (·.name)).Pairwise fun x y =>
    (window.flatMap (namesRead method source)).idxOf x <
      (window.flatMap (namesRead method source)).idxOf y
  parameterTypes : ∀ p ∈ b.parameters, MethodScope.HasType method source p.name p.javaType
  endsInReturn : (∃ s ∈ window, Returns s) → b.returns = .exit ∨ ∃ type, b.returns = .value type
  handsOn : (∀ s ∈ window, ¬ Returns s) → ∀ i x, HandsOn source window later i x →
    (∃ type, MethodScope.HasType method source x type ∧ b.returns = .variable x type) ∧
      ∀ j y, HandsOn source window later j y → j = i ∧ y = x
  handsOnNothing : (∀ s ∈ window, ¬ Returns s) → (∀ i x, ¬ HandsOn source window later i x) →
    b.returns = .nothing

namespace MethodFlow

variable (method source window later)

theorem mapM_parameter? (names : List String) :
    match names.mapM (parameter? (.ofMethod method source)) with
    | .ok ps => ps.map (·.name) = names ∧
        ∀ p ∈ ps, MethodScope.HasType method source p.name p.javaType
    | .error _ => ∃ x ∈ names, ∀ type, ¬ MethodScope.HasType method source x type := by
  induction names with
  | nil => exact ⟨rfl, nofun⟩
  | cons x names ih =>
    rw [List.mapM_cons, parameter?]
    cases hx : (MethodScope.ofMethod method source).typeOf? x with
    | none =>
      refine ⟨x, List.mem_cons_self, fun type htype => ?_⟩
      rw [MethodScope.typeOf?_ofMethod.mpr htype] at hx
      cases hx
    | some t =>
      cases hrest : names.mapM (parameter? (.ofMethod method source)) with
      | error e =>
        rw [hrest] at ih
        obtain ⟨y, hy, hunknown⟩ := ih
        exact ⟨y, List.mem_cons_of_mem x hy, hunknown⟩
      | ok ps =>
        rw [hrest] at ih
        obtain ⟨hnames, htypes⟩ := ih
        refine ⟨congrArg (x :: ·) hnames, fun p hp => ?_⟩
        rcases List.mem_cons.mp hp with rfl | hp
        · exact MethodScope.typeOf?_ofMethod.mp hx
        · exact htypes p hp

/-- What leaves a window that does not return. -/
theorem escaping_eq :
    match (ofMethod method source).escaping
      (window.map fun s => (s, StatementFacts.of method source s))
      (later.map fun s => (s, StatementFacts.of method source s)) with
    | .ok returns => (∀ i x, HandsOn source window later i x →
        (∃ type, MethodScope.HasType method source x type ∧ returns = .variable x type) ∧
          ∀ j y, HandsOn source window later j y → j = i ∧ y = x) ∧
        ((∀ i x, ¬ HandsOn source window later i x) → returns = .nothing)
    | .error _ => (∃ i x, HandsOn source window later i x ∧
        ∀ type, ¬ MethodScope.HasType method source x type) ∨
        ∃ i j x y, HandsOn source window later i x ∧ HandsOn source window later j y ∧
          (i, x) ≠ (j, y) := by
  have hnodup := nodup_handedOn method source window later
  have hmem {i : Nat} {x : String} : (i, x) ∈ handedOn method source window later ↔ _ :=
    mem_handedOn method source window later
  have hsource : (ofMethod method source).source = source := rfl
  rw [escaping, hsource, ← snd_handedOn]
  cases hpairs : handedOn method source window later with
  | nil =>
    rw [hpairs] at hmem
    exact ⟨fun i x hx => absurd (hmem.mpr hx) List.not_mem_nil, fun _ => rfl⟩
  | cons p rest =>
    obtain ⟨i, x⟩ := p
    rw [hpairs] at hmem hnodup
    have hfirst : HandsOn source window later i x := hmem.mp List.mem_cons_self
    cases rest with
    | nil =>
      have honly {j : Nat} {y : String} (hy : HandsOn source window later j y) : j = i ∧ y = x :=
        Prod.mk.inj (List.mem_singleton.mp (hmem.mpr hy))
      rw [List.map_cons, List.map_nil]
      dsimp only
      cases htype : (ofMethod method source).scope.typeOf? x with
      | none =>
        refine Or.inl ⟨i, x, hfirst, fun type hknown => ?_⟩
        have htype' := MethodScope.typeOf?_ofMethod.mpr hknown
        exact absurd (htype.symm.trans htype') nofun
      | some t =>
        refine ⟨fun j y hy => ?_, fun hnone => absurd hfirst (hnone i x)⟩
        obtain ⟨rfl, rfl⟩ := honly hy
        exact ⟨⟨t, MethodScope.typeOf?_ofMethod.mp htype, rfl⟩, fun _ _ hz => honly hz⟩
    | cons q rest =>
      obtain ⟨j, y⟩ := q
      have hne : (i, x) ≠ (j, y) := fun heq =>
        (List.nodup_cons.mp hnodup).1 (heq ▸ List.mem_cons_self)
      exact Or.inr ⟨i, j, x, y, hfirst,
        hmem.mp (List.mem_cons_of_mem _ List.mem_cons_self), hne⟩

/-! ## The parts of the decision -/

variable {method source window} in
theorem has_definedIn {x : String} :
    (definedIn (window.map (StatementFacts.of method source))).has x = true ↔
      Defines method source window x := by
  rw [definedIn, Names.has_union, Names.has_unionOf, Names.has_unionOf, Defines]
  simp [and_or_left, exists_or]

theorem checkEffects_eq :
    match checkEffects (window.map (StatementFacts.of method source)) with
    | .ok _ => (∀ s ∈ window, ∀ x ∈ namesWritten method source s,
        ∃ t ∈ window, x ∈ namesDeclared method source t) ∧ ∀ s ∈ window, ¬ Jumps s
    | .error _ => (∃ s ∈ window, ∃ x ∈ namesWritten method source s,
        ∀ t ∈ window, x ∉ namesDeclared method source t) ∨ ∃ s ∈ window, Jumps s := by
  have hdeclared {x : String} :
      (Names.unionOf (·.declared) (window.map (StatementFacts.of method source))).has x = true ↔
        ∃ t ∈ window, x ∈ namesDeclared method source t := by
    rw [Names.has_unionOf]
    simp
  have hforeign : ((Names.unionOf (·.assigned) (window.map (StatementFacts.of method source))).diff
        (.unionOf (·.declared) (window.map (StatementFacts.of method source)))).isEmpty = true ↔
      ∀ s ∈ window, ∀ x ∈ namesWritten method source s,
        ∃ t ∈ window, x ∈ namesDeclared method source t := by
    rw [Names.isEmpty_iff]
    constructor
    · intro hempty s hs x hx
      by_contra hno
      have hx' : (Names.unionOf (·.assigned) (window.map (StatementFacts.of method source))).has x =
          true := Names.has_unionOf.mpr
        ⟨_, List.mem_map_of_mem hs, StatementFacts.has_assigned.mpr hx⟩
      rw [← hdeclared, Bool.not_eq_true] at hno
      have hmem := Names.has_diff.mpr ⟨hx', hno⟩
      rw [hempty x] at hmem
      cases hmem
    · intro hown x
      rw [← Bool.not_eq_true, Names.has_diff]
      rintro ⟨hx, hno⟩
      obtain ⟨f, hf, hx⟩ := Names.has_unionOf.mp hx
      obtain ⟨s, hs, rfl⟩ := List.mem_map.mp hf
      rw [hdeclared.mpr (hown s hs x (StatementFacts.has_assigned.mp hx))] at hno
      cases hno
  have hjump : (window.map (StatementFacts.of method source)).any (·.hasEscapingJump) = true ↔
      ∃ s ∈ window, Jumps s := by
    rw [List.any_map, List.any_eq_true]
    exact exists_congr fun s => and_congr_right fun _ => StatementFacts.hasEscapingJump_of
  rw [checkEffects]
  split_ifs with houter hjumps
  · refine Or.inl ?_
    rw [Bool.not_eq_true', ← Bool.not_eq_true, hforeign] at houter
    push Not at houter
    exact houter
  · exact Or.inr (hjump.mp hjumps)
  · rw [Bool.not_eq_true', Bool.not_eq_false, hforeign] at houter
    rw [hjump] at hjumps
    push Not at hjumps
    exact ⟨houter, hjumps⟩

theorem endsInReturn_eq {last : Node} (hlast : window.getLast? = some last) :
    match endsInReturn (window.map (StatementFacts.of method source)) last with
    | .ok returning => (returning = true ↔ ∃ s ∈ window, Returns s) ∧
        ∀ i s, window[i]? = some s → Returns s →
          i + 1 = window.length ∧ s.kind = .returnStatement
    | .error _ => ∃ i s, window[i]? = some s ∧ Returns s ∧
        (i + 1 = window.length → s.kind ≠ .returnStatement) := by
  obtain ⟨before, rfl⟩ := List.getLast?_eq_some_iff.mp hlast
  have hany (ss : List Node) :
      (ss.map (StatementFacts.of method source)).any (·.hasReturn) = true ↔ ∃ s ∈ ss, Returns s := by
    rw [List.any_map, List.any_eq_true]
    exact exists_congr fun s => and_congr_right fun _ => StatementFacts.hasReturn_of
  have hearly : ((before ++ [last]).map (StatementFacts.of method source)).dropLast =
      before.map (StatementFacts.of method source) := by
    rw [List.map_append]
    exact List.dropLast_concat
  rw [endsInReturn, hearly]
  split_ifs with h
  · rw [Bool.and_eq_true, Bool.or_eq_true, hany, hany, decide_eq_true_eq] at h
    obtain ⟨⟨s, hs, hreturns⟩, hcause⟩ := h
    by_cases hbefore : ∃ s ∈ before, Returns s
    · obtain ⟨t, ht, hreturns⟩ := hbefore
      obtain ⟨i, hi, rfl⟩ := List.mem_iff_getElem.mp ht
      refine ⟨i, before[i], ?_, hreturns, fun heq => ?_⟩
      · rw [List.getElem?_append_left hi, List.getElem?_eq_getElem hi]
      · rw [List.length_append, List.length_singleton] at heq
        omega
    · have hkind : last.kind ≠ .returnStatement := hcause.resolve_left hbefore
      refine ⟨before.length, last, ?_, ?_, fun _ => hkind⟩
      · rw [List.getElem?_append_right (Nat.le_refl _), Nat.sub_self]
        rfl
      · rcases List.mem_append.mp hs with hs | hs
        · exact absurd ⟨s, hs, hreturns⟩ hbefore
        · rwa [← List.mem_singleton.mp hs]
  · refine ⟨hany _, fun i s hs hreturns => ?_⟩
    have hmem : s ∈ before ++ [last] := List.mem_of_getElem? hs
    rw [Bool.and_eq_true, Bool.or_eq_true, hany, hany, decide_eq_true_eq] at h
    have hnot := not_and.mp h ⟨s, hmem, hreturns⟩
    push Not at hnot
    obtain ⟨hbefore, hkind⟩ := hnot
    by_cases hi : i < before.length
    · rw [List.getElem?_append_left hi] at hs
      exact absurd hreturns (hbefore s (List.mem_of_getElem? hs))
    · have hbound := (List.getElem?_eq_some_iff.mp hs).1
      rw [List.length_append, List.length_singleton] at hbound
      have hlast' : i = before.length := by omega
      rw [hlast', List.getElem?_append_right (Nat.le_refl _), Nat.sub_self] at hs
      cases hs
      rw [hlast', List.length_append]
      exact ⟨rfl, hkind⟩

theorem parametersOf_eq :
    match (ofMethod method source).parametersOf (window.map (StatementFacts.of method source)) with
    | .ok ps => (∀ x, x ∈ ps.map (·.name) ↔ (∃ s ∈ window, x ∈ namesRead method source s) ∧
          ¬ Defines method source window x) ∧
        ((ps.map (·.name)).Pairwise fun x y =>
          (window.flatMap (namesRead method source)).idxOf x <
            (window.flatMap (namesRead method source)).idxOf y) ∧
        ∀ p ∈ ps, MethodScope.HasType method source p.name p.javaType
    | .error _ => ∃ s ∈ window, ∃ x ∈ namesRead method source s,
        ¬ Defines method source window x ∧ ∀ type, ¬ MethodScope.HasType method source x type := by
  have hreads : firstOccurrences ((window.map (StatementFacts.of method source)).flatMap
      (·.readsInOrder)) = firstOccurrences (window.flatMap (namesRead method source)) := by
    rw [List.flatMap_map]
    simp only [StatementFacts.readsInOrder_of]
    exact firstOccurrences_flatMap _ _
  have hmem {x : String} : x ∈ (firstOccurrences (window.flatMap (namesRead method source))).filter
      (fun name => !(definedIn (window.map (StatementFacts.of method source))).has name) ↔
      (∃ s ∈ window, x ∈ namesRead method source s) ∧ ¬ Defines method source window x := by
    rw [List.mem_filter, mem_firstOccurrences, List.mem_flatMap, ← has_definedIn,
      Bool.not_eq_true', Bool.not_eq_true]
  rw [parametersOf, hreads]
  have hscope : (ofMethod method source).scope = .ofMethod method source := rfl
  rw [hscope]
  have hparameters := mapM_parameter? method source
    ((firstOccurrences (window.flatMap (namesRead method source))).filter
      fun name => !(definedIn (window.map (StatementFacts.of method source))).has name)
  split at hparameters
  · obtain ⟨hnames, htypes⟩ := hparameters
    rw [hnames]
    exact ⟨fun x => hmem, (pairwise_firstOccurrences _).filter _, htypes⟩
  · obtain ⟨x, hx, hunknown⟩ := hparameters
    obtain ⟨⟨s, hs, hread⟩, hfree⟩ := hmem.mp hx
    exact ⟨s, hs, x, hread, hfree, hunknown⟩

/-- A window becomes a block exactly if nothing speaks against it. -/
theorem accept_eq (first size : Nat)
    (hne : ((Java.bodyStatements method).drop first).take size ≠ []) :
    match (ofMethod method source).accept first size with
    | .ok b => b.firstIndex = first ∧ b.lastIndex = first + size - 1 ∧
        Lifts method source (((Java.bodyStatements method).drop first).take size)
          ((Java.bodyStatements method).drop (first + size)) b
    | .error _ => Refused method source (((Java.bodyStatements method).drop first).take size)
        ((Java.bodyStatements method).drop (first + size)) := by
  generalize hwindow : ((Java.bodyStatements method).drop first).take size = window at hne ⊢
  generalize hlater : (Java.bodyStatements method).drop (first + size) = later
  have hw : ((ofMethod method source).statements.drop first).take size =
      window.map fun s => (s, StatementFacts.of method source s) := by
    rw [← hwindow, List.map_take, List.map_drop]
    rfl
  have hl : (ofMethod method source).statements.drop (first + size) =
      later.map fun s => (s, StatementFacts.of method source s) := by
    rw [← hlater, List.map_drop]
    rfl
  have hfacts : (window.map fun s => (s, StatementFacts.of method source s)).map (·.2) =
      window.map (StatementFacts.of method source) := by
    rw [List.map_map]
    rfl
  obtain ⟨head, hhead⟩ : ∃ s, window.head? = some s := by
    cases window with
    | nil => exact absurd rfl hne
    | cons s ss => exact ⟨s, rfl⟩
  obtain ⟨last, hlast⟩ : ∃ s, window.getLast? = some s :=
    ⟨window.getLast hne, List.getLast?_eq_some_getLast hne⟩
  rw [accept, hw, hl, hfacts, List.head?_map, List.getLast?_map, hhead, hlast]
  have heffects := checkEffects_eq method source window
  have hreturns := endsInReturn_eq method source window hlast
  have hparameters := parametersOf_eq method source window
  have hescaping := escaping_eq method source window later
  have hused {x : String} : (Names.unionOf (·.used) (window.map
      (StatementFacts.of method source))).has x = true ↔
        ∃ s ∈ window, x ∈ namesRead method source s := by
    rw [Names.has_unionOf]
    simp
  dsimp only [Option.map_some]
  cases heff : checkEffects (window.map (StatementFacts.of method source)) with
  | error e =>
    rw [heff] at heffects
    rcases heffects with ⟨s, hs, x, hx, houter⟩ | ⟨s, hs, hjump⟩
    · exact .outerWrite hs hx houter
    · exact .jump hs hjump
  | ok u =>
    rw [heff] at heffects
    obtain ⟨hown, hjumps⟩ := heffects
    cases hret : endsInReturn (window.map (StatementFacts.of method source)) last with
    | error e =>
      rw [hret] at hreturns
      obtain ⟨i, s, hs, hreturn, hearly⟩ := hreturns
      exact .earlyReturn hs hreturn hearly
    | ok returning =>
      rw [hret] at hreturns
      obtain ⟨hreturning, hlastOnly⟩ := hreturns
      cases hpar : (ofMethod method source).parametersOf
          (window.map (StatementFacts.of method source)) with
      | error e =>
        rw [hpar] at hparameters
        obtain ⟨s, hs, x, hx, hfree, hunknown⟩ := hparameters
        exact .parameterType hs hx hfree hunknown
      | ok ps =>
        rw [hpar] at hparameters
        obtain ⟨hnames, hordered, htypes⟩ := hparameters
        have hlifts (b : Block)
            (hb : b.used = Names.unionOf (·.used) (window.map (StatementFacts.of method source)) ∧
              b.defined = definedIn (window.map (StatementFacts.of method source)) ∧
              b.parameters = ps)
            (hends : (∃ s ∈ window, Returns s) →
              b.returns = .exit ∨ ∃ type, b.returns = .value type)
            (hhands : (∀ s ∈ window, ¬ Returns s) →
              (∀ i x, HandsOn source window later i x →
                (∃ type, MethodScope.HasType method source x type ∧
                  b.returns = .variable x type) ∧
                  ∀ j y, HandsOn source window later j y → j = i ∧ y = x) ∧
                ((∀ i x, ¬ HandsOn source window later i x) → b.returns = .nothing)) :
            Lifts method source window later b := by
          obtain ⟨hbused, hbdefined, hbparameters⟩ := hb
          have hdefined (x : String) : b.defined.has x = true ↔ Defines method source window x := by
            rw [hbdefined, has_definedIn]
          exact {
            used := fun x => by rw [hbused, hused]
            defined := hdefined
            writesOwn := hown
            staysIn := hjumps
            returnsLast := hlastOnly
            parameters := fun x => by
              rw [hbparameters, hnames, hbused, hused, ← Bool.not_eq_true, hdefined]
            parametersOrdered := hbparameters ▸ hordered
            parameterTypes := hbparameters ▸ htypes
            endsInReturn := hends
            handsOn := fun hgoesOn => (hhands hgoesOn).1
            handsOnNothing := fun hgoesOn => (hhands hgoesOn).2 }
        cases returning with
        | true =>
          have hreturn := hreturning.mp rfl
          refine ⟨rfl, rfl, hlifts _ ⟨rfl, rfl, rfl⟩ (fun _ => ?_) fun hgoesOn => ?_⟩
          · change (ofMethod method source).returned last = _ ∨
              ∃ type, (ofMethod method source).returned last = _
            rw [returned]
            split
            · exact Or.inr ⟨_, rfl⟩
            · exact Or.inl rfl
          · obtain ⟨s, hs, hreturns⟩ := hreturn
            exact absurd hreturns (hgoesOn s hs)
        | false =>
          have hgoesOn : ∀ s ∈ window, ¬ Returns s := fun s hs hreturns =>
            absurd (hreturning.mpr ⟨s, hs, hreturns⟩) Bool.false_ne_true
          cases hesc : (ofMethod method source).escaping
              (window.map fun s => (s, StatementFacts.of method source s))
              (later.map fun s => (s, StatementFacts.of method source s)) with
          | error e =>
            rw [hesc] at hescaping
            rcases hescaping with ⟨i, x, hx, hunknown⟩ | ⟨i, j, x, y, hx, hy, hne⟩
            · exact .handedOnType hgoesOn hx hunknown
            · exact .several hgoesOn hx hy hne
          | ok returns =>
            rw [hesc] at hescaping
            refine ⟨rfl, rfl, hlifts _ ⟨rfl, rfl, rfl⟩ (fun hreturn => ?_) fun _ => hescaping⟩
            obtain ⟨s, hs, hreturns⟩ := hreturn
            exact absurd hreturns (hgoesOn s hs)

end MethodFlow

end Amend.Extraction
