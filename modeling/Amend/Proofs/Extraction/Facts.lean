import Amend.Extraction.Facts
import Amend.Proofs.Extraction.Names

/-!
# What the facts of a statement say

The facts of a statement are computed from its identifiers and jumps one by one.  Here they are
read back off the syntax: which identifiers count, which of them declare, read or write, and which
jumps leave the statement.
-/

namespace Amend.Extraction

open Syntax

/-! ## The type of a name -/

namespace MethodScope

/-- The names of a scope stand in increasing order. -/
def Increasing (types : List (String × Option String)) : Prop :=
  types.Pairwise fun a b => a.1 < b.1

variable {types : List (String × Option String)} {x y : String} {t : Option String}

theorem fst_mem_declare {d : String × Option String} (h : d ∈ declare x t types) :
    d.1 = x ∨ ∃ e ∈ types, e.1 = d.1 := by
  induction types with
  | nil => exact Or.inl (congrArg Prod.fst (List.mem_singleton.mp h))
  | cons e types ih =>
    obtain ⟨z, u⟩ := e
    rw [declare] at h
    split at h
    · rcases List.mem_cons.mp h with rfl | h
      · exact Or.inr ⟨(z, u), List.mem_cons_self, rfl⟩
      · exact Or.inr ⟨d, List.mem_cons_of_mem _ h, rfl⟩
    · split at h
      · rcases List.mem_cons.mp h with rfl | h
        · exact Or.inl rfl
        · exact Or.inr ⟨d, h, rfl⟩
      · rcases List.mem_cons.mp h with rfl | h
        · exact Or.inr ⟨(z, u), List.mem_cons_self, rfl⟩
        · rcases ih h with h | ⟨e, he, heq⟩
          · exact Or.inl h
          · exact Or.inr ⟨e, List.mem_cons_of_mem _ he, heq⟩

theorem increasing_declare (h : Increasing types) : Increasing (declare x t types) := by
  induction types with
  | nil => exact List.pairwise_singleton _ _
  | cons e types ih =>
    obtain ⟨z, u⟩ := e
    obtain ⟨hz, htypes⟩ := List.pairwise_cons.mp h
    rw [declare]
    split
    · exact List.pairwise_cons.mpr ⟨hz, htypes⟩
    · rename_i hne
      split
      · rename_i hlt
        refine List.pairwise_cons.mpr ⟨fun d hd => ?_, h⟩
        rcases List.mem_cons.mp hd with rfl | hd
        · exact hlt
        · exact lt_trans hlt (hz d hd)
      · rename_i hlt
        refine List.pairwise_cons.mpr ⟨fun d hd => ?_, ih htypes⟩
        rcases fst_mem_declare hd with heq | ⟨e, he, heq⟩
        · rw [heq]
          exact lt_of_le_of_ne (not_lt.mp hlt) (Ne.symm hne)
        · rw [← heq]
          exact hz e he

/-- A declared name has the type of its declarations as long as they agree. -/
theorem lookup_declare_self (h : Increasing types) : (declare x t types).lookup x =
    some (match types.lookup x with
      | none => t
      | some u => if u = t then u else none) := by
  induction types with
  | nil => simp [declare]
  | cons e types ih =>
    obtain ⟨z, u⟩ := e
    obtain ⟨hz, htypes⟩ := List.pairwise_cons.mp h
    by_cases hxz : x = z
    · subst hxz
      simp [declare]
    · have hne : (x == z) = false := by simpa using hxz
      by_cases hlt : x < z
      · have hnone : types.lookup x = none := by
          rw [List.lookup_eq_none_iff]
          intro d hd
          have hlt' : x < d.1 := lt_trans hlt (hz d hd)
          simpa using ne_of_lt hlt'
        simp [declare, hxz, hlt, List.lookup_cons, hne, hnone]
      · simp only [declare, hxz, hlt, if_false, List.lookup_cons, hne, ih htypes]

theorem lookup_declare_of_ne (hxy : x ≠ y) : (declare x t types).lookup y = types.lookup y := by
  have hyx : (y == x) = false := by simpa using Ne.symm hxy
  induction types with
  | nil => simp [declare, List.lookup_cons, hyx]
  | cons e types ih =>
    obtain ⟨z, u⟩ := e
    by_cases hxz : x = z
    · subst hxz
      simp [declare, List.lookup_cons, hyx]
    · by_cases hlt : x < z
      · simp [declare, hxz, hlt, List.lookup_cons, hyx]
      · simp only [declare, hxz, hlt, if_false, List.lookup_cons, ih]

/-- The scope of some declarations, in their order. -/
def ofDeclarations (ds : List (String × Option String)) : List (String × Option String) :=
  ds.foldl (fun types d => declare d.1 d.2 types) []

theorem increasing_ofDeclarations (ds : List (String × Option String)) :
    Increasing (ofDeclarations ds) := by
  induction ds using List.reverseRecOn with
  | nil => exact List.Pairwise.nil
  | append_singleton ds d ih =>
    rw [ofDeclarations, List.foldl_append]
    exact increasing_declare ih

theorem ofDeclarations_concat (ds : List (String × Option String)) (d : String × Option String) :
    ofDeclarations (ds ++ [d]) = declare d.1 d.2 (ofDeclarations ds) := by
  rw [ofDeclarations, List.foldl_append]
  rfl

theorem lookup_ofDeclarations_eq_none {ds : List (String × Option String)} :
    (ofDeclarations ds).lookup x = none ↔ ∀ d ∈ ds, d.1 ≠ x := by
  induction ds using List.reverseRecOn with
  | nil => exact ⟨fun _ => nofun, fun _ => rfl⟩
  | append_singleton ds d ih =>
    rw [ofDeclarations_concat, List.forall_mem_append]
    by_cases hd : d.1 = x
    · subst hd
      rw [lookup_declare_self (increasing_ofDeclarations ds)]
      simp
    · rw [lookup_declare_of_ne hd, ih]
      simp [hd]

/-- A name has a type exactly if it is declared and all its declarations give that type. -/
theorem lookup_ofDeclarations_eq_some {ds : List (String × Option String)} {type : String} :
    (ofDeclarations ds).lookup x = some (some type) ↔
      (∃ d ∈ ds, d.1 = x) ∧ ∀ d ∈ ds, d.1 = x → d.2 = some type := by
  induction ds using List.reverseRecOn with
  | nil => simp [ofDeclarations]
  | append_singleton ds d ih =>
    rw [ofDeclarations_concat, List.forall_mem_append]
    by_cases hd : d.1 = x
    · subst hd
      rw [lookup_declare_self (increasing_ofDeclarations ds)]
      cases hold : (ofDeclarations ds).lookup d.1 with
      | none =>
        have hnew := lookup_ofDeclarations_eq_none.mp hold
        have hvacuous : ∀ e ∈ ds, e.1 = d.1 → e.2 = some type :=
          fun e he heq => absurd heq (hnew e he)
        simpa using fun _ => hvacuous
      | some u =>
        have hdeclared : ∃ e ∈ ds, e.1 = d.1 := by
          by_contra hno
          push Not at hno
          rw [lookup_ofDeclarations_eq_none.mpr hno] at hold
          cases hold
        rw [hold] at ih
        constructor
        · intro heq
          have hu : (if u = d.2 then u else none) = some type := Option.some.inj heq
          split at hu
          · rename_i hagree
            obtain ⟨-, hall⟩ := ih.mp (congrArg some hu)
            have hlast : ∀ e ∈ [d], e.1 = d.1 → e.2 = some type := by
              intro e he _
              rw [List.mem_singleton.mp he, ← hagree, hu]
            exact ⟨⟨d, List.mem_append_right _ List.mem_cons_self, rfl⟩, hall, hlast⟩
          · cases hu
        · rintro ⟨-, hall, hlast⟩
          have hu : u = some type := Option.some.inj (ih.mpr ⟨hdeclared, hall⟩)
          have hd : d.2 = some type := hlast d List.mem_cons_self rfl
          change some (if u = d.2 then u else none) = _
          rw [if_pos (hu.trans hd.symm), hu]
    · rw [lookup_declare_of_ne hd, ih]
      simp [hd]

variable {method : Node} {source : String}

theorem ofMethod_types : (ofMethod method source).types = ofDeclarations ((sites method).map
    fun n => (n.text source, (declaredType? n source).filter (· ≠ "var"))) := by
  rw [ofDeclarations, List.foldl_map]
  rfl

/-- The names of a method are those that its declarations introduce. -/
theorem has_ofMethod : (ofMethod method source).has x = true ↔
    ∃ n ∈ sites method, n.text source = x := by
  have hkeys : (ofMethod method source).has x = true ↔
      (ofMethod method source).types.lookup x ≠ none := by
    rw [has, List.any_eq_true, Ne, List.lookup_eq_none_iff, not_forall]
    refine exists_congr fun d => ?_
    rw [Classical.not_imp, decide_eq_true_eq, eq_comm]
    simp
  rw [hkeys, ofMethod_types, Ne, lookup_ofDeclarations_eq_none]
  simp

/-- A name of a known type: all its declarations in the method give that type, and it is written
out. -/
structure HasType (method : Node) (source x type : String) : Prop where
  declared : ∃ n ∈ sites method, n.text source = x
  agree : ∀ n ∈ sites method, n.text source = x → declaredType? n source = some type
  ne_var : type ≠ "var"

theorem typeOf?_ofMethod {type : String} :
    (ofMethod method source).typeOf? x = some type ↔ HasType method source x type := by
  rw [typeOf?, Option.join_eq_some_iff, ofMethod_types, lookup_ofDeclarations_eq_some]
  constructor
  · rintro ⟨hdeclared, hall⟩
    obtain ⟨_, hd, heq⟩ := hdeclared
    obtain ⟨n, hn, rfl⟩ := List.mem_map.mp hd
    have hagree {m : Node} (hm : m ∈ sites method) (hx : m.text source = x) :
        declaredType? m source = some type ∧ type ≠ "var" := by
      have := hall _ (List.mem_map_of_mem hm) hx
      simpa [Option.filter_eq_some_iff] using this
    exact ⟨⟨n, hn, heq⟩, fun m hm hx => (hagree hm hx).1, (hagree hn heq).2⟩
  · rintro ⟨⟨n, hn, hx⟩, hagree, hne⟩
    refine ⟨⟨_, List.mem_map_of_mem hn, hx⟩, fun d hd heq => ?_⟩
    obtain ⟨m, hm, rfl⟩ := List.mem_map.mp hd
    simp [hagree m hm heq, hne]

end MethodScope

namespace StatementFacts

/-! ## Names read, written and declared -/

section Names

variable (scope : MethodScope) (source : String)

/-- Whether a node names a variable of the scope. -/
def namesVariable (n : Node) : Bool := scope.has (n.text source) && Java.isVariableName n

/-- Whether a node introduces a variable. -/
def declares (n : Node) : Bool := namesVariable scope source n && Java.isDeclarationSite n

/-- Whether a node reads a variable. -/
def reads (n : Node) : Bool :=
  namesVariable scope source n && !Java.isDeclarationSite n && (access n source).1

/-- Whether a node writes a variable. -/
def writes (n : Node) : Bool :=
  namesVariable scope source n && !Java.isDeclarationSite n && (access n source).2

/-- The texts of the nodes with a property, in their order. -/
def textsOf (p : Node → Bool) (ns : List Node) : List String :=
  (ns.filter p).map (·.text source)

theorem textsOf_concat (p : Node → Bool) (ns : List Node) (n : Node) :
    textsOf source p (ns ++ [n]) = textsOf source p ns ++ if p n then [n.text source] else [] := by
  rw [textsOf, List.filter_append, List.map_append, List.filter_singleton]
  cases p n <;> rfl

theorem mem_textsOf_concat {p : Node → Bool} {ns : List Node} {n : Node} {x : String} :
    x ∈ textsOf source p (ns ++ [n]) ↔ x ∈ textsOf source p ns ∨ p n = true ∧ x = n.text source := by
  rw [textsOf_concat, List.mem_append]
  cases p n <;> simp

variable {scope source} {f₀ f : StatementFacts} {ns : List Node} {n : Node} {x : String}

/-- What one identifier adds to the facts, field by field. -/
theorem addIdentifier_eq : addIdentifier source scope f n =
    let new := reads scope source n && !f.used.has (n.text source)
    { f with
      declared := if declares scope source n then f.declared.insert (n.text source) else f.declared
      assigned := if writes scope source n then f.assigned.insert (n.text source) else f.assigned
      used := if new then f.used.insert (n.text source) else f.used
      readsInOrder := f.readsInOrder ++ if new then [n.text source] else [] } := by
  rw [addIdentifier, declares, reads, writes, namesVariable]
  rcases access n source with ⟨reads, writes⟩
  cases scope.has (n.text source) <;> cases Java.isVariableName n <;>
    cases Java.isDeclarationSite n <;> cases reads <;> cases writes <;>
    simp only [Bool.not_true, Bool.not_false, Bool.or_false, Bool.or_true, Bool.false_and,
      Bool.and_false, Bool.and_true, Bool.true_and, Bool.false_eq_true, if_true, if_false,
      List.append_nil]
  all_goals cases f.used.has (n.text source) <;> simp

/-- Facts that some identifiers have added to others without names. -/
structure Records (scope : MethodScope) (source : String) (f₀ f : StatementFacts)
    (ns : List Node) : Prop where
  used : ∀ x, f.used.has x = true ↔ x ∈ textsOf source (reads scope source) ns
  declared : ∀ x, f.declared.has x = true ↔ x ∈ textsOf source (declares scope source) ns
  assigned : ∀ x, f.assigned.has x = true ↔ x ∈ textsOf source (writes scope source) ns
  readsInOrder : f.readsInOrder = firstOccurrences (textsOf source (reads scope source) ns)
  declaredTopLevel : f.declaredTopLevel = f₀.declaredTopLevel
  hasReturn : f.hasReturn = f₀.hasReturn
  hasEscapingJump : f.hasEscapingJump = f₀.hasEscapingJump

/-- One more identifier adds its name where it belongs. -/
theorem Records.concat (h : Records scope source f₀ f ns) (n : Node) :
    Records scope source f₀ (addIdentifier source scope f n) (ns ++ [n]) := by
  have hseen : f.used.has (n.text source) =
      (textsOf source (reads scope source) ns).contains (n.text source) := by
    rw [Bool.eq_iff_iff, List.contains_iff_mem]
    exact h.used _
  rw [addIdentifier_eq]
  refine ⟨fun x => ?_, fun x => ?_, fun x => ?_, ?_, h.declaredTopLevel, h.hasReturn,
    h.hasEscapingJump⟩
  · rw [mem_textsOf_concat, ← h.used]
    cases hreads : reads scope source n
    · simp
    · cases hold : f.used.has (n.text source)
      · simp [or_comm]
      · simpa using fun heq => heq ▸ hold
  · rw [mem_textsOf_concat, ← h.declared]
    cases declares scope source n <;> simp [or_comm]
  · rw [mem_textsOf_concat, ← h.assigned]
    cases writes scope source n <;> simp [or_comm]
  · dsimp only
    rw [textsOf_concat, h.readsInOrder, hseen]
    cases reads scope source n
    · simp
    · simp only [Bool.true_and, if_true, firstOccurrences_concat]
      cases (textsOf source (reads scope source) ns).contains (n.text source) <;> simp

theorem records_foldl (h : f₀.used = .empty ∧ f₀.declared = .empty ∧ f₀.assigned = .empty ∧
    f₀.readsInOrder = []) (ns : List Node) :
    Records scope source f₀ (ns.foldl (addIdentifier source scope) f₀) ns := by
  induction ns using List.reverseRecOn with
  | nil =>
    obtain ⟨hused, hdeclared, hassigned, horder⟩ := h
    refine ⟨fun x => ?_, fun x => ?_, fun x => ?_, horder, rfl, rfl, rfl⟩
    · simp [hused, textsOf]
    · simp [hdeclared, textsOf]
    · simp [hassigned, textsOf]
  | append_singleton ns n ih =>
    rw [List.foldl_append]
    exact ih.concat n

end Names

/-! ## Jumps -/

/-- A jump that ends inside a statement: it has no label, and the way up from it meets a construct
that takes it, at the latest in the statement itself. -/
structure StaysIn (statement jump : Node) : Prop where
  unlabelled : ∀ part ∈ jump.parts, part.kind ≠ .identifier
  taken : ∃ below taker above, jump.ancestors = below ++ taker :: above ∧
    taker.isOneOf jumpTargets = true ∧ ∀ n ∈ below, n.same statement = false

theorem jumpPasses_eq_false {statement : Node} {ns : List Node} :
    jumpPasses statement ns = false ↔ ∃ below taker above, ns = below ++ taker :: above ∧
      taker.isOneOf jumpTargets = true ∧ ∀ n ∈ below, n.same statement = false := by
  induction ns with
  | nil => simp [jumpPasses]
  | cons n ns ih =>
    rw [jumpPasses]
    by_cases htarget : n.isOneOf jumpTargets = true
    · simp only [htarget, Bool.not_true, if_true, ite_self, true_iff]
      exact ⟨[], n, ns, rfl, htarget, nofun⟩
    · have hfirst {below above : List Node} {taker : Node} (heq : n :: ns = below ++ taker :: above)
          (htaker : taker.isOneOf jumpTargets = true) :
          ∃ rest, below = n :: rest ∧ ns = rest ++ taker :: above := by
        cases below with
        | nil =>
          cases heq
          exact absurd htaker htarget
        | cons m rest =>
          cases heq
          exact ⟨rest, rfl, rfl⟩
      by_cases hsame : n.same statement = true
      · simp only [hsame, htarget, Bool.not_false, if_true, Bool.true_eq_false, false_iff]
        rintro ⟨below, taker, above, heq, htaker, hbelow⟩
        obtain ⟨rest, rfl, -⟩ := hfirst heq htaker
        rw [hbelow n List.mem_cons_self] at hsame
        cases hsame
      · rw [Bool.not_eq_true] at hsame
        simp only [hsame, htarget, Bool.false_eq_true, if_false, ih]
        constructor
        · rintro ⟨below, taker, above, rfl, htaker, hbelow⟩
          refine ⟨n :: below, taker, above, rfl, htaker, fun m hm => ?_⟩
          rcases List.mem_cons.mp hm with rfl | hm
          · exact hsame
          · exact hbelow m hm
        · rintro ⟨below, taker, above, heq, htaker, hbelow⟩
          obtain ⟨rest, rfl, hns⟩ := hfirst heq htaker
          exact ⟨rest, taker, above, hns, htaker, fun m hm => hbelow m (List.mem_cons_of_mem n hm)⟩

theorem jumpLeaves_eq_false {jump statement : Node} :
    jumpLeaves jump statement = false ↔ StaysIn statement jump := by
  rw [jumpLeaves, Bool.or_eq_false_iff, jumpPasses_eq_false, List.any_eq_false]
  constructor
  · rintro ⟨hunlabelled, htaken⟩
    exact ⟨fun part hpart => by simpa using hunlabelled part hpart, htaken⟩
  · rintro ⟨hunlabelled, htaken⟩
    exact ⟨fun part hpart => by simpa using hunlabelled part hpart, htaken⟩

/-- The constructs of a statement outside of bodies of their own. -/
def flowOf (statement : Node) : List Node := statement.visit fun n => !n.isOneOf ownBodies

/-- A statement with a `return` in it that leaves the method. -/
def Returns (statement : Node) : Prop := ∃ n ∈ flowOf statement, n.kind = .returnStatement

/-- A statement with a `break` or `continue` in it that leaves the statement. -/
def Jumps (statement : Node) : Prop :=
  ∃ n ∈ flowOf statement, n.isOneOf [.breakStatement, .continueStatement] = true ∧
    ¬ StaysIn statement n

/-! ## Statements -/

section Statement

variable (method : Node) (source : String) (s : Node)

/-- The names read in a statement, in order. -/
def namesRead : List String :=
  textsOf source (reads (MethodScope.ofMethod method source) source) s.preorder

/-- The names written in a statement, in order. -/
def namesWritten : List String :=
  textsOf source (writes (MethodScope.ofMethod method source) source) s.preorder

/-- The names declared anywhere in a statement, in order. -/
def namesDeclared : List String :=
  textsOf source (declares (MethodScope.ofMethod method source) source) s.preorder

/-- The names that a statement introduces for those after it. -/
def namesIntroduced : List String :=
  if s.kind = .localVariableDeclaration then
    (s.childrenBy .declarator).filterMap fun d => Java.declaredName? d source
  else []

/-- The facts of a statement of a method. -/
def of : StatementFacts := ofStatement s source (MethodScope.ofMethod method source)

variable {method source s} {x : String}

theorem textsOf_identifiers {p : Node → Bool} (h : ∀ n, p n = true → n.kind = .identifier) :
    textsOf source p (s.preorder.filter (·.kind = .identifier)) = textsOf source p s.preorder := by
  rw [textsOf, textsOf, List.filter_filter]
  congr 1
  refine List.filter_congr fun n _ => ?_
  cases hp : p n
  · rfl
  · simp [h n hp]

theorem kind_of_namesVariable {scope : MethodScope} {n : Node}
    (h : namesVariable scope source n = true) : n.kind = .identifier := by
  rw [namesVariable, Java.isVariableName, Bool.and_eq_true, Bool.and_eq_true] at h
  exact of_decide_eq_true h.2.1

theorem records_of : Records (MethodScope.ofMethod method source) source
    { declaredTopLevel := .ofList (namesIntroduced source s)
      hasReturn := (flowOf s).any (·.kind = .returnStatement)
      hasEscapingJump := (flowOf s).any fun n =>
        n.isOneOf [.breakStatement, .continueStatement] && jumpLeaves n s }
    (of method source s) (s.preorder.filter (·.kind = .identifier)) :=
  records_foldl ⟨rfl, rfl, rfl, rfl⟩ _

@[simp] theorem has_used :
    (of method source s).used.has x = true ↔ x ∈ namesRead method source s := by
  rw [records_of.used, textsOf_identifiers fun n hn => ?_]
  · rfl
  · rw [reads, Bool.and_eq_true, Bool.and_eq_true] at hn
    exact kind_of_namesVariable hn.1.1

@[simp] theorem has_assigned :
    (of method source s).assigned.has x = true ↔ x ∈ namesWritten method source s := by
  rw [records_of.assigned, textsOf_identifiers fun n hn => ?_]
  · rfl
  · rw [writes, Bool.and_eq_true, Bool.and_eq_true] at hn
    exact kind_of_namesVariable hn.1.1

@[simp] theorem has_declared :
    (of method source s).declared.has x = true ↔ x ∈ namesDeclared method source s := by
  rw [records_of.declared, textsOf_identifiers fun n hn => ?_]
  · rfl
  · rw [declares, Bool.and_eq_true] at hn
    exact kind_of_namesVariable hn.1

@[simp] theorem has_declaredTopLevel :
    (of method source s).declaredTopLevel.has x = true ↔ x ∈ namesIntroduced source s := by
  rw [records_of.declaredTopLevel, Names.has_ofList]

theorem readsInOrder_of :
    (of method source s).readsInOrder = firstOccurrences (namesRead method source s) := by
  rw [records_of.readsInOrder, textsOf_identifiers fun n hn => ?_]
  · rfl
  · rw [reads, Bool.and_eq_true, Bool.and_eq_true] at hn
    exact kind_of_namesVariable hn.1.1

theorem hasReturn_of : (of method source s).hasReturn = true ↔ Returns s := by
  rw [records_of.hasReturn, List.any_eq_true, Returns]
  simp

theorem hasEscapingJump_of : (of method source s).hasEscapingJump = true ↔ Jumps s := by
  rw [records_of.hasEscapingJump, List.any_eq_true, Jumps]
  refine exists_congr fun n => and_congr_right fun _ => ?_
  rw [Bool.and_eq_true, ← jumpLeaves_eq_false, Bool.not_eq_false]

end Statement

end StatementFacts

end Amend.Extraction
