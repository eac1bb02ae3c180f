import Amend.Plan
import Mathlib.Data.List.Forall2

/-!
# What a plan may do

An action of a plan stands for a refactoring of the catalog that the plan was made with.  An action
that counts as advisory is carried out by a refactoring that never rewrites a file.
-/

namespace Amend

namespace Catalog

open Refactoring

variable {t : Tuning} {r : Refactoring}

/-- Only the report on long methods is advisory, and nothing else has its name. -/
theorem advisory_iff (h : r ∈ (standard t).entries) :
    r.advisory = true ↔ r.name = "extract-method-advisory" := by
  rw [standard, List.mem_append, List.mem_append] at h
  rcases h with (h | h) | h
  · simp only [List.mem_cons, List.not_mem_nil, or_false] at h
    rcases h with rfl | rfl | rfl | rfl | rfl | rfl | rfl | rfl | rfl <;>
      simp [extractConstant, removeUnusedImport, removeDeadCode, simplifyConditional,
        tryWithResources, introduceParameterObject, replaceSwitchWithDispatch, inlineMethod,
        renameVariable]
  · split at h
    · rw [List.mem_singleton.mp h]
      simp [extractMethod]
    · cases h
  · rw [List.mem_singleton.mp h]
    simp [adviseExtraction]

theorem advise_ne_edit {threshold : Nat} {settings : Extraction.BlockSettings} {d : Defect}
    {source content description : String} {tree : Syntax.Tree} {shifts : List LineShift} :
    LongMethod.advise threshold settings d source tree ≠
      .ok (.edit content shifts description) := by
  rw [LongMethod.advise]
  cases LongMethod.target "extract-method-advisory" threshold d source tree with
  | error e => exact nofun
  | ok p =>
    dsimp only [bind, Except.bind]
    split <;> exact nofun

/-- A rewrite is what the refactoring makes of a source that parses. -/
theorem rewrite_of_compute {parse : Syntax.Parser} {d : Defect} {source : String} {rw : Rewrite}
    (h : r.compute parse d source = .ok rw) :
    ∃ tree, parse.verify source = .ok tree ∧ r.rewrite parse d source tree = .ok rw := by
  rw [Refactoring.compute] at h
  cases hverify : parse.verify source with
  | error cause =>
    rw [hverify] at h
    cases h
  | ok tree =>
    rw [hverify] at h
    refine ⟨tree, rfl, ?_⟩
    dsimp only [bind, Except.bind, pure, Except.pure] at h
    cases hrewrite : r.rewrite parse d source tree with
    | error e =>
      rw [hrewrite] at h
      cases h
    | ok rw' =>
      rw [hrewrite] at h
      cases rw' with
      | advice description notes => exact h
      | edit content shifts description =>
        dsimp only at h
        split at h
        · exact h
        · cases h
        · cases h

/-- An advisory refactoring never asks for an edit. -/
theorem compute_ne_edit (h : r ∈ (standard t).entries) (hadvisory : r.advisory = true)
    {parse : Syntax.Parser} {d : Defect} {source content description : String}
    {shifts : List LineShift} :
    r.compute parse d source ≠ .ok (.edit content shifts description) := by
  intro hcompute
  obtain ⟨tree, -, hrewrite⟩ := rewrite_of_compute hcompute
  rw [standard, List.mem_append, List.mem_append] at h
  rcases h with (h | h) | h
  · simp only [List.mem_cons, List.not_mem_nil, or_false] at h
    rcases h with rfl | rfl | rfl | rfl | rfl | rfl | rfl | rfl | rfl <;> cases hadvisory
  · split at h
    · rw [List.mem_singleton.mp h] at hadvisory
      cases hadvisory
    · cases h
  · rw [List.mem_singleton.mp h] at hrewrite
    exact advise_ne_edit hrewrite

/-- The name of a refactoring leads to one of the same kind. -/
theorem find?_name (h : r ∈ (standard t).entries) :
    ∃ r', (standard t).find? r.name = some r' ∧ r' ∈ (standard t).entries ∧ r'.name = r.name ∧
      r'.advisory = r.advisory := by
  cases hfound : (standard t).find? r.name with
  | none =>
    rw [find?, List.find?_eq_none] at hfound
    exact absurd (decide_eq_true rfl) (hfound r h)
  | some r' =>
    have hmem : r' ∈ (standard t).entries := List.mem_of_find?_eq_some hfound
    have hname : r'.name = r.name := by simpa using List.find?_some hfound
    refine ⟨r', rfl, hmem, hname, ?_⟩
    rw [Bool.eq_iff_iff, advisory_iff hmem, advisory_iff h, hname]

end Catalog

namespace Plan

variable {root : Path} {catalog : Catalog} {defects : List Defect} {a : PlannedAction}

/-! ## What becomes of each defect -/

/-- The plans side by side, the first one's entries in front. -/
def append (p q : Plan) : Plan :=
  ⟨p.actions ++ q.actions, p.unmatched ++ q.unmatched, p.rejected ++ q.rejected⟩

/-- What one defect adds to a plan. A defect that must not be mended adds nothing, one outside the
root a rejection, and one that nothing in the catalog handles goes unmatched. Any other is bound to
the refactoring that handles it and comes first in the catalog. -/
inductive Part (root : Path) (catalog : Catalog) (d : Defect) : Plan → Prop
  | dropped (hfix : d.autoFixable = false) : Part root catalog d {}
  | rejected {e : Path.OutsideRoot} (hfix : d.autoFixable = true)
      (hfile : Path.resolveWithin root d.file = .error e) :
      Part root catalog d { rejected := [⟨d, e⟩] }
  | unmatched {file : Path} (hfix : d.autoFixable = true)
      (hfile : Path.resolveWithin root d.file = .ok file)
      (hnone : ∀ r ∈ catalog.entries, r.handles { d with file } = false) :
      Part root catalog d { unmatched := [{ d with file }] }
  | planned {file : Path} {r : Refactoring} {before after : List Refactoring}
      (hfix : d.autoFixable = true) (hfile : Path.resolveWithin root d.file = .ok file)
      (hentries : catalog.entries = before ++ r :: after)
      (hbefore : ∀ r' ∈ before, r'.handles { d with file } = false)
      (hhandles : r.handles { d with file } = true) :
      Part root catalog d { actions := [⟨{ d with file }, r.name, r.advisory⟩] }

theorem add_part (root : Path) (catalog : Catalog) (p : Plan) (d : Defect) :
    ∃ q, Part root catalog d q ∧ add root catalog p d = p.append q := by
  rw [add]
  cases hfix : d.autoFixable with
  | false => exact ⟨{}, .dropped hfix, by simp [append]⟩
  | true =>
    cases hfile : Path.resolveWithin root d.file with
    | error e => exact ⟨_, .rejected hfix hfile, by simp [append]⟩
    | ok file =>
      dsimp only
      cases hfirst : catalog.firstMatch? { d with file } with
      | none =>
        have hnone := List.find?_eq_none.mp hfirst
        exact ⟨_, .unmatched hfix hfile fun r hr => Bool.eq_false_iff.mpr (hnone r hr),
          by simp [append]⟩
      | some r =>
        obtain ⟨hhandles, before, after, hentries, hbefore⟩ :=
          List.find?_eq_some_iff_append.mp hfirst
        exact ⟨_, .planned hfix hfile hentries (fun r' hr' => by simpa using hbefore r' hr')
          hhandles, by simp [append]⟩

theorem foldl_add_parts (root : Path) (catalog : Catalog) (ds : List Defect) (p : Plan) :
    ∃ parts, List.Forall₂ (Part root catalog) ds parts ∧
      ds.foldl (add root catalog) p = parts.foldl append p := by
  induction ds generalizing p with
  | nil => exact ⟨[], .nil, rfl⟩
  | cons d ds ih =>
    obtain ⟨q, hq, hadd⟩ := add_part root catalog p d
    obtain ⟨parts, hparts, hfold⟩ := ih (p.append q)
    refine ⟨q :: parts, .cons hq hparts, ?_⟩
    rw [List.foldl_cons, hadd, hfold, List.foldl_cons]

theorem foldl_append (parts : List Plan) (p : Plan) :
    parts.foldl append p = ⟨p.actions ++ parts.flatMap (·.actions),
      p.unmatched ++ parts.flatMap (·.unmatched), p.rejected ++ parts.flatMap (·.rejected)⟩ := by
  induction parts generalizing p with
  | nil => simp
  | cons q parts ih =>
    rw [List.foldl_cons, ih]
    simp [append]

/-- A plan is made of the parts of its defects, one after the other. -/
theorem exists_parts (root : Path) (catalog : Catalog) (defects : List Defect) :
    ∃ parts, List.Forall₂ (Part root catalog) defects parts ∧
      build root catalog defects = ⟨parts.flatMap (·.actions), parts.flatMap (·.unmatched),
        parts.flatMap (·.rejected)⟩ := by
  obtain ⟨parts, hparts, hfold⟩ := foldl_add_parts root catalog defects {}
  refine ⟨parts, hparts, ?_⟩
  rw [build, hfold, foldl_append]
  rfl

/-- What is true of the part of every defect is found in the plan. -/
theorem exists_part_of_mem {α : Type} {entries : Plan → List α} {x : α} {parts : List Plan}
    (hparts : List.Forall₂ (Part root catalog) defects parts) (hx : x ∈ parts.flatMap entries) :
    ∃ d ∈ defects, ∃ q, Part root catalog d q ∧ x ∈ entries q := by
  induction hparts with
  | nil => cases hx
  | cons hq _ ih =>
    rw [List.flatMap_cons] at hx
    rcases List.mem_append.mp hx with hx | hx
    · exact ⟨_, List.mem_cons_self, _, hq, hx⟩
    · obtain ⟨d, hd, q, hpart, hmem⟩ := ih hx
      exact ⟨d, List.mem_cons_of_mem _ hd, q, hpart, hmem⟩

/-- An action that is bound to the first refactoring that handles its defect. -/
def Matched (catalog : Catalog) (a : PlannedAction) : Prop :=
  ∃ r, catalog.firstMatch? a.defect = some r ∧ a.refactoring = r.name ∧ a.advisory = r.advisory

/-- An action has a defect of its own behind it, whose file it names. -/
theorem planned_of_mem (h : a ∈ (build root catalog defects).actions) :
    Matched catalog a ∧
      ∃ d ∈ defects, Path.resolveWithin root d.file = .ok a.defect.file := by
  obtain ⟨parts, hparts, hbuild⟩ := exists_parts root catalog defects
  rw [hbuild] at h
  obtain ⟨d, hd, q, hpart, hmem⟩ := exists_part_of_mem hparts h
  cases hpart with
  | dropped | rejected | unmatched => cases hmem
  | planned hfix hfile hentries hbefore hhandles =>
    obtain rfl := List.mem_singleton.mp hmem
    refine ⟨⟨_, ?_, rfl, rfl⟩, d, hd, hfile⟩
    rw [Catalog.firstMatch?, List.find?_eq_some_iff_append]
    exact ⟨hhandles, _, _, hentries, fun r' hr' => by simpa using hbefore r' hr'⟩

theorem matched_of_mem (h : a ∈ (build root catalog defects).actions) : Matched catalog a :=
  (planned_of_mem h).1

theorem resolved_of_mem_unmatched {d : Defect} (h : d ∈ (build root catalog defects).unmatched) :
    ∃ d' ∈ defects, Path.resolveWithin root d'.file = .ok d.file := by
  obtain ⟨parts, hparts, hbuild⟩ := exists_parts root catalog defects
  rw [hbuild] at h
  obtain ⟨d', hd', q, hpart, hmem⟩ := exists_part_of_mem hparts h
  cases hpart with
  | dropped | rejected | planned => cases hmem
  | unmatched hfix hfile hnone =>
    obtain rfl := List.mem_singleton.mp hmem
    exact ⟨d', hd', hfile⟩

/-- The refactoring of an action is found under its name, and is advisory if the action is. -/
theorem find?_of_mem {t : Tuning} (h : a ∈ (build root (.standard t) defects).actions) :
    ∃ r, (Catalog.standard t).find? a.refactoring = some r ∧ r ∈ (Catalog.standard t).entries ∧
      r.advisory = a.advisory := by
  obtain ⟨r, hr, hname, hadvisory⟩ := matched_of_mem h
  obtain ⟨r', hfound, hmem, -, hadvisory'⟩ := Catalog.find?_name (List.mem_of_find?_eq_some hr)
  exact ⟨r', hname ▸ hfound, hmem, hadvisory'.trans hadvisory.symm⟩

/-! ## Files that may be written -/

variable {identity : Path → Path} {files : List Path} {f : Path} {p : Plan}

theorem mem_of_mem_distinct (h : f ∈ distinct identity files) : f ∈ files := by
  induction files with
  | nil => exact h
  | cons g gs ih =>
    rcases List.mem_cons.mp h with rfl | h
    · exact List.mem_cons_self
    · exact List.mem_cons_of_mem g (ih (List.mem_filter.mp h).1)

/-- The files that have another identity than each file in front of them. -/
def firstFiles (identity : Path → Path) (files : List Path) : List Path :=
  (files.zipIdx.filter fun x =>
    (files.take x.2).all fun g => identity g ≠ identity x.1).map (·.1)

theorem distinct_eq_firstFiles : distinct identity files = firstFiles identity files := by
  induction files with
  | nil => rfl
  | cons g gs ih =>
    have hrest : ∀ x : Path × Nat,
        (((g :: gs).take (x.2 + 1)).all fun k => decide (identity k ≠ identity x.1)) =
          (decide (identity x.1 ≠ identity g) &&
            (gs.take x.2).all fun k => decide (identity k ≠ identity x.1)) := by
      intro x
      rw [List.take_succ_cons, List.all_cons]
      congr 2
      exact propext ne_comm
    rw [distinct, ih, firstFiles, firstFiles, List.zipIdx_cons, List.filter_cons_of_pos (by simp),
      List.map_cons, List.zipIdx_succ, List.filter_map, List.filter_filter, List.filter_map,
      List.map_map]
    simp only [Function.comp_def, hrest]

/-- Of each group of paths with one identity one is left. -/
theorem exists_mem_distinct (h : f ∈ files) :
    ∃ g ∈ distinct identity files, identity g = identity f := by
  induction files with
  | nil => cases h
  | cons g gs ih =>
    by_cases heq : identity f = identity g
    · exact ⟨g, List.mem_cons_self, heq.symm⟩
    · rcases List.mem_cons.mp h with rfl | h
      · exact absurd rfl heq
      · obtain ⟨k, hk, hsame⟩ := ih h
        refine ⟨k, List.mem_cons_of_mem g (List.mem_filter.mpr ⟨hk, ?_⟩), hsame⟩
        rw [hsame]
        exact decide_eq_true heq

/-- The files that a plan may write are those of its actions that are not advisory. -/
theorem exists_of_mem_mutatingFiles (h : f ∈ p.mutatingFiles identity) :
    ∃ a ∈ p.actions, a.advisory = false ∧ a.defect.file = f := by
  obtain ⟨a, ha, rfl⟩ := List.mem_map.mp (mem_of_mem_distinct h)
  obtain ⟨hmem, hadvisory⟩ := List.mem_filter.mp ha
  exact ⟨a, hmem, Bool.not_eq_true' _ ▸ hadvisory, rfl⟩

theorem exists_mem_mutatingFiles (h : a ∈ p.actions) (hadvisory : a.advisory = false) :
    ∃ f ∈ p.mutatingFiles identity, identity f = identity a.defect.file := by
  refine exists_mem_distinct (List.mem_map.mpr ⟨a, List.mem_filter.mpr ⟨h, ?_⟩, rfl⟩)
  rw [hadvisory]
  rfl

end Plan

end Amend
