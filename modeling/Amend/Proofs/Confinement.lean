import Amend.Proofs.Path
import Amend.Proofs.Plan

/-!
# Files stay in the project

Where a path leads is said component by component: each name goes down, each `..` goes up, and
above the root there is nowhere to go. A path that is resolved against a root is accepted exactly
when it leads to where the root leads, or below. Whole names are compared, so a sibling directory
whose name begins alike is outside.
-/

namespace Amend.Path

/-! ## Following a path -/

/-- From the directory with the names `dir`, the components lead to `dest`. -/
inductive Walks : List String → List Component → List String → Prop
  | done {dir : List String} : Walks dir [] dir
  | root {dir dest : List String} {cs : List Component} (h : Walks [] cs dest) :
      Walks dir (.root :: cs) dest
  | current {dir dest : List String} {cs : List Component} (h : Walks dir cs dest) :
      Walks dir (.current :: cs) dest
  | down {dir dest : List String} {cs : List Component} {name : String}
      (h : Walks (dir ++ [name]) cs dest) : Walks dir (.normal name :: cs) dest
  | up {dir dest : List String} {cs : List Component} {name : String} (h : Walks dir cs dest) :
      Walks (dir ++ [name]) (.parent :: cs) dest
  | top {dest : List String} {cs : List Component} (h : Walks [] cs dest) :
      Walks [] (.parent :: cs) dest

/-- The names of the directory or file that a path leads to from the top. -/
def Leads (p : Path) (dir : List String) : Prop := Walks [] p.components dir

/-- `p` leads to where `root` leads, or below. -/
def Under (root p : Path) : Prop := ∃ base dir, Leads root base ∧ Leads p dir ∧ base <+: dir

/-- The program keeps the names last first. -/
theorem walks_foldl (cs : List Component) (names : List String) :
    Walks names.reverse cs (cs.foldl resolveStep names).reverse := by
  induction cs generalizing names with
  | nil => exact .done
  | cons c cs ih =>
    rw [List.foldl_cons]
    cases c with
    | root => exact .root (ih [])
    | current => exact .current (ih names)
    | parent =>
      cases names with
      | nil => exact .top (ih [])
      | cons name names =>
        rw [List.reverse_cons]
        exact .up (ih names)
    | normal name =>
      have h := ih (name :: names)
      rw [List.reverse_cons] at h
      exact .down h

theorem Walks.eq_foldl {dir dest : List String} {cs : List Component} (h : Walks dir cs dest) :
    dest = (cs.foldl resolveStep dir.reverse).reverse := by
  induction h with
  | done => rw [List.foldl_nil, List.reverse_reverse]
  | root _ ih | current _ ih | top _ ih => exact ih
  | down _ ih =>
    rw [List.reverse_concat] at ih
    exact ih
  | up _ ih =>
    rw [List.reverse_concat]
    exact ih

/-- Every path leads to one place, and the program finds it. -/
theorem leads_iff {p : Path} {dir : List String} : Leads p dir ↔ dir = p.resolvedNames := by
  constructor
  · exact Walks.eq_foldl
  · rintro rfl
    exact walks_foldl p.components []

theorem isName_of_mem_foldl {cs : List Component} (hcs : ∀ name, .normal name ∈ cs → IsName name)
    {names : List String} (hnames : ∀ name ∈ names, IsName name) :
    ∀ name ∈ cs.foldl resolveStep names, IsName name := by
  induction cs generalizing names with
  | nil => exact hnames
  | cons c cs ih =>
    refine ih (fun name h => hcs name (List.mem_cons_of_mem c h)) ?_
    cases c with
    | root => exact nofun
    | current => exact hnames
    | parent => exact fun name h => hnames name (List.mem_of_mem_tail h)
    | normal name =>
      intro other hother
      rcases List.mem_cons.mp hother with rfl | hother
      · exact hcs other List.mem_cons_self
      · exact hnames other hother

theorem Leads.isName {p : Path} {dir : List String} (h : Leads p dir) :
    ∀ name ∈ dir, IsName name := by
  rw [leads_iff.mp h, resolvedNames]
  intro name hname
  exact isName_of_mem_foldl (fun _ => isName_of_mem_components)
    (fun _ h => absurd h List.not_mem_nil) name (List.mem_reverse.mp hname)

/-! ## Paths that are written down from the top -/

section Written

variable {dir : List String} (hdir : ∀ name ∈ dir, IsName name)

include hdir

theorem leads_ofNames : Leads (ofNames true dir) dir := by
  have hdown : ∀ names front : List String,
      Walks front (names.map .normal) (front ++ names) := by
    intro names
    induction names with
    | nil =>
      intro front
      rw [List.append_nil]
      exact .done
    | cons name names ih =>
      intro front
      have h := ih (front ++ [name])
      rw [List.append_assoc] at h
      exact .down h
  rw [Leads, components_ofNames hdir]
  exact .root (hdown dir [])

theorem normalize_ofNames : (ofNames true dir).normalize = ofNames true dir := by
  rw [normalize, isAbsolute_ofNames, ← leads_iff.mp (leads_ofNames hdir)]

/-- Nothing between two slashes of a path of names is `.` or `..`. -/
theorem ne_of_mem_split_ofNames {part : String}
    (h : part ∈ Text.split (· == '/') (ofNames true dir).text) : part ≠ "." ∧ part ≠ ".." := by
  have hparts : ∀ names : List String, (∀ name ∈ names, IsName name) →
      ∀ part ∈ Text.split (· == '/') ("/".intercalate names), part = "" ∨ part ∈ names := by
    intro names hnames
    induction names with
    | nil => exact fun part hpart => Or.inl (List.mem_singleton.mp hpart)
    | cons name names ih =>
      have hname := hnames name List.mem_cons_self
      have hrest := ih fun other hother => hnames other (List.mem_cons_of_mem name hother)
      intro part hpart
      cases names with
      | nil =>
        rw [String.intercalate_singleton, split_name hname.noSlash] at hpart
        exact Or.inr hpart
      | cons next names =>
        rw [String.intercalate_cons_cons, split_append_slash, split_name hname.noSlash] at hpart
        rcases List.mem_append.mp hpart with hpart | hpart
        · exact Or.inr (List.mem_cons.mpr (Or.inl (List.mem_singleton.mp hpart)))
        · exact (hrest part hpart).imp_right (List.mem_cons_of_mem name)
  rw [split_ofNames] at h
  rcases List.mem_cons.mp h with rfl | h
  · exact ⟨by decide, by decide⟩
  · rcases hparts dir hdir part h with rfl | h
    · exact ⟨by decide, by decide⟩
    · exact ⟨(hdir part h).ne_current, (hdir part h).ne_parent⟩

end Written

/-! ## Resolving against a root -/

theorem isAbsolute_join_of_absolute {p : Path} (hp : p.isAbsolute = true) (q : Path) :
    (p.join q).isAbsolute = true := by
  by_cases hq : q.isAbsolute = true
  · rw [join_of_absolute p hq]
    exact hq
  · rw [join_of_relative p (Bool.eq_false_iff.mpr hq), isAbsolute, String.append_assoc,
      String.toList_append]
    rw [isAbsolute] at hp
    cases hcs : p.text.toList with
    | nil =>
      rw [hcs] at hp
      cases hp
    | cons c cs =>
      rw [hcs] at hp
      exact hp

section Resolve

variable {root : Path} (hroot : root.isAbsolute = true) {path : Path} {base dir : List String}

include hroot

theorem normalize_of_leads (h : Leads root base) : root.normalize = ofNames true base := by
  rw [normalize, hroot, leads_iff.mp h]

/-- The whole of `resolveWithin`, by the places that the two paths lead to. -/
theorem resolveWithin_eq (hbase : Leads root base) (hdir : Leads (root.join path) dir) :
    resolveWithin root path =
      if base <+: dir then .ok (ofNames true dir) else .error ⟨path, root⟩ := by
  have hresolved := normalize_of_leads (isAbsolute_join_of_absolute hroot path) hdir
  have hstarts : (ofNames true dir).startsWith (ofNames true base) = true ↔ base <+: dir := by
    rw [startsWith, components_ofNames hdir.isName, components_ofNames hbase.isName,
      List.isPrefixOf_iff_prefix, List.cons_prefix_cons,
      List.prefix_map_iff_of_injective fun _ _ h => Component.normal.inj h]
    exact and_iff_right rfl
  rw [resolveWithin, hresolved, normalize_of_leads hroot hbase]
  simp only [hstarts]

end Resolve

/-- The files of a plan lead nowhere but to the root or below. -/
structure Confined (root : Path) (p : Plan) (identity : Path → Path) : Prop where
  action : ∀ a ∈ p.actions, Under root a.defect.file
  mutating : ∀ f ∈ p.mutatingFiles identity, Under root f
  unmatched : ∀ d ∈ p.unmatched, Under root d.file

theorem under_of_resolveWithin {root path v : Path} (hroot : root.isAbsolute = true)
    (h : resolveWithin root path = .ok v) : Under root v := by
  have hbase := leads_iff.mpr (Eq.refl root.resolvedNames)
  have hdir := leads_iff.mpr (Eq.refl (root.join path).resolvedNames)
  rw [resolveWithin_eq hroot hbase hdir] at h
  split at h
  · rename_i hbelow
    cases h
    exact ⟨_, _, hbase, leads_ofNames hdir.isName, hbelow⟩
  · cases h

theorem confined_build {root : Path} (hroot : root.isAbsolute = true) (catalog : Catalog)
    (defects : List Defect) (identity : Path → Path) :
    Confined root (Plan.build root catalog defects) identity := by
  have haction : ∀ a ∈ (Plan.build root catalog defects).actions, Under root a.defect.file := by
    intro a ha
    obtain ⟨-, d, -, hfile⟩ := Plan.planned_of_mem ha
    exact under_of_resolveWithin hroot hfile
  refine ⟨haction, ?_, ?_⟩
  · intro f hf
    obtain ⟨a, ha, -, rfl⟩ := Plan.exists_of_mem_mutatingFiles hf
    exact haction a ha
  · intro d hd
    obtain ⟨d', -, hfile⟩ := Plan.resolved_of_mem_unmatched hd
    exact under_of_resolveWithin hroot hfile

/-- Paths cannot leave an absolute root. `base` and `dir` are where the root and the joined path
lead when `..` drops a name and vanishes at the top; a path is accepted exactly when the names of
`base` are the first names of `dir`. The accepted path writes the names of `dir` down from the top,
so it is absolute, has neither `.` nor `..` in it, and resolves to itself. -/
theorem resolveWithin_confines (root path : Path) (hroot : root.isAbsolute = true) :
    (∃ base dir, Leads root base ∧ Leads (root.join path) dir) ∧
    (∀ base dir, Leads root base → Leads (root.join path) dir →
      (∀ v, resolveWithin root path = .ok v ↔ base <+: dir ∧ v = ofNames true dir) ∧
      (¬ base <+: dir → resolveWithin root path = .error ⟨path, root⟩)) ∧
    (∀ v, resolveWithin root path = .ok v →
      v.isAbsolute = true ∧
      (∀ part ∈ Text.split (· == '/') v.text, part ≠ "." ∧ part ≠ "..") ∧
      v.normalize = v ∧ resolveWithin root v = .ok v) ∧
    ∀ catalog defects identity, Confined root (Plan.build root catalog defects) identity := by
  have hbase := leads_iff.mpr (Eq.refl root.resolvedNames)
  have hdir := leads_iff.mpr (Eq.refl (root.join path).resolvedNames)
  refine ⟨⟨_, _, hbase, hdir⟩, ?_, ?_, confined_build hroot⟩
  · intro base dir hbase hdir
    rw [resolveWithin_eq hroot hbase hdir]
    by_cases hbelow : base <+: dir
    · simp [hbelow, eq_comm]
    · simp [hbelow]
  · intro v hv
    rw [resolveWithin_eq hroot hbase hdir] at hv
    split at hv
    · rename_i hbelow
      cases hv
      have hnames := hdir.isName
      have habsolute := isAbsolute_ofNames (root.join path).resolvedNames
      have hagain : Leads (root.join (ofNames true (root.join path).resolvedNames))
          (root.join path).resolvedNames := by
        rw [join_of_absolute root habsolute]
        exact leads_ofNames hnames
      refine ⟨habsolute, fun _ => ne_of_mem_split_ofNames hnames, normalize_ofNames hnames, ?_⟩
      rw [resolveWithin_eq hroot hbase hagain, if_pos hbelow]
    · cases hv

/-- A path may leave its root and come back; a sibling of the root whose name begins alike is
outside. -/
theorem resolveWithin_confines_project :
    Path.isAbsolute ⟨"/home/../srv/project"⟩ = true ∧
      resolveWithin ⟨"/home/../srv/project"⟩ ⟨"../../srv//project/./A.java"⟩ =
        .ok ⟨"/srv/project/A.java"⟩ ∧
      resolveWithin ⟨"/home/../srv/project"⟩ ⟨"../project-old/A.java"⟩ =
        .error ⟨⟨"../project-old/A.java"⟩, ⟨"/home/../srv/project"⟩⟩ := by
  have habsolute : Path.isAbsolute ⟨"/home/../srv/project"⟩ = true := rfl
  have hbase : Leads ⟨"/home/../srv/project"⟩ ["srv", "project"] := leads_iff.mpr (by decide)
  have hinside : Leads (Path.join ⟨"/home/../srv/project"⟩ ⟨"../../srv//project/./A.java"⟩)
      ["srv", "project", "A.java"] := leads_iff.mpr (by decide)
  have houtside : Leads (Path.join ⟨"/home/../srv/project"⟩ ⟨"../project-old/A.java"⟩)
      ["srv", "project-old", "A.java"] := leads_iff.mpr (by decide)
  obtain ⟨-, haccepts, -⟩ := resolveWithin_confines ⟨"/home/../srv/project"⟩
    ⟨"../../srv//project/./A.java"⟩ habsolute
  obtain ⟨-, hrefuses, -⟩ := resolveWithin_confines ⟨"/home/../srv/project"⟩
    ⟨"../project-old/A.java"⟩ habsolute
  exact ⟨habsolute, ((haccepts _ _ hbase hinside).1 _).mpr ⟨by decide, rfl⟩,
    (hrefuses _ _ hbase houtside).2 (by decide)⟩

end Amend.Path
