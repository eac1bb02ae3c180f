import Amend.Proofs.Workflow.Apply

/-!
# How a live run ends

Once the backup is there, a run stays underway through all actions and both verifications, however
each of them ends.  A run that is halted then has all files of its backup to put back, and a run
that ends as rolled back has put them back.
-/

namespace Amend

open Disk (Frame Plain)
open World (Within Changed)
open FileLocks (Region)

/-- A run that goes on from another one has its plan and its backup. -/
structure Run.GoesOn (r r' : Run) : Prop where
  plan : r'.plan = r.plan
  set : r'.set = r.set
  members : r'.members = r.members

namespace Run.GoesOn

variable {r r' r'' : Run}

theorem refl (r : Run) : r.GoesOn r := ⟨rfl, rfl, rfl⟩

theorem trans (h : r.GoesOn r') (h' : r'.GoesOn r'') : r.GoesOn r'' :=
  ⟨h'.plan.trans h.plan, h'.set.trans h.set, h'.members.trans h.members⟩

theorem report (r : Run) (index : Nat) (refactoring : String) (d : Defect) (o : ActionOutcome) :
    r.GoesOn (r.report index refactoring d o) := ⟨rfl, rfl, rfl⟩

theorem halt (r : Run) (phase : Phase) (dirty : Bool) (cause : HaltCause) :
    r.GoesOn (r.halt phase dirty cause).run := ⟨rfl, rfl, rfl⟩

end Run.GoesOn

namespace Workbench

variable {b : Workbench} {base : Location} {theirs : Location → Prop} {w v v' : World}
  {r r' : Run} {j : SnapshotIndex} {t : Tuning} {defects : List Defect}

theorem Secured.goesOn (h : Secured b base w r v j) (hr : r.GoesOn r') :
    Secured b base w r' v j where
  kept := by
    rw [hr.set, hr.members]
    exact h.kept
  sources := by
    rw [hr.members, hr.plan]
    exact h.sources
  covers := by
    rw [hr.plan, hr.members]
    exact h.covers
  ids := by
    rw [hr.set, hr.members]
    exact h.ids

theorem Underway.goesOn (h : Underway b base theirs w r v) (hr : r.GoesOn r') :
    Underway b base theirs w r' v where
  secured := by
    obtain ⟨j, hsecured⟩ := h.secured
    exact ⟨j, hsecured.goesOn hr⟩
  changed := by
    rw [hr.plan]
    exact h.changed

/-- What a part of a run leads to, whether the run is halted there or not. -/
def Carries (b : Workbench) (base : Location) (theirs : Location → Prop) (w : World) (r : Run) :
    Except Halted Run → World → Prop
  | .ok r', v' => r.GoesOn r' ∧ Underway b base theirs w r' v'
  | .error e, v' => e.dirty = true ∧ r.GoesOn e.run ∧ Underway b base theirs w e.run v'

theorem Carries.of_goesOn (hr : r.GoesOn r') {res : Except Halted Run}
    (h : Carries b base theirs w r' res v) : Carries b base theirs w r res v := by
  cases res with
  | ok r'' => exact ⟨hr.trans h.1, h.2⟩
  | error e => exact ⟨h.1, hr.trans h.2.1, h.2.2⟩

/-- A run that is halted as one that may have written files. -/
theorem Underway.halted (h : Underway b base theirs w r v) (phase : Phase) (cause : HaltCause) :
    Carries b base theirs w r (.error (r.halt phase true cause)) v :=
  ⟨rfl, .halt r phase true cause, h.goesOn (.halt r phase true cause)⟩

/-! ## Actions -/

section Actions

variable {a : PlannedAction} {d : Defect}

/-- The backup has a snapshot of the file of each action that may write. -/
theorem Underway.member?_isSome (h : Underway b base theirs w r v) (ha : a ∈ r.plan.actions)
    (hadvisory : a.advisory = false) {l : Location}
    (hplain : Plain w.disk (w.absolute a.defect.file) l) :
    (r.member? (v.identity a.defect.file)).isSome = true := by
  obtain ⟨j, hsecured⟩ := h.secured
  obtain ⟨t, ht, hsource⟩ := hsecured.covers a ha hadvisory
  rw [World.identity_of_plain (h.changed.plain hplain), ← World.identity_of_plain hplain, ← hsource]
  exact List.find?_isSome.mpr ⟨t, ht, beq_self_eq_true _⟩

/-- An action of the plan ends as its refactoring does.  It has all that it asks for. -/
theorem applyAction_of_apply (h : Underway b base theirs w r v) (hreach : r.plan.Reaches base w)
    (ha : a ∈ r.plan.actions) (hfile : d.file = a.defect.file) {rf : Refactoring}
    (hfound : b.catalog.find? a.refactoring = some rf)
    {P : Except ApplyError ApplyDetail → World → Prop}
    {Q : Except Halted ActionOutcome → World → Prop}
    (happly : (b.apply rf d (r.member? (v.identity d.file))).Ends v P)
    (hok : ∀ detail v', P (.ok detail) v' → Q (.ok (.ofDetail detail)) v')
    (hhalted : ∀ e v', P (.error e) v' → e.isUnrecoverable = true →
      Q (.error (r.halt .apply true (.action e))) v')
    (hfailed : ∀ e v', P (.error e) v' → e.isUnrecoverable = false → Q (.ok (.failed e)) v') :
    (b.applyAction r a d).Ends v Q := by
  obtain ⟨l, -, hplain, -⟩ := hreach a ha
  rw [applyAction, hfound]
  refine Act.ends_look_bind ?_
  split
  case isTrue hnone =>
    rw [Bool.and_eq_true, Bool.not_eq_true', Option.isNone_iff_eq_none] at hnone
    have hsome := h.member?_isSome ha hnone.1 hplain
    rw [← hfile, hnone.2] at hsome
    cases hsome
  case isFalse =>
    refine happly.outcome.bind (fun res v₁ h₁ => ?_) fun e v₁ h₁ => h₁.elim
    cases res with
    | ok detail => exact Act.ends_pure (hok detail v₁ h₁)
    | error e =>
      dsimp only
      split
      case isTrue hunrecoverable => exact Act.ends_throw (hhalted e v₁ h₁ hunrecoverable)
      case isFalse hrecoverable =>
        exact Act.ends_pure (hfailed e v₁ h₁ (Bool.eq_false_iff.mpr hrecoverable))

/-- An advisory action is carried out by a refactoring that never asks for an edit. -/
theorem exists_refactoring (hcatalog : b.catalog = .standard t)
    (hplan : r.plan = Plan.build b.root b.catalog defects) (ha : a ∈ r.plan.actions) :
    ∃ rf, b.catalog.find? a.refactoring = some rf ∧ (a.advisory = false ∨
      ∀ d source content shifts description,
        rf.compute b.parse d source ≠ .ok (.edit content shifts description)) := by
  rw [hplan, hcatalog] at ha
  obtain ⟨rf, hfound, hentry, hadvisory⟩ := Plan.find?_of_mem ha
  refine ⟨rf, hcatalog ▸ hfound, ?_⟩
  cases hkind : a.advisory with
  | false => exact Or.inl rfl
  | true => exact Or.inr fun _ _ _ _ _ => Catalog.compute_ne_edit hentry (hadvisory.trans hkind)

/-- An action of the plan, whose record may have other lines by now, leaves the run underway. -/
theorem applyAction_ends (h : Underway b base theirs w r v)
    (hcheck : ∀ file, b.store.LeftAlone base theirs fun w => (b.check file w).2)
    (hcatalog : b.catalog = .standard t) (hplan : r.plan = Plan.build b.root b.catalog defects)
    (hreach : r.plan.Reaches base w) (ha : a ∈ r.plan.actions)
    (hfile : d.file = a.defect.file) :
    (b.applyAction r a d).Ends v fun res v' =>
      match res with
      | .ok _ => Underway b base theirs w r v'
      | .error e => e.dirty = true ∧ r.GoesOn e.run ∧ Underway b base theirs w e.run v' := by
  obtain ⟨l, content, hplain, hout, -⟩ := hreach a ha
  obtain ⟨rf, hfound, hkind⟩ := exists_refactoring hcatalog hplan ha
  have happly : (b.apply rf d (r.member? (v.identity d.file))).Ends v fun _ v' =>
      Underway b base theirs w r v' := by
    rw [← hfile] at hplain
    refine apply_ends h hcheck hplain hout (fun t => List.mem_of_find?_eq_some) ?_
    exact hkind.imp (fun hadvisory => ⟨a, ha, hadvisory, hfile ▸ hplain⟩) fun hnever => hnever d
  exact applyAction_of_apply h hreach ha hfile hfound happly (fun _ _ h₁ => h₁)
    (fun e _ h₁ _ => h₁.halted .apply (.action e)) fun _ _ h₁ _ => h₁

/-- All actions leave the run underway. -/
theorem applyActions_ends (h : Underway b base theirs w r v)
    (hcheck : ∀ file, b.store.LeftAlone base theirs fun w => (b.check file w).2)
    (hcatalog : b.catalog = .standard t) (hplan : r.plan = Plan.build b.root b.catalog defects)
    (hreach : r.plan.Reaches base w) {actions : List PlannedAction}
    (hactions : ∀ a ∈ actions, a ∈ r.plan.actions) (lines : LineMap) (index : Nat) :
    (b.applyActions r lines index actions).Ends v (Carries b base theirs w r) := by
  induction actions generalizing r v lines index with
  | nil => exact Act.ends_pure ⟨.refl r, h⟩
  | cons a actions ih =>
    rw [applyActions]
    refine Act.ends_look_bind ?_
    have hfile : (lines.remapDefect (v.identity a.defect.file) a.defect).file = a.defect.file := rfl
    refine (applyAction_ends h hcheck hcatalog hplan hreach (hactions a List.mem_cons_self)
      hfile).bind ?_ fun e v₁ h₁ => h₁
    intro outcome v₁ h₁
    refine Act.ends_look_bind ?_
    generalize lines.remapDefect (v.identity a.defect.file) a.defect = d
    have hr := Run.GoesOn.report r index a.refactoring d outcome
    have h₂ := h₁.goesOn hr
    dsimp only
    split
    · exact Act.ends_throw ((h₂.halted .apply (.stopped index a.refactoring)).of_goesOn hr)
    · exact (ih h₂ hplan hreach (fun a' ha' => hactions a' (List.mem_cons_of_mem a ha')) _ _).mono
        fun _ _ h₃ => h₃.of_goesOn hr

end Actions

/-! ## Verification -/

theorem verify_ends (h : Underway b base theirs w r v) {phase : Phase} {wanted : Bool}
    {skipped failed : String} {step : Act Build.RunError Build.StepOutcome}
    {keep : Run → Build.StepOutcome → Run}
    (hstep : b.store.LeftAlone base theirs fun w => (step.apply w).2)
    (hkeep : ∀ s, r.GoesOn (keep r s)) :
    (verify r phase wanted skipped failed step keep).Ends v (Carries b base theirs w r) := by
  rw [verify]
  split
  · exact Act.ends_pure ⟨hkeep _, h.goesOn (hkeep _)⟩
  · have hrun : step.Ends v fun _ v' => Underway b base theirs w r v' :=
      Act.ends_iff.mpr (h.leftAlone hstep)
    refine hrun.outcome.bind (fun res v₁ h₁ => ?_) fun e v₁ h₁ => h₁.elim
    cases res with
    | error e => exact Act.ends_throw (h₁.halted phase (.notRun e))
    | ok s =>
      have h₂ := h₁.goesOn (hkeep s)
      dsimp only
      split
      · exact Act.ends_throw ((h₂.halted phase _).of_goesOn (hkeep s))
      · exact Act.ends_pure ⟨hkeep s, h₂⟩

/-! ## Phases -/

/-- All phases of a run.  It is halted before anything outside the directory of the store was
written, or is underway when it ends. -/
theorem phases_ends {i : SnapshotIndex} (h : b.store.InOrder base w i) (hnew : w.DrawsNew i)
    (honce : w.DrawsOnce ((b.backUp r).apply w).2.drawn) (hb : b.Undisturbed base theirs)
    (hcatalog : b.catalog = .standard t) (hplan : r.plan = Plan.build b.root b.catalog defects)
    (hreach : r.plan.Reaches base w) (hset : r.set = none) (hmembers : r.members = []) :
    (b.phases r).Ends w fun res v =>
      match res with
      | .ok (r', _) => r'.plan = r.plan ∧ Underway b base theirs w r' v
      | .error e => e.dirty = false ∧ e.run.set = none ∧ Changed (base <+: ·) w v ∨
          e.dirty = true ∧ e.run.plan = r.plan ∧ Underway b base theirs w e.run v := by
  rw [phases]
  refine (backUp_ends h hnew hreach hset hmembers).and_apply.bind ?_ fun e v hv => Or.inl hv.1
  rintro r₁ v₁ ⟨⟨hsecured, hchanged, hr₁⟩, hrun⟩
  rw [hrun] at honce
  have hplan₁ : r₁.plan = r.plan := by
    rw [hr₁]
  have h₁ : Underway b base theirs w r₁ v₁ := ⟨hsecured honce, hchanged.mono fun _ => Or.inl⟩
  have hhalted {r' : Run} {e : Halted} {v : World} (hr' : r'.plan = r.plan)
      (h : Carries b base theirs w r' (.error e) v) :
      e.dirty = true ∧ e.run.plan = r.plan ∧ Underway b base theirs w e.run v :=
    ⟨h.1, h.2.1.plan.trans hr', h.2.2⟩
  refine (applyActions_ends h₁ hb.check hcatalog (hplan₁.trans hplan) (hplan₁ ▸ hreach)
    (fun _ ha => ha) .empty 0).bind ?_ fun e v hv => Or.inr (hhalted hplan₁ hv)
  rintro r₂ v₂ ⟨hr₂, h₂⟩
  have hplan₂ := hr₂.plan.trans hplan₁
  split
  · exact Act.ends_pure ⟨hplan₂, h₂⟩
  · have hbuild : (b.verifyBuild r₂).Ends v₂ (Carries b base theirs w r₂) :=
      verify_ends h₂ hb.build fun s => ⟨rfl, rfl, rfl⟩
    refine hbuild.bind ?_ fun e v hv => Or.inr (hhalted hplan₂ hv)
    rintro r₃ v₃ ⟨hr₃, h₃⟩
    have hplan₃ := hr₃.plan.trans hplan₂
    have htests : (b.verifyTests r₃).Ends v₃ (Carries b base theirs w r₃) :=
      verify_ends h₃ hb.test fun s => ⟨rfl, rfl, rfl⟩
    refine htests.bind ?_ fun e v hv => Or.inr (hhalted hplan₃ hv)
    rintro r₄ v₄ ⟨hr₄, h₄⟩
    exact Act.ends_pure ⟨hr₄.plan.trans hplan₃, h₄⟩

end Workbench

end Amend
