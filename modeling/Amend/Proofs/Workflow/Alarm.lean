import Amend.Proofs.Workflow.Coherence
import Amend.Proofs.Workflow.Outcome

/-!
# When a run calls for manual attention

A run that may have written files and cannot be put back says that they need manual attention.  Either
putting back its backup was tried and failed, or there was no backup, because no action of its plan
may write.  In the second case nothing was written, so it is a false alarm; it is raised just if an
action failed and a failed action ends the run.
-/

namespace Amend

open Act (Settles)

namespace Workbench

variable {b : Workbench} {w v : World} {r r' : Run} {defects : List Defect} {t : Tuning}

/-! ## The backup of a run -/

/-- A run that has a backup, unless no action of its plan may write. -/
def HasBackup (r : Run) : Prop := r.set = none → ∀ a ∈ r.plan.actions, a.advisory = true

theorem HasBackup.goesOn (h : HasBackup r) (hr : r.GoesOn r') : HasBackup r' := by
  rw [HasBackup, hr.set, hr.plan]
  exact h

/-- The run with which a part of it ends. -/
def runOf : Except Halted Run → Run
  | .ok r => r
  | .error e => e.run

/-- The backup is taken, or halts the run before anything is written. -/
theorem backUp_hasBackup : (b.backUp r).Ends w fun res _ =>
    match res with
    | .ok r' => r'.plan = r.plan ∧ HasBackup r'
    | .error e => e.run.plan = r.plan ∧ e.dirty = false := by
  rw [backUp]
  refine Act.ends_look_bind ?_
  split
  case isTrue hnothing =>
    refine Act.ends_pure ⟨rfl, fun _ a ha => ?_⟩
    by_contra hwrites
    obtain ⟨f, hf, -⟩ : ∃ f ∈ r.plan.mutatingFiles w.identity,
        w.identity f = w.identity a.defect.file :=
      Plan.exists_mem_mutatingFiles ha (Bool.eq_false_iff.mpr hwrites)
    rw [List.isEmpty_iff.mp hnothing] at hf
    exact List.not_mem_nil hf
  case isFalse =>
    refine Act.Ends.bind (Act.Ends.mapError Act.ends_trivial) ?_ ?_
    · exact fun _ v _ => Act.ends_pure ⟨rfl, fun h => absurd h (Option.some_ne_none _)⟩
    · rintro e v ⟨cause, rfl, -⟩
      exact ⟨rfl, rfl⟩

/-- The actions have no part in the backup. -/
theorem applyActions_goesOn {actions : List PlannedAction} (lines : LineMap) (index : Nat) :
    (b.applyActions r lines index actions).Ends w fun res _ => r.GoesOn (runOf res) := by
  induction actions generalizing r w lines index with
  | nil => exact Act.ends_pure (.refl r)
  | cons a actions ih =>
    rw [applyActions]
    refine Act.ends_look_bind (applyAction_halts.bind (fun outcome v _ => ?_) ?_)
    · refine Act.ends_look_bind ?_
      generalize lines.remapDefect (w.identity a.defect.file) a.defect = d
      have hr := Run.GoesOn.report r index a.refactoring d outcome
      dsimp only
      split
      · exact Act.ends_throw (hr.trans (.halt _ .apply true (.stopped index a.refactoring)))
      · exact (ih _ _).mono fun _ _ h => hr.trans h
    · rintro _ v ⟨dirty, cause, rfl⟩
      exact .halt r .apply dirty cause

theorem verify_goesOn {phase : Phase} {wanted : Bool} {skipped failed : String}
    {step : Act Build.RunError Build.StepOutcome} {keep : Run → Build.StepOutcome → Run}
    (hkeep : ∀ s, r.GoesOn (keep r s)) :
    (verify r phase wanted skipped failed step keep).Ends w fun res _ => r.GoesOn (runOf res) := by
  refine verify_verifies.mono ?_
  rintro (e | r') v hverifies
  · obtain ⟨r', cause, hr', rfl⟩ := hverifies
    have hr : r.GoesOn r' := by
      rcases hr' with rfl | ⟨s, rfl⟩
      · exact .refl r'
      · exact hkeep s
    exact hr.trans (.halt r' phase true cause)
  · obtain ⟨s, -, rfl⟩ := hverifies
    exact hkeep s

/-- Neither has the verification. -/
theorem verification_goesOn : (b.verification r).Ends w fun res _ => r.GoesOn (endOf res).1 := by
  rw [verification]
  split
  case isTrue => exact Act.ends_pure (.refl r)
  case isFalse =>
    have hbuild : (b.verifyBuild r).Ends w fun res _ => r.GoesOn (runOf res) :=
      verify_goesOn fun s => ⟨rfl, rfl, rfl⟩
    refine hbuild.bind (fun r₁ v₁ hr₁ => ?_) fun e v hr => hr
    have htests : (b.verifyTests r₁).Ends v₁ fun res _ => r₁.GoesOn (runOf res) :=
      verify_goesOn fun s => ⟨rfl, rfl, rfl⟩
    rw [testing]
    exact htests.bind (fun r₂ v₂ hr₂ => Act.ends_pure (hr₁.trans hr₂)) fun e v hr => hr₁.trans hr

/-- A run that may have written files when it is halted has its backup. -/
theorem phases_hasBackup : (b.phases r).Ends w fun res _ => ∀ e, res = .error e →
    e.run.plan = r.plan ∧ (e.dirty = true → HasBackup e.run) := by
  have hcarryOut : (b.carryOut r).Ends w fun res _ =>
      match res with
      | .ok r' => r'.plan = r.plan ∧ HasBackup r'
      | .error e => e.run.plan = r.plan ∧ (e.dirty = true → HasBackup e.run) := by
    rw [carryOut]
    refine backUp_hasBackup.bind ?_ fun e v h => ⟨h.1, fun hdirty => absurd hdirty (by simp [h.2])⟩
    rintro r₁ v₁ ⟨hplan, hbackup⟩
    refine (applyActions_goesOn .empty 0).mono ?_
    rintro (e | r₂) v hr
    · exact ⟨hr.plan.trans hplan, fun _ => hbackup.goesOn hr⟩
    · exact ⟨hr.plan.trans hplan, hbackup.goesOn hr⟩
  rw [phases_eq]
  refine hcarryOut.bind ?_ ?_
  · rintro r₁ v₁ ⟨hplan, hbackup⟩
    refine verification_goesOn.mono ?_
    rintro _ v hr e rfl
    exact ⟨hr.plan.trans hplan, fun _ => hbackup.goesOn hr⟩
  · rintro e v hhalted _ ⟨⟩
    exact hhalted

/-! ## Alarms -/

/-- What a run that calls for manual attention tells of its cause: putting its backup back failed, or
it has none. -/
def Alarms (b : Workbench) (plan : Plan) (o : RunOutcome) : Prop :=
  (∃ set v e, o.snapshotSet = some set ∧ ((b.store.rollbackSet set true).apply v).1 = .error e ∧
    o.errors.getLast? = some (.rollback e)) ∨
  o.snapshotSet = none ∧ ∀ a ∈ plan.actions, a.advisory = true

/-- A run that just ends calls for nobody. -/
theorem finish_raises_no_alarm {phase : Phase} (state : TerminalState) (P : RunOutcome → Prop) :
    Settles (b.finish r phase state) w fun o _ => o.unrecoverable = true → P o := by
  refine (finish_outcome state).mono ?_
  rintro _ v rfl halarm
  exact absurd halarm Bool.false_ne_true

theorem abandon_outcome (phase : Phase) (e : RollbackError) :
    Settles (b.abandon r phase e) w fun o _ => o.snapshotSet = r.set.map (·.id) ∧
      o.errors.getLast? = some (.rollback e) := by
  rw [abandon]
  refine (finish_outcome .failed).bind ?_
  rintro _ v rfl
  exact Act.settles_pure ⟨rfl, List.getLast?_concat⟩

theorem recover_alarms {e : Halted} (hdirty : e.dirty = true → HasBackup e.run) :
    Settles (b.recover e) w fun o _ => o.unrecoverable = true → Alarms b e.run.plan o := by
  rw [recover]
  split
  case isTrue => exact finish_raises_no_alarm .failed _
  case isFalse hnot =>
    rw [Bool.not_eq_true', Bool.not_eq_false] at hnot
    split
    case h_1 hset =>
      refine (abandon_outcome e.phase _).mono fun o v ho _ => Or.inr ⟨?_, hdirty hnot hset⟩
      rw [ho.1, hset]
      rfl
    case h_2 set hset =>
      refine Settles.of_value ?_
      split
      case h_1 =>
        refine (finish_outcome .rolledBack).bind ?_
        rintro _ v rfl
        exact Act.settles_pure fun h => absurd h Bool.false_ne_true
      case h_2 error herror =>
        refine (abandon_outcome e.phase error).mono fun o v ho _ => Or.inl ⟨set.id, w, error, ?_,
          herror, ho.2⟩
        rw [ho.1, hset]
        rfl

/-- Whatever the plan, the settings and the results of its stages are: a run calls for manual
attention only if putting back its backup failed, or if it has no backup because no action of its
plan may write. -/
theorem alarm_has_cause (h : ((b.run defects).run w).1.unrecoverable = true) :
    Alarms b (Plan.build b.root b.catalog defects) ((b.run defects).run w).1 := by
  have hrun : Settles (b.run defects) w fun o _ => o.unrecoverable = true →
      Alarms b (Plan.build b.root b.catalog defects) o := by
    rw [run]
    dsimp only
    split
    case isTrue => exact finish_raises_no_alarm .complete _
    case isFalse =>
      split
      case isTrue =>
        rw [dryRun]
        refine .of_value ((finish_outcome .complete).bind ?_)
        rintro _ v rfl
        exact Act.settles_pure fun h => absurd h Bool.false_ne_true
      case isFalse =>
        refine phases_hasBackup.settle.bind ?_
        rintro (e | ⟨r, phase⟩) v hphases
        · obtain ⟨hplan, hbackup⟩ := hphases e rfl
          have hrecover := recover_alarms (b := b) (w := v) hbackup
          rwa [hplan] at hrecover
        · exact finish_raises_no_alarm .complete _
  exact Act.settles_iff.mp hrun h

/-! ## Plans that write nothing -/

/-- A world in which nothing has happened but that operations of the system may have failed. -/
def Untouched (w v : World) : Prop := ∃ trouble, v = { w with trouble }

theorem Untouched.trans {v' : World} (h : Untouched w v) (h' : Untouched v v') :
    Untouched w v' := by
  obtain ⟨trouble, rfl⟩ := h
  obtain ⟨trouble', rfl⟩ := h'
  exact ⟨trouble', rfl⟩

theorem untouched_self (w : World) : Untouched w w := ⟨w.trouble, rfl⟩

section Advisory

variable {a : PlannedAction} {d : Defect} {rf : Refactoring} {member : Option Snapshot}

/-- A refactoring that never asks for an edit only reports. -/
theorem apply_of_advisory (hnever : ∀ d source content shifts description,
    rf.compute b.parse d source ≠ .ok (.edit content shifts description)) :
    (b.apply rf d member).Ends w fun res v => Untouched w v ∧
      match res with
      | .ok detail => detail.status = .advisory
      | .error e => e.isUnrecoverable = false := by
  rw [apply]
  refine Refactoring.ends_checkTarget.mapError.bind ?_ ?_
  swap
  · rintro _ v₁ ⟨e, rfl, h₁, -⟩
    exact ⟨h₁, rfl⟩
  rintro _ v₁ ⟨h₁, -⟩
  refine World.ends_readText.mapError.bind ?_ ?_
  swap
  · rintro _ v₂ ⟨e, rfl, h₂, -⟩
    exact ⟨Untouched.trans h₁ h₂, rfl⟩
  rintro original v₂ ⟨h₂, -⟩
  refine rewrite_ends.bind ?_ ?_
  · rintro rewrite _ ⟨rfl, hcompute⟩
    cases rewrite with
    | advice description notes => exact Act.ends_pure ⟨Untouched.trans h₁ h₂, rfl⟩
    | edit content shifts description => exact absurd hcompute (hnever _ _ _ _ _)
  · rintro _ _ ⟨rfl, e, rfl, -⟩
    exact ⟨Untouched.trans h₁ h₂, rewriteFailure_recoverable rf d e⟩

/-- An advisory action of the plan is reported, and nothing is rewritten. -/
theorem applyAction_of_advisory (hcatalog : b.catalog = .standard t)
    (hplan : r.plan = Plan.build b.root b.catalog defects) (ha : a ∈ r.plan.actions)
    (hadvisory : a.advisory = true) :
    (b.applyAction r a d).Ends w fun res v => Untouched w v ∧
      ∃ outcome, res = .ok outcome ∧ outcome.isApplied = false := by
  obtain ⟨rf, hfound, hkind⟩ := exists_refactoring hcatalog hplan ha
  have hnever := hkind.resolve_left (by simp [hadvisory])
  rw [applyAction, hfound, hadvisory]
  refine Act.ends_look_bind ?_
  rw [Bool.not_true, Bool.false_and, if_neg Bool.false_ne_true]
  refine (apply_of_advisory hnever).outcome.bind ?_ fun e v hfalse => hfalse.elim
  rintro (e | detail) v ⟨hv, hres⟩
  · dsimp only at hres ⊢
    rw [hres, if_neg Bool.false_ne_true]
    exact Act.ends_pure ⟨hv, _, rfl, rfl⟩
  · dsimp only at hres
    refine Act.ends_pure ⟨hv, _, rfl, ?_⟩
    rw [ActionOutcome.ofDetail, hres]
    rfl

/-- What the actions of a run come to of which none may write: none has rewritten a file, and the
run is halted just by one that failed. -/
def Advises (b : Workbench) (r : Run) (res : Except Halted Run) : Prop :=
  r.GoesOn (runOf res) ∧ (runOf res).appliedCount = 0 ∧
    match res with
    | .ok r' => b.settings.stopsOnFailure = true → ∀ x ∈ r'.actions, x.outcome.isFailed = false
    | .error e => e.dirty = true ∧ b.settings.stopsOnFailure = true ∧
        ∃ x ∈ e.run.actions, x.outcome.isFailed = true

theorem appliedCount_report {index : Nat} {outcome : ActionOutcome}
    (h : outcome.isApplied = false) :
    (r.report index a.refactoring d outcome).appliedCount = r.appliedCount := by
  simp [Run.appliedCount, Run.report, List.filter_append, h]

theorem applyActions_of_advisory {actions : List PlannedAction}
    (hcatalog : b.catalog = .standard t) (hplan : r.plan = Plan.build b.root b.catalog defects)
    (hadvisory : ∀ a ∈ r.plan.actions, a.advisory = true)
    (hactions : ∀ a ∈ actions, a ∈ r.plan.actions) (hnothing : r.appliedCount = 0)
    (hgood : b.settings.stopsOnFailure = true → ∀ x ∈ r.actions, x.outcome.isFailed = false)
    (lines : LineMap) (index : Nat) :
    (b.applyActions r lines index actions).Ends w fun res v => Untouched w v ∧ Advises b r res := by
  induction actions generalizing r w lines index with
  | nil => exact Act.ends_pure ⟨untouched_self w, .refl r, hnothing, hgood⟩
  | cons a actions ih =>
    have ha := hactions a List.mem_cons_self
    rw [applyActions]
    refine Act.ends_look_bind ?_
    generalize lines.remapDefect (w.identity a.defect.file) a.defect = d
    refine (applyAction_of_advisory hcatalog hplan ha (hadvisory a ha)).bind ?_ ?_
    swap
    · rintro e v ⟨-, _, heq, -⟩
      cases heq
    rintro outcome v ⟨hv, _, heq, hkept⟩
    cases heq
    have hr := Run.GoesOn.report r index a.refactoring d outcome
    have hcount : (r.report index a.refactoring d outcome).appliedCount = 0 :=
      (appliedCount_report hkept).trans hnothing
    refine Act.ends_look_bind ?_
    dsimp only
    split
    case isTrue hfails =>
      obtain ⟨hfailed, hstops⟩ := Bool.and_eq_true_iff.mp hfails
      exact Act.ends_throw ⟨hv, hr.trans (.halt _ .apply true (.stopped index a.refactoring)),
        hcount, rfl, hstops, _, List.mem_append_right _ (List.mem_singleton_self _), hfailed⟩
    case isFalse hgoesOn =>
      have hmore : b.settings.stopsOnFailure = true →
          ∀ x ∈ (r.report index a.refactoring d outcome).actions, x.outcome.isFailed = false := by
        intro hstops x hx
        rw [hstops, Bool.and_true] at hgoesOn
        rcases List.mem_append.mp hx with hx | hx
        · exact hgood hstops x hx
        · rw [List.mem_singleton.mp hx]
          exact Bool.eq_false_iff.mpr hgoesOn
      refine Act.Ends.mono (ih (r := r.report index a.refactoring d outcome) hplan hadvisory
        (fun a' ha' => hactions a' (List.mem_cons_of_mem a ha')) hcount hmore _ _) ?_
      rintro res v' ⟨hv', hrest, hres⟩
      exact ⟨hv.trans hv', hr.trans hrest, hres⟩

/-- The end of a run of which no action may write. -/
theorem proceed_of_advises {res : Except Halted Run} (h : Advises b r res) (hset : r.set = none) :
    Settles (b.proceed res) w fun o v => v = w ∧ o.actions = (runOf res).actions ∧
      (o.unrecoverable = true ↔ b.settings.stopsOnFailure = true ∧
        ∃ x ∈ o.actions, x.outcome.isFailed = true) := by
  obtain ⟨hgoesOn, hcount, hres⟩ := h
  cases res with
  | ok r' =>
    rw [proceed]
    refine Settles.bind (P := fun res v => res = .ok (r', .apply) ∧ v = w) ?_ ?_
    · have hnothing : r'.appliedCount = 0 := hcount
      rw [verification, if_pos hnothing]
      have hpure : (pure (r', .apply) : Act Halted (Run × Phase)).Ends w fun res v =>
          res = .ok (r', .apply) ∧ v = w := Act.ends_pure ⟨rfl, rfl⟩
      exact hpure.settle
    · rintro _ _ ⟨rfl, rfl⟩
      refine (finish_settles_of_none (hgoesOn.set.trans hset) .apply .complete).mono ?_
      rintro o v ⟨rfl, hv⟩
      refine ⟨hv, rfl, fun h => absurd h Bool.false_ne_true, ?_⟩
      rintro ⟨hstops, x, hx, hfailed⟩
      rw [hres hstops x hx] at hfailed
      cases hfailed
  | error e =>
    obtain ⟨hdirty, hstops, hfailed⟩ := hres
    have hnone : e.run.set = none := hgoesOn.set.trans hset
    rw [proceed, recover, hdirty, Bool.not_true, if_neg Bool.false_ne_true, hnone]
    dsimp only
    have hfinish (errors : List HaltCause) : Settles (b.finish { e.run with errors } e.phase .failed) w
        fun o v => o = { e.run with errors }.outcome e.phase .failed ∧ v = w :=
      finish_settles_of_none (r := { e.run with errors }) hnone e.phase .failed
    rw [abandon]
    refine (hfinish _).bind ?_
    rintro _ _ ⟨rfl, hv⟩
    exact Act.settles_pure ⟨hv, rfl, fun _ => ⟨hstops, hfailed⟩, fun _ => rfl⟩

end Advisory

/-- A live run of which no action may write changes nothing, and calls for manual attention just if
one of its actions failed and a failed action ends a run. -/
theorem false_alarm_iff (hcatalog : b.catalog = .standard t) (hlive : b.settings.isDryRun = false)
    (hadvisory : ∀ a ∈ (Plan.build b.root b.catalog defects).actions, a.advisory = true) :
    Untouched w ((b.run defects).run w).2 ∧ ((b.run defects).run w).1.appliedCount = 0 ∧
      (((b.run defects).run w).1.unrecoverable = true ↔ b.settings.stopsOnFailure = true ∧
        ∃ x ∈ ((b.run defects).run w).1.actions, x.outcome.isFailed = true) := by
  have hcarryOut : (b.carryOut (b.started defects)).Ends w fun res v =>
      Untouched w v ∧ Advises b (b.started defects) res := by
    have hnothing : (b.started defects).plan.mutatingFiles w.identity = [] := by
      refine List.eq_nil_iff_forall_not_mem.mpr fun f hf => ?_
      obtain ⟨a, ha, hwrites, -⟩ := Plan.exists_of_mem_mutatingFiles hf
      rw [hadvisory a ha] at hwrites
      cases hwrites
    have hbackUp : (b.backUp (b.started defects)).Yields w fun r v =>
        r = b.started defects ∧ v = w := by
      rw [backUp]
      refine Act.ends_look_bind ?_
      rw [hnothing]
      exact Act.yields_pure ⟨rfl, rfl⟩
    rw [carryOut]
    refine hbackUp.bind_ends ?_
    rintro _ _ ⟨rfl, rfl⟩
    exact applyActions_of_advisory hcatalog rfl hadvisory (fun _ ha => ha) rfl
      (fun _ _ hx => absurd hx List.not_mem_nil) .empty 0
  have hrun : Settles (b.run defects) w fun o v => Untouched w v ∧ o.appliedCount = 0 ∧
      (o.unrecoverable = true ↔ b.settings.stopsOnFailure = true ∧
        ∃ x ∈ o.actions, x.outcome.isFailed = true) := by
    cases hsome : (b.started defects).plan.actions.isEmpty with
    | true =>
      rw [run_of_empty hsome]
      refine (finish_settles_of_none rfl .planning .complete).mono ?_
      rintro o v ⟨rfl, rfl⟩
      refine ⟨untouched_self v, rfl, fun h => absurd h Bool.false_ne_true, ?_⟩
      rintro ⟨-, x, hx, -⟩
      cases hx
    | false =>
      rcases hends : (b.carryOut (b.started defects)).apply w with ⟨res, v⟩
      obtain ⟨hv, hadvises⟩ := hcarryOut.of_apply hends
      obtain ⟨hsame, hactions, halarm⟩ :=
        Act.settles_iff.mp (proceed_of_advises (w := v) hadvises rfl)
      have heq : (b.run defects) w = (b.proceed res) v := run_apply hlive hsome hends
      rw [Act.settles_iff, heq, hsame]
      refine ⟨hv, ?_, halarm⟩
      rw [RunOutcome.appliedCount, hactions]
      exact hadvises.2.1
  exact Act.settles_iff.mp hrun

end Workbench

end Amend
