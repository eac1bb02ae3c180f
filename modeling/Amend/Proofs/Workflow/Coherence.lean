import Amend.Proofs.Workflow.Loss

/-!
# What the parts of an outcome have to do with each other

The actions of a run are reported in the order of its plan, and a run is built and tested only when
all of them are.  The state in which it ends, its phase, its reports and its steps then fit together,
whatever the checks of written files, the build and the tests say.
-/

namespace Amend

open Act (Settles)

/-! ## Coherent outcomes -/

/-- The index and the refactoring that a report names. -/
def ActionReport.key (a : ActionReport) : Nat × String := (a.index, a.refactoring)

/-- The index and the refactoring of each of some actions, in order. -/
def PlannedAction.keys (actions : List PlannedAction) : List (Nat × String) :=
  actions.mapIdx fun i a => (i, a.refactoring)

theorem PlannedAction.keys_prefix (done rest : List PlannedAction) :
    keys done <+: keys (done ++ rest) := by
  rw [keys, keys, List.mapIdx_append]
  exact List.prefix_append _ _

/-- The index and the refactoring of each action, in order. -/
def Plan.keys (p : Plan) : List (Nat × String) := PlannedAction.keys p.actions

/-- Whether a run that ends in the phase has come to its build. -/
def Phase.reachesBuild : Phase → Bool
  | .buildVerify | .testVerify | .complete => true
  | .planning | .backup | .apply => false

/-- Whether a run that ends in the phase has come to its tests. -/
def Phase.reachesTests : Phase → Bool
  | .testVerify | .complete => true
  | .planning | .backup | .apply | .buildVerify => false

namespace RunOutcome

/-- Every action of the plan has a report, and one of them has rewritten a file. -/
structure CarriedOut (o : RunOutcome) : Prop where
  reported : o.actions.map (·.key) = o.plan.keys
  applied : 0 < o.appliedCount

/-- There is a build step, and it has not failed. -/
def Built (o : RunOutcome) : Prop := ∃ s, o.build = some s ∧ s.hasFailed = false

/-- There is a test step, and it has not failed. -/
def Tested (o : RunOutcome) : Prop := ∃ s, o.tests = some s ∧ s.hasFailed = false

/-- An outcome whose reports and steps are in the order of a run.  `stops` says whether a failed
action ends the run. -/
structure Orderly (o : RunOutcome) (stops : Bool) : Prop where
  reports : o.actions.map (·.key) <+: o.plan.keys
  failedLast : stops = true → ∀ a ∈ o.actions.dropLast, a.outcome.isFailed = false
  build : o.build.isSome = true ∨ o.phase.reachesBuild = true → o.CarriedOut
  tests : o.tests.isSome = true ∨ o.phase.reachesTests = true → o.Built
  complete : o.phase = .complete → o.Built ∧ o.Tested

/-- Order is a matter of the plan, the phase, the reports and the steps. -/
theorem Orderly.of_same {o o' : RunOutcome} {stops : Bool} (h : o.Orderly stops)
    (hplan : o'.plan = o.plan) (hphase : o'.phase = o.phase) (hactions : o'.actions = o.actions)
    (hbuild : o'.build = o.build) (htests : o'.tests = o.tests) : o'.Orderly stops where
  reports := by
    rw [hactions, hplan]
    exact h.reports
  failedLast := by
    rw [hactions]
    exact h.failedLast
  build := by
    rw [hbuild, hphase]
    intro hbegan
    obtain ⟨hreported, happlied⟩ := h.build hbegan
    refine ⟨?_, ?_⟩
    · rwa [hactions, hplan]
    · rwa [appliedCount, hactions]
  tests := by
    rw [htests, hphase, Built, hbuild]
    exact h.tests
  complete := by
    rw [hphase, Built, hbuild, Tested, htests]
    exact h.complete

/-- An outcome in which nothing went wrong that ends a run. -/
structure Faultless (o : RunOutcome) (stops : Bool) : Prop where
  actions : stops = true → ∀ a ∈ o.actions, a.outcome.isFailed = false
  steps : ∀ s, o.build = some s ∨ o.tests = some s → s.hasFailed = false
  errors : o.errors = []
  /-- It went through all phases, or there was nothing to build. -/
  phases : o.phase = .complete ∨ o.build = none ∧ o.tests = none ∧ o.appliedCount = 0

/-- An outcome whose state, phase, reports and steps fit together. -/
structure Coherent (o : RunOutcome) (stops : Bool) : Prop extends o.Orderly stops where
  success : o.success = true ↔ o.state = .complete
  rolledBack : o.rolledBack = true ↔ o.state = .rolledBack
  unrecoverable : o.unrecoverable = true → o.state = .failed
  faultless : o.state = .complete → o.Faultless stops

end RunOutcome

/-! ## Actions -/

/-- A run that has reported the first actions of its plan and has neither been built nor halted. -/
structure Run.Reports (r : Run) (stops : Bool) (done : List PlannedAction) : Prop where
  keys : r.actions.map (·.key) = PlannedAction.keys done
  succeed : stops = true → ∀ a ∈ r.actions, a.outcome.isFailed = false
  build : r.build = none
  tests : r.tests = none
  errors : r.errors = []

namespace Run.Reports

variable {r : Run} {stops : Bool} {done rest : List PlannedAction} {a : PlannedAction} {d : Defect}
  {outcome : ActionOutcome}

theorem keys_report (h : r.Reports stops done) (o : ActionOutcome) :
    (r.report done.length a.refactoring d o).actions.map (·.key) =
      PlannedAction.keys (done ++ [a]) := by
  rw [Run.report, List.map_append, h.keys, PlannedAction.keys, PlannedAction.keys,
    List.mapIdx_append, List.mapIdx_singleton, Nat.zero_add]
  rfl

/-- An action more that has not failed, or whose failure does not matter. -/
theorem report (h : r.Reports stops done)
    (hsucceeds : stops = true → outcome.isFailed = false) :
    (r.report done.length a.refactoring d outcome).Reports stops (done ++ [a]) where
  keys := h.keys_report outcome
  succeed := by
    intro hstops a' ha'
    rcases List.mem_append.mp ha' with ha' | ha'
    · exact h.succeed hstops a' ha'
    · rw [List.mem_singleton.mp ha']
      exact hsucceeds hstops
  build := h.build
  tests := h.tests
  errors := h.errors

/-- The actions that are reported stand first in the plan. -/
theorem prefix_keys (h : r.Reports stops done) (hplan : r.plan.actions = done ++ rest) :
    r.actions.map (·.key) <+: r.plan.keys := by
  rw [h.keys, Plan.keys, hplan]
  exact PlannedAction.keys_prefix done rest

end Run.Reports

namespace Workbench

variable {b : Workbench} {r r' : Run} {w : World} {stops : Bool} {phase : Phase}

/-- A run that has not come to its build is in order if its reports are. -/
theorem orderly_of_unbuilt (r : Run) (phase : Phase)
    (hreports : r.actions.map (·.key) <+: r.plan.keys)
    (hfailed : stops = true → ∀ a ∈ r.actions.dropLast, a.outcome.isFailed = false)
    (hbuild : r.build = none) (htests : r.tests = none) (hphase : phase.reachesBuild = false)
    (state : TerminalState) : (r.outcome phase state).Orderly stops where
  reports := hreports
  failedLast := hfailed
  build := by
    rintro (hsome | hreaches)
    · rw [Run.outcome, hbuild] at hsome
      cases hsome
    · rw [Run.outcome, hphase] at hreaches
      cases hreaches
  tests := by
    rintro (hsome | hreaches)
    · rw [Run.outcome, htests] at hsome
      cases hsome
    · rw [Run.outcome] at hreaches
      cases phase with
      | planning | backup | apply | buildVerify => cases hreaches
      | testVerify | complete => cases hphase
  complete := by
    intro hcomplete
    rw [Run.outcome] at hcomplete
    subst hcomplete
    cases hphase

/-- What a part of a run that ends before the build leads to. -/
def CarriesOut (r : Run) (stops : Bool) : Except Halted Run → Prop
  | .ok r' => r'.plan = r.plan ∧ r'.Reports stops r.plan.actions
  | .error e => e.run.plan = r.plan ∧ ∀ state, (e.run.outcome e.phase state).Orderly stops

/-- A run that is halted among its actions. -/
theorem orderly_halt {done rest : List PlannedAction} (h : r.Reports stops done)
    (hplan : r.plan.actions = done ++ rest) (dirty : Bool) (cause : HaltCause)
    (state : TerminalState) :
    ((r.halt .apply dirty cause).run.outcome .apply state).Orderly stops :=
  orderly_of_unbuilt (r.halt .apply dirty cause).run .apply (h.prefix_keys hplan)
    (fun hstops a ha => h.succeed hstops a (List.dropLast_subset _ ha)) h.build h.tests rfl state

/-- An action that ends its run halts it as it stands. -/
def Halts (r : Run) : Except Halted ActionOutcome → Prop
  | .ok _ => True
  | .error e => ∃ dirty cause, e = r.halt .apply dirty cause

theorem applyAction_halts {a : PlannedAction} {d : Defect} :
    (b.applyAction r a d).Ends w fun res _ => Halts r res := by
  rw [applyAction]
  split
  case h_1 => exact Act.ends_throw ⟨_, _, rfl⟩
  case h_2 refactoring hfound =>
    refine Act.ends_look_bind ?_
    split
    case isTrue => exact Act.ends_throw ⟨_, _, rfl⟩
    case isFalse =>
      have happly : (b.apply refactoring d (r.member? (w.identity d.file))).Ends w fun _ _ => True :=
        Act.ends_trivial
      refine happly.outcome.bind (fun res v _ => ?_) fun _ _ hfalse => hfalse.elim
      cases res with
      | ok detail => exact Act.ends_pure trivial
      | error cause =>
        dsimp only
        split
        case isTrue => exact Act.ends_throw ⟨_, _, rfl⟩
        case isFalse => exact Act.ends_pure trivial

/-- Each action that is carried out is reported after those before it, and the run goes on unless a
failure ends it. -/
theorem applyActions_carriesOut {done actions : List PlannedAction}
    (h : r.Reports b.settings.stopsOnFailure done) (hplan : r.plan.actions = done ++ actions)
    (lines : LineMap) :
    (b.applyActions r lines done.length actions).Ends w fun res _ =>
      CarriesOut r b.settings.stopsOnFailure res := by
  induction actions generalizing r w lines done with
  | nil =>
    rw [List.append_nil] at hplan
    rw [← hplan] at h
    exact Act.ends_pure ⟨rfl, h⟩
  | cons a actions ih =>
    rw [applyActions]
    refine Act.ends_look_bind (applyAction_halts.bind ?_ ?_)
    · intro outcome v _
      refine Act.ends_look_bind ?_
      generalize lines.remapDefect (w.identity a.defect.file) a.defect = d
      dsimp only
      have hplan' : r.plan.actions = (done ++ [a]) ++ actions := by
        rw [hplan, List.append_assoc, List.singleton_append]
      split
      case isTrue hfails =>
        -- the failed action is the last one reported
        have hkeys : (r.report done.length a.refactoring d outcome).actions.map (·.key) <+:
            r.plan.keys := by
          rw [h.keys_report, Plan.keys, hplan']
          exact PlannedAction.keys_prefix (done ++ [a]) actions
        have hlast : b.settings.stopsOnFailure = true →
            ∀ a' ∈ (r.report done.length a.refactoring d outcome).actions.dropLast,
              a'.outcome.isFailed = false := by
          intro hstops a' ha'
          rw [Run.report, List.dropLast_concat] at ha'
          exact h.succeed hstops a' ha'
        exact Act.ends_throw ⟨rfl, orderly_of_unbuilt ((r.report done.length a.refactoring d
          outcome).halt .apply true (.stopped done.length a.refactoring)).run .apply hkeys hlast
          h.build h.tests rfl⟩
      case isFalse hgoesOn =>
        have hsucceeds : b.settings.stopsOnFailure = true → outcome.isFailed = false := by
          intro hstops
          rw [hstops, Bool.and_true] at hgoesOn
          exact Bool.eq_false_iff.mpr hgoesOn
        have hnext := ih (w := v) (h.report (a := a) (d := d) hsucceeds) hplan'
          (lines.record (v.identity d.file) outcome.shifts)
        rw [List.length_append, List.length_singleton] at hnext
        exact hnext
    · intro e v hhalted
      obtain ⟨dirty, cause, rfl⟩ := hhalted
      exact ⟨rfl, orderly_halt h hplan dirty cause⟩

/-! ## Backup and actions -/

/-- The part of a run that comes before the build. -/
def carryOut (b : Workbench) (r : Run) : Act Halted Run := do
  let r ← b.backUp r
  b.applyActions r .empty 0 r.plan.actions

/-- The part of a run that comes after its build. -/
def testing (b : Workbench) (r : Run) : Act Halted (Run × Phase) := do
  let r ← b.verifyTests r
  return (r, .complete)

/-- The part of a run that comes after its actions. -/
def verification (b : Workbench) (r : Run) : Act Halted (Run × Phase) :=
  if r.appliedCount = 0 then return (r, .apply) else b.verifyBuild r >>= b.testing

theorem phases_eq : b.phases r = b.carryOut r >>= b.verification := by
  rw [phases, carryOut, bind_assoc]
  congr 1

/-- A backup is all that it adds to a run. -/
def BacksUp (r : Run) : Except Halted Run → Prop
  | .ok r' => r' = { r with set := r'.set, members := r'.members }
  | .error e => ∃ cause, e = r.halt .backup false cause

theorem backUp_backsUp : (b.backUp r).Ends w fun res _ => BacksUp r res := by
  rw [backUp]
  refine Act.ends_look_bind ?_
  split
  case isTrue => exact Act.ends_pure rfl
  case isFalse =>
    refine Act.Ends.bind (Act.Ends.mapError Act.ends_trivial) ?_ ?_
    · intro backup v _
      exact Act.ends_pure rfl
    · rintro e v ⟨cause, rfl, -⟩
      exact ⟨_, rfl⟩

/-- All actions of a plan are reported, or the run is halted in order. -/
theorem carryOut_carriesOut (h : r.Reports b.settings.stopsOnFailure []) :
    (b.carryOut r).Ends w fun res _ => CarriesOut r b.settings.stopsOnFailure res := by
  rw [carryOut]
  refine backUp_backsUp.bind ?_ ?_
  · intro r' v hr'
    have hr : r'.Reports b.settings.stopsOnFailure [] := by
      rw [hr']
      exact ⟨h.keys, h.succeed, h.build, h.tests, h.errors⟩
    have hplan : r'.plan = r.plan := by
      rw [hr']
    refine (applyActions_carriesOut hr rfl .empty).mono ?_
    rintro (e | r'') _ hend
    · exact ⟨hend.1.trans hplan, hend.2⟩
    · refine ⟨hend.1.trans hplan, ?_⟩
      rw [← hplan]
      exact hend.2
  · rintro e v ⟨cause, rfl⟩
    refine ⟨rfl, orderly_of_unbuilt (r.halt .backup false cause).run .backup ?_ ?_ h.build h.tests
      rfl⟩
    · exact h.prefix_keys rfl
    · exact fun hstops a ha => h.succeed hstops a (List.dropLast_subset _ ha)

/-! ## Verification -/

/-- What a build or test step leads to: a run that has its result, or one that is halted. -/
def Verifies (r : Run) (phase : Phase) (keep : Run → Build.StepOutcome → Run) :
    Except Halted Run → Prop
  | .ok r' => ∃ s, s.hasFailed = false ∧ r' = keep r s
  | .error e => ∃ r' cause, (r' = r ∨ ∃ s, r' = keep r s) ∧ e = r'.halt phase true cause

theorem verify_verifies {wanted : Bool} {skipped failed : String}
    {step : Act Build.RunError Build.StepOutcome} {keep : Run → Build.StepOutcome → Run} :
    (verify r phase wanted skipped failed step keep).Ends w fun res _ =>
      Verifies r phase keep res := by
  rw [verify]
  split
  case isTrue => exact Act.ends_pure ⟨_, rfl, rfl⟩
  case isFalse =>
    have hstep : step.Ends w fun _ _ => True := Act.ends_trivial
    refine hstep.outcome.bind (fun res v _ => ?_) fun _ _ hfalse => hfalse.elim
    cases res with
    | error e => exact Act.ends_throw ⟨r, _, Or.inl rfl, rfl⟩
    | ok s =>
      dsimp only
      split
      case isTrue => exact Act.ends_throw ⟨keep r s, _, Or.inr ⟨s, rfl⟩, rfl⟩
      case isFalse hpassed => exact Act.ends_pure ⟨s, Bool.eq_false_iff.mpr hpassed, rfl⟩

/-- The run with which a verification ends, and its phase. -/
def endOf : Except Halted (Run × Phase) → Run × Phase
  | .ok (r, phase) => (r, phase)
  | .error e => (e.run, e.phase)

/-- The end of a run that has come so far: halted or finished, its reports and steps are in order. -/
structure Finishes (r : Run) (stops : Bool) (res : Except Halted (Run × Phase)) : Prop where
  plan : (endOf res).1.plan = r.plan
  actions : (endOf res).1.actions = r.actions
  orderly : ∀ state, ((endOf res).1.outcome (endOf res).2 state).Orderly stops
  faultless : ∀ r' phase, res = .ok (r', phase) → (r'.outcome phase .complete).Faultless stops

/-- A run that has reported all its actions and rewritten a file. -/
structure Done (r : Run) (stops : Bool) : Prop where
  keys : r.actions.map (·.key) = r.plan.keys
  succeed : stops = true → ∀ a ∈ r.actions, a.outcome.isFailed = false
  errors : r.errors = []
  applied : 0 < r.appliedCount

namespace Done

theorem of_same (h : Done r stops) (hplan : r'.plan = r.plan)
    (hactions : r'.actions = r.actions) (herrors : r'.errors = r.errors) : Done r' stops where
  keys := by
    rw [hactions, hplan]
    exact h.keys
  succeed := by
    rw [hactions]
    exact h.succeed
  errors := herrors.trans h.errors
  applied := by
    rw [Run.appliedCount, hactions]
    exact h.applied

/-- A run that is done is in order in every phase for which it has the steps. -/
theorem orderly (h : Done r stops)
    (htests : r.tests.isSome = true ∨ phase.reachesTests = true →
      ∃ s, r.build = some s ∧ s.hasFailed = false)
    (hcomplete : phase = .complete → (∃ s, r.build = some s ∧ s.hasFailed = false) ∧
      ∃ s, r.tests = some s ∧ s.hasFailed = false) (state : TerminalState) :
    (r.outcome phase state).Orderly stops where
  reports := by
    change r.actions.map (·.key) <+: r.plan.keys
    rw [h.keys]
  failedLast := fun hstops a ha => h.succeed hstops a (List.dropLast_subset _ ha)
  build := fun _ => ⟨h.keys, h.applied⟩
  tests := htests
  complete := hcomplete

/-- A run that is done may be halted in its build or its tests. -/
theorem finishes_halt (h : Done r stops) (hplan : r'.plan = r.plan)
    (hactions : r'.actions = r.actions) (herrors : r'.errors = r.errors) (cause : HaltCause)
    (htests : r'.tests.isSome = true ∨ phase.reachesTests = true →
      ∃ s, r'.build = some s ∧ s.hasFailed = false)
    (hphase : phase ≠ .complete) : Finishes r stops (.error (r'.halt phase true cause)) where
  plan := hplan
  actions := hactions
  orderly := by
    intro state
    have horderly := (h.of_same hplan hactions herrors).orderly htests
      (fun hcomplete => absurd hcomplete hphase) state
    rw [endOf, Run.halt]
    exact horderly.of_same rfl rfl rfl rfl rfl
  faultless := by
    intro _ _ heq
    cases heq

/-- A run with its build is tested. -/
theorem testing_finishes (h : Done r stops) {s : Build.StepOutcome} (hbuild : r.build = some s)
    (hs : s.hasFailed = false) : (b.testing r).Ends w fun res _ =>
      Finishes r stops res ∧ (endOf res).1.build = r.build := by
  rw [testing, verifyTests]
  refine verify_verifies.bind ?_ ?_
  · rintro _ v ⟨t, ht, rfl⟩
    have hdone : Done { r with tests := some t } stops := h.of_same rfl rfl rfl
    refine Act.ends_pure ⟨⟨rfl, rfl, ?_, ?_⟩, rfl⟩
    · exact hdone.orderly (fun _ => ⟨s, hbuild, hs⟩) fun _ => ⟨⟨s, hbuild, hs⟩, ⟨t, rfl, ht⟩⟩
    · rintro _ _ ⟨⟩
      refine ⟨h.succeed, ?_, h.errors, Or.inl rfl⟩
      rintro u (hu | hu)
      · rw [Run.outcome, hbuild] at hu
        cases hu
        exact hs
      · cases hu
        exact ht
  · rintro _ v ⟨r', cause, hr', rfl⟩
    have hsame : r'.plan = r.plan ∧ r'.actions = r.actions ∧ r'.build = r.build ∧
        r'.errors = r.errors := by
      rcases hr' with rfl | ⟨t, rfl⟩ <;> exact ⟨rfl, rfl, rfl, rfl⟩
    obtain ⟨hplan, hactions, hbuilt, herrors⟩ := hsame
    exact ⟨h.finishes_halt hplan hactions herrors cause (fun _ => ⟨s, hbuilt.trans hbuild, hs⟩) nofun,
      hbuilt⟩

end Done

/-- A run whose actions are reported is finished or halted in order. -/
theorem verification_finishes (h : r.Reports stops r.plan.actions) :
    (b.verification r).Ends w fun res _ => Finishes r stops res := by
  rw [verification]
  split
  case isTrue hnothing =>
    have hall : r.plan.actions = r.plan.actions ++ [] := (List.append_nil _).symm
    have horderly := orderly_of_unbuilt r .apply (h.prefix_keys hall)
      (fun hstops a ha => h.succeed hstops a (List.dropLast_subset _ ha)) h.build h.tests rfl
    refine Act.ends_pure ⟨rfl, rfl, horderly, ?_⟩
    rintro _ _ ⟨⟩
    refine ⟨h.succeed, ?_, h.errors, Or.inr ⟨h.build, h.tests, hnothing⟩⟩
    rintro s (hs | hs)
    · rw [Run.outcome, h.build] at hs
      cases hs
    · rw [Run.outcome, h.tests] at hs
      cases hs
  case isFalse happlied =>
    have hdone : Done r stops := ⟨h.keys, h.succeed, h.errors, Nat.pos_of_ne_zero happlied⟩
    rw [verifyBuild]
    refine verify_verifies.bind ?_ ?_
    · rintro _ v ⟨s, hs, rfl⟩
      have hbuilt : Done { r with build := some s } stops := hdone.of_same rfl rfl rfl
      refine (hbuilt.testing_finishes rfl hs).mono ?_
      rintro res v' ⟨hend, -⟩
      exact ⟨hend.plan, hend.actions, hend.orderly, hend.faultless⟩
    · rintro _ v ⟨r', cause, hr', rfl⟩
      have hsame : r'.plan = r.plan ∧ r'.actions = r.actions ∧ r'.tests = r.tests ∧
          r'.errors = r.errors := by
        rcases hr' with rfl | ⟨s, rfl⟩ <;> exact ⟨rfl, rfl, rfl, rfl⟩
      obtain ⟨hplan, hactions, htests, herrors⟩ := hsame
      refine hdone.finishes_halt hplan hactions herrors cause ?_ nofun
      rintro (hsome | hreaches)
      · rw [htests, h.tests] at hsome
        cases hsome
      · cases hreaches

/-! ## Ends -/

theorem finish_outcome (state : TerminalState) :
    Settles (b.finish r phase state) w fun o _ => o = r.outcome phase state := by
  rw [finish]
  split
  · exact Settles.of_value (Act.settles_pure rfl)
  · exact Act.settles_pure rfl

/-- What the end of a run keeps of it: its reports and steps, in order. -/
structure Concludes (r : Run) (stops : Bool) (o : RunOutcome) : Prop where
  plan : o.plan = r.plan
  actions : o.actions = r.actions
  build : o.build = r.build
  coherent : o.Coherent stops

theorem abandon_concludes {e : RollbackError} (h : ∀ state, (r.outcome phase state).Orderly stops) :
    Settles (b.abandon r phase e) w fun o _ => Concludes r stops o := by
  rw [abandon]
  refine (finish_outcome .failed).bind ?_
  rintro _ v rfl
  exact Act.settles_pure ⟨rfl, rfl, rfl, (h .failed).of_same rfl rfl rfl rfl rfl, ⟨nofun, nofun⟩,
    ⟨nofun, nofun⟩, fun _ => rfl, nofun⟩

/-- A halted run is rolled back or has failed. -/
theorem recover_concludes {e : Halted} (h : ∀ state, (e.run.outcome e.phase state).Orderly stops) :
    Settles (b.recover e) w fun o _ => Concludes e.run stops o := by
  rw [recover]
  split
  case isTrue hclean =>
    refine (finish_outcome .failed).mono ?_
    rintro _ v rfl
    exact ⟨rfl, rfl, rfl, h .failed, ⟨nofun, nofun⟩, ⟨nofun, nofun⟩, nofun, nofun⟩
  case isFalse hdirty =>
    split
    case h_1 => exact abandon_concludes h
    case h_2 set hset =>
      refine Settles.of_value ?_
      split
      case h_1 restored hrestored =>
        refine (finish_outcome .rolledBack).bind ?_
        rintro _ v rfl
        exact Act.settles_pure ⟨rfl, rfl, rfl, (h .rolledBack).of_same rfl rfl rfl rfl rfl,
          ⟨nofun, nofun⟩, ⟨fun _ => rfl, fun _ => rfl⟩, nofun, nofun⟩
      case h_2 => exact abandon_concludes h

/-- The end of a run that was halted or not. -/
def conclude (b : Workbench) : Except Halted (Run × Phase) → StateM World RunOutcome
  | .ok (r, phase) => b.finish r phase .complete
  | .error h => b.recover h

/-- A run that was not halted is complete. -/
theorem conclude_concludes {res : Except Halted (Run × Phase)} (h : Finishes r stops res) :
    Settles (b.conclude res) w fun o _ => Concludes (endOf res).1 stops o := by
  cases res with
  | ok finished =>
    refine (finish_outcome .complete).mono ?_
    rintro _ v rfl
    exact ⟨rfl, rfl, rfl, h.orderly .complete, ⟨fun _ => rfl, fun _ => rfl⟩, ⟨nofun, nofun⟩, nofun,
      fun _ => h.faultless _ _ rfl⟩
  | error e => exact recover_concludes h.orderly

/-- What comes after the backup and the actions of a run. -/
def proceed (b : Workbench) : Except Halted Run → StateM World RunOutcome
  | .ok r => (b.verification r).settle >>= b.conclude
  | .error h => b.recover h

theorem proceed_concludes {res : Except Halted Run} (h : CarriesOut r stops res) :
    Settles (b.proceed res) w fun o _ => o.plan = r.plan ∧ o.Coherent stops ∧
      ∀ r', res = .ok r' → o.actions = r'.actions := by
  cases res with
  | ok r' =>
    obtain ⟨hplan, hreports⟩ := h
    rw [← hplan] at hreports
    refine (verification_finishes hreports).settle.bind fun res v hend => ?_
    refine (conclude_concludes hend).mono fun o v' ho => ?_
    refine ⟨(ho.plan.trans hend.plan).trans hplan, ho.coherent, fun _ heq => ?_⟩
    cases heq
    exact ho.actions.trans hend.actions
  | error e =>
    obtain ⟨hplan, horderly⟩ := h
    refine (recover_concludes horderly).mono fun o v' ho => ?_
    refine ⟨ho.plan.trans hplan, ho.coherent, fun _ heq => ?_⟩
    cases heq

/-- A run that has come to its tests has a build that has not failed. -/
theorem proceed_built (h : r.Reports stops r.plan.actions) {v : World}
    (hbuild : (b.verifyBuild r).apply w = (.ok r', v)) (happlied : r.appliedCount ≠ 0) :
    Settles (b.proceed (.ok r)) w fun o _ => o.Built := by
  have hdone : Done r stops := ⟨h.keys, h.succeed, h.errors, Nat.pos_of_ne_zero happlied⟩
  obtain ⟨s, hs, rfl⟩ := (verify_verifies (w := w)).of_apply hbuild
  have hbuilt : Done { r with build := some s } stops := hdone.of_same rfl rfl rfl
  have htesting := hbuilt.testing_finishes (b := b) (w := v) rfl hs
  have hverification : (b.verification r).Ends w fun res _ =>
      Finishes { r with build := some s } stops res ∧ (endOf res).1.build = some s := by
    rw [verification, if_neg happlied, Act.ends_iff, Act.apply_bind, hbuild]
    exact Act.ends_iff.mp htesting
  refine hverification.settle.bind fun res v' hend => ?_
  exact (conclude_concludes hend.1).mono fun o _ ho => ⟨s, ho.build.trans hend.2, hs⟩

/-! ## Steps that are not run -/

section Congr

variable {step step' : Act Build.RunError Build.StepOutcome}

theorem applyActions_congr (lines : LineMap) (index : Nat) (actions : List PlannedAction) :
    { b with build := step, test := step' }.applyActions r lines index actions =
      b.applyActions r lines index actions := by
  induction actions generalizing r lines index with
  | nil => rfl
  | cons a actions ih =>
    simp only [applyActions, ih]
    rfl

/-- Neither the build nor the tests have a part in the actions. -/
theorem carryOut_congr : { b with build := step, test := step' }.carryOut r = b.carryOut r := by
  simp only [carryOut, applyActions_congr]
  rfl

/-- A run that has rewritten nothing is neither built nor tested. -/
theorem proceed_of_nothing (hnothing : r.appliedCount = 0) :
    { b with build := step, test := step' }.proceed (.ok r) = b.proceed (.ok r) := by
  rw [proceed, proceed, verification, verification, if_pos hnothing, if_pos hnothing]
  rfl

/-- A run whose build fails is not tested. -/
theorem proceed_of_failed {v : World} {e : Halted} (happlied : r.appliedCount ≠ 0)
    (hbuild : (b.verifyBuild r).apply w = (.error e, v)) :
    ({ b with test := step }.proceed (.ok r)).run w = (b.proceed (.ok r)).run w := by
  have happly (t : Act Build.RunError Build.StepOutcome) :
      ({ b with test := t }.verification r).apply w = (.error e, v) := by
    have hbuild' : ({ b with test := t }.verifyBuild r).apply w = (.error e, v) := hbuild
    rw [verification, if_neg happlied, Act.apply_bind, hbuild']
  have hproceed (t : Act Build.RunError Build.StepOutcome) :
      ({ b with test := t }.proceed (.ok r)).run w = (b.recover e).run v := by
    change { b with test := t }.conclude (({ b with test := t }.verification r).apply w).1
      (({ b with test := t }.verification r).apply w).2 = _
    rw [happly t]
    rfl
  exact (hproceed step).trans (hproceed b.test).symm

end Congr

/-! ## Runs -/

section Runs

variable {defects : List Defect}

/-- The start of a run. -/
def started (b : Workbench) (defects : List Defect) : Run :=
  { plan := Plan.build b.root b.catalog defects }

theorem reports_started : (b.started defects).Reports stops [] :=
  ⟨rfl, fun _ _ ha => absurd ha List.not_mem_nil, rfl, rfl, rfl⟩

theorem run_of_empty (hempty : (b.started defects).plan.actions.isEmpty = true) :
    b.run defects = b.finish (b.started defects) .planning .complete := by
  rw [run]
  change (if (b.started defects).plan.actions.isEmpty = true then _ else _) = _
  rw [hempty, if_pos rfl]
  rfl

theorem run_of_live (hlive : b.settings.isDryRun = false)
    (hsome : (b.started defects).plan.actions.isEmpty = false) :
    b.run defects = (b.phases (b.started defects)).settle >>= b.conclude := by
  rw [run]
  change (if (b.started defects).plan.actions.isEmpty = true then _ else _) = _
  rw [hsome, if_neg Bool.false_ne_true, hlive, if_neg Bool.false_ne_true]
  rfl

/-- What a run does after its backup and its actions. -/
theorem run_apply (hlive : b.settings.isDryRun = false)
    (hsome : (b.started defects).plan.actions.isEmpty = false) {res : Except Halted Run} {v : World}
    (hcarryOut : (b.carryOut (b.started defects)).apply w = (res, v)) :
    (b.run defects).run w = (b.proceed res).run v := by
  rw [run_of_live hlive hsome, phases_eq]
  change (b.conclude ((b.carryOut (b.started defects) >>= b.verification).apply w).1)
    ((b.carryOut (b.started defects) >>= b.verification).apply w).2 = _
  rw [Act.apply_bind, hcarryOut]
  cases res with
  | ok r => rfl
  | error e => rfl

/-- A run whose outcome fits together and that runs no step too early: as long as one is not due,
any other step in its place does as well. -/
structure RunsCoherently (b : Workbench) (defects : List Defect) (w : World) (o : RunOutcome) :
    Prop where
  plan : o.plan = Plan.build b.root b.catalog defects
  coherent : o.Coherent b.settings.stopsOnFailure
  build : ¬ o.CarriedOut → ∀ step,
    ({ b with build := step }.run defects).run w = (b.run defects).run w
  tests : ¬ o.Built → ∀ step,
    ({ b with test := step }.run defects).run w = (b.run defects).run w

theorem runsCoherently_of_empty (hempty : (b.started defects).plan.actions.isEmpty = true) :
    RunsCoherently b defects w ((b.run defects).run w).1 := by
  have hout : ((b.run defects).run w).1 = (b.started defects).outcome .planning .complete := by
    rw [run_of_empty hempty]
    exact Act.settles_iff.mp (finish_outcome (w := w) .complete)
  have hsame (step step' : Act Build.RunError Build.StepOutcome) :
      ({ b with build := step, test := step' }.run defects).run w = (b.run defects).run w := by
    rw [run_of_empty hempty, run_of_empty (b := { b with build := step, test := step' }) hempty]
    rfl
  have hstart : (b.started defects).Reports b.settings.stopsOnFailure [] := reports_started
  rw [hout]
  refine ⟨rfl, ⟨?_, ⟨fun _ => rfl, fun _ => rfl⟩, ⟨nofun, nofun⟩, nofun, fun _ => ?_⟩,
    fun _ step => hsame step b.test, fun _ step => hsame b.build step⟩
  · exact orderly_of_unbuilt (b.started defects) .planning (hstart.prefix_keys rfl)
      (fun _ _ ha => absurd ha List.not_mem_nil) rfl rfl rfl .complete
  · refine ⟨fun _ _ ha => absurd ha List.not_mem_nil, ?_, rfl, Or.inr ⟨rfl, rfl, rfl⟩⟩
    rintro s (hs | hs)
    · cases hs
    · cases hs

/-- The parts of the outcome of a live run fit together, whatever the plan, the settings and the
results of its stages are. -/
theorem live_run_is_coherent (hlive : b.settings.isDryRun = false) :
    RunsCoherently b defects w ((b.run defects).run w).1 := by
  cases hsome : (b.started defects).plan.actions.isEmpty with
  | true => exact runsCoherently_of_empty hsome
  | false =>
    rcases hcarryOut : (b.carryOut (b.started defects)).apply w with ⟨res, v⟩
    have hcarriesOut : CarriesOut (b.started defects) b.settings.stopsOnFailure res :=
      (carryOut_carriesOut reports_started).of_apply hcarryOut
    have hrun := run_apply hlive hsome hcarryOut
    have hrun' (step step' : Act Build.RunError Build.StepOutcome) :
        ({ b with build := step, test := step' }.run defects).run w =
          ({ b with build := step, test := step' }.proceed res).run v :=
      run_apply (b := { b with build := step, test := step' }) hlive hsome
        (by rw [← hcarryOut, ← carryOut_congr (b := b)]; rfl)
    obtain ⟨hplan, hcoherent, hactions⟩ :=
      Act.settles_iff.mp (proceed_concludes (b := b) (w := v) hcarriesOut)
    have hout : ((b.run defects).run w).1 = (b.proceed res v).1 := congrArg Prod.fst hrun
    rw [← hout] at hplan hcoherent hactions
    refine ⟨hplan, hcoherent, fun hnot step => ?_, fun hnot step => ?_⟩
    · rw [hrun, hrun' step b.test]
      cases res with
      | error e => rfl
      | ok r =>
        -- with every action reported, only a run that has rewritten nothing is not carried out
        have hnothing : r.appliedCount = 0 := by
          by_contra happlied
          have hsame := hactions r rfl
          refine hnot ⟨?_, ?_⟩
          · rw [hsame, hplan]
            exact hcarriesOut.2.keys
          · rw [RunOutcome.appliedCount, hsame]
            exact Nat.pos_of_ne_zero happlied
        rw [proceed_of_nothing hnothing]
    · rw [hrun, hrun' b.build step]
      cases res with
      | error e => rfl
      | ok r =>
        obtain ⟨hsameplan, hreports⟩ := hcarriesOut
        rw [← hsameplan] at hreports
        by_cases happlied : r.appliedCount = 0
        · rw [proceed_of_nothing happlied]
        · rcases hbuild : (b.verifyBuild r).apply v with ⟨e | r', v'⟩
          · exact proceed_of_failed happlied hbuild
          · rw [hout] at hnot
            exact absurd (Act.settles_iff.mp (proceed_built hreports hbuild happlied)) hnot

theorem run_coherent_in_order : sampleBench.settings.isDryRun = false ∧
    (Plan.build sampleBench.root sampleBench.catalog [sampleDefect]).actions.isEmpty = false ∧
    RunsCoherently sampleBench [sampleDefect] (sampleWorld .empty)
      ((sampleBench.run [sampleDefect]).run (sampleWorld .empty)).1 := by
  refine ⟨rfl, ?_, live_run_is_coherent rfl⟩
  rw [plan_sample]
  rfl

end Runs

end Workbench

end Amend
