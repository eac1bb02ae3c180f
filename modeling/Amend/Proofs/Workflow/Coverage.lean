import Amend.Proofs.Snapshot.Naming
import Amend.Proofs.Workflow.Coherence
import Amend.Proofs.Workflow.Run

/-!
# The backup covers the plan

The plan leaves out all but one of the files that stand for one file, and so does the store when it
takes a set. The member of an action is looked up by what its file stands for. These three agree as
long as no path comes to stand for another file while the run goes on: then an action that may write
never finds the backup without a member for it.

Nothing is asked of the store, of the checks and steps of the run or of what the system refuses. All
that matters is that the names which are drawn for the backup are new, for members are looked up in
the index by their names.
-/

namespace Amend

open SnapshotStore (Among Gathered)
open World (Ascribes)

namespace World

/-- The names that are drawn up to a given number are different from each other and from all that
indexes on the disk have. -/
structure DrawsFresh (w : World) (last : Nat) : Prop where
  apart : ∀ m n, w.drawn ≤ m → m < n → n < last → w.ids m ≠ w.ids n
  unlisted : ∀ t, w.Lists t → ∀ n, w.drawn ≤ n → n < last → t.id ≠ w.ids n

end World

/-! ## The members of a set -/

namespace SnapshotStore

variable {s : SnapshotStore} {ids : Nat → Uid} {n : Nat} {Q : Uid → Path → Prop} {w v v' : World}
  {taken : List Snapshot}

theorem Gathered.keeps {ε α : Type} {a : Act ε α}
    (h : ∀ n, a.Keeps (Ascribes w.ids n (Among w taken))) : a.Keeps (Gathered w taken) := by
  rintro v ⟨n, draws, hv, hrest⟩
  exact (h n v hv).mono fun _ _ hv' => ⟨n, draws, hv', hrest⟩

theorem Gathered.nodup (h : Gathered w taken v) (hfresh : w.DrawsFresh v.drawn) :
    (taken.map (·.id)).Nodup := by
  obtain ⟨n, draws, hv, -, hsorted, hdraws, hids⟩ := h
  rw [hids, List.Nodup, List.pairwise_map]
  refine hsorted.imp_of_mem ?_
  intro m k hm hk hmk
  have hlast := hv.drawn
  exact hfresh.apart m k (hdraws m hm).1 hmk (Nat.lt_of_lt_of_le (hdraws k hk).2 hlast)

/-- What an index has under the name of a snapshot that was taken is of the same file. -/
theorem Gathered.source_eq (h : Gathered w taken v) (hfresh : w.DrawsFresh v.drawn) {t u : Snapshot}
    (ht : t ∈ taken) (hu : Among w taken u.id u.source) (hid : u.id = t.id) :
    u.source = t.source := by
  have hinj := List.inj_on_of_nodup_map (h.nodup hfresh)
  obtain ⟨n, draws, hv, -, -, hdraws, hids⟩ := h
  rcases hu with ⟨x, hx, hold⟩ | ⟨t', ht', hnamed, hsource⟩
  · have hmem : t.id ∈ draws.map w.ids := hids ▸ List.mem_map_of_mem ht
    obtain ⟨m, hm, hdrawn⟩ := List.mem_map.mp hmem
    have hbounds := hdraws m hm
    have hlast := hv.drawn
    refine absurd ?_ (hfresh.unlisted x hx m hbounds.1 (by omega))
    rw [hold, hid, hdrawn]
  · rw [← hsource, hinj ht' ht (hnamed.trans hid)]

theorem createSet_took {files : List Path}
    (hsteady : ∀ v, s.ComesBy files w v → ∀ f ∈ files, v.identity f = w.identity f) :
    (s.createSet files).Ends w fun r v => ∀ set, r = .ok set → ∃ taken, Gathered w taken v ∧
      set.members = taken.map (·.id) ∧
      ∀ f ∈ files, ∃ t ∈ taken, t.source.same (w.identity f) = true := by
  rw [SnapshotStore.createSet]
  refine (Act.ends_apply _ w).bind ?_ fun e v hv => by simp
  intro taken v hrun
  obtain ⟨seen, hmidway⟩ := (SnapshotStore.midway_nil s w).through rfl hsteady hrun
  refine World.ends_drawId_bind (World.ends_readClock_bind ?_)
  have hlater : Gathered w taken { v with drawn := v.drawn + 1, readings := v.readings + 1 } := by
    obtain ⟨n, draws, hv, hrest⟩ := hmidway.took
    exact ⟨n, draws, ⟨hv.lists, hv.ids_eq, Nat.le_succ_of_le hv.drawn⟩, hrest⟩
  refine ((Gathered.keeps fun n => s.keeps_updateIndex_ascribes fun i u hi hu => ?_) _ hlater).bind
    (fun _ u hu => ?_) fun e u hu => by simp
  · refine Act.ends_pure ⟨hu, fun x j hj => ?_⟩
    cases hj
    exact hi
  · refine Act.ends_change_bind (Act.ends_pure fun set hset => ?_)
    cases hset
    obtain ⟨n, draws, hu, hrest⟩ := hu
    exact ⟨taken, ⟨n, draws, ⟨hu.lists, hu.ids_eq, hu.drawn⟩, hrest⟩, rfl, hmidway.done⟩

theorem get_ascribes (hv : Ascribes ids n Q v) (id : Uid) : (s.get id).Ends v fun r v' =>
    Ascribes ids n Q v' ∧ ∀ u, r = .ok u → u.id = id ∧ Q u.id u.source := by
  rw [SnapshotStore.get]
  refine (s.index_ascribes hv).bind ?_ ?_
  · rintro i v₁ ⟨h₁, hi⟩
    cases hfound : i.find? id with
    | none => exact Act.ends_throw ⟨h₁, by simp⟩
    | some u =>
      obtain ⟨hu, hid⟩ := SnapshotIndex.mem_of_find? hfound
      refine Act.ends_pure ⟨h₁, fun u' hu' => ?_⟩
      cases hu'
      exact ⟨hid, hi i rfl u hu⟩
  · rintro e v₁ ⟨h₁, -⟩
    exact ⟨h₁, by simp⟩

theorem membersOf_ascribes (hv : Ascribes ids n Q v) (members : List Uid) :
    (Workbench.membersOf s members).Ends v fun r v' => Ascribes ids n Q v' ∧
      ∀ us, r = .ok us → us.map (·.id) = members ∧ ∀ u ∈ us, Q u.id u.source := by
  induction members generalizing v with
  | nil =>
    refine Act.ends_pure ⟨hv, fun us hus => ?_⟩
    cases hus
    exact ⟨rfl, nofun⟩
  | cons id members ih =>
    rw [Workbench.membersOf]
    refine (get_ascribes hv id).bind ?_ ?_
    · rintro u v₁ ⟨h₁, hu⟩
      obtain ⟨hid, hsource⟩ := hu u rfl
      refine (ih h₁).bind ?_ ?_
      · rintro us v₂ ⟨h₂, hus⟩
        obtain ⟨hids, hsources⟩ := hus us rfl
        refine Act.ends_pure ⟨h₂, fun us' hus' => ?_⟩
        cases hus'
        refine ⟨by rw [List.map_cons, hid, hids], fun u' hu' => ?_⟩
        rcases List.mem_cons.mp hu' with rfl | hu'
        · exact hsource
        · exact hsources u' hu'
      · rintro e v₂ ⟨h₂, -⟩
        exact ⟨h₂, by simp⟩
    · rintro e v₁ ⟨h₁, -⟩
      exact ⟨h₁, by simp⟩

end SnapshotStore

/-! ## The backup -/

/-- The run has a member of its set for a file of that identity. -/
def Run.Covers (r : Run) (identity : Path) : Prop :=
  ∃ t set, r.member? identity = some t ∧ r.set = some set ∧ t.id ∈ set.members

theorem Run.Covers.of_mem {r : Run} {t : Snapshot} {set : SnapshotSet} {identity : Path}
    (hset : r.set = some set) (hmembers : r.members.map (·.id) = set.members)
    (ht : t ∈ r.members) (hsame : t.source.same identity = true) : r.Covers identity := by
  cases hfound : r.member? identity with
  | none => exact absurd hsame (List.find?_eq_none.mp hfound t ht)
  | some u =>
    refine ⟨u, set, hfound, hset, ?_⟩
    rw [← hmembers]
    exact List.mem_map_of_mem (List.mem_of_find?_eq_some hfound)

namespace Workbench

variable {b : Workbench} {r r' : Run} {w v : World}

/-- A backup that is taken has a member for every file that the plan may write. -/
theorem backUp_covers (hsteady : ∀ v, b.store.ComesBy (r.plan.mutatingFiles w.identity) w v →
      ∀ f ∈ r.plan.mutatingFiles w.identity, v.identity f = w.identity f) :
    (b.backUp r).Ends w fun res v => ∀ r', res = .ok r' → w.DrawsFresh v.drawn →
      ∀ f ∈ r.plan.mutatingFiles w.identity, r'.Covers (w.identity f) := by
  rw [backUp]
  refine Act.ends_look_bind ?_
  by_cases hnothing : (r.plan.mutatingFiles w.identity).isEmpty = true
  · rw [if_pos hnothing]
    refine Act.ends_pure fun r' _ _ f hf => ?_
    rw [List.isEmpty_iff.mp hnothing] at hf
    cases hf
  · rw [if_neg hnothing]
    have htake : (do
        let set ← b.store.createSet (r.plan.mutatingFiles w.identity)
        return (set, ← membersOf b.store set.members) :
        Act SnapshotError (SnapshotSet × List Snapshot)).Ends w fun res v =>
          ∀ set us, res = .ok (set, us) → w.DrawsFresh v.drawn →
            us.map (·.id) = set.members ∧ ∀ f ∈ r.plan.mutatingFiles w.identity,
              ∃ u ∈ us, u.source.same (w.identity f) = true := by
      refine (SnapshotStore.createSet_took hsteady).bind ?_ fun e v hv => by simp
      intro set v htook
      obtain ⟨taken, ⟨n, draws, hv, hrest⟩, hmembers, hdone⟩ := htook set rfl
      refine (SnapshotStore.membersOf_ascribes hv set.members).bind ?_ fun e v' hv' => by simp
      rintro us v' ⟨hv', hus⟩
      obtain ⟨hids, hamong⟩ := hus us rfl
      refine Act.ends_pure fun set' us' heq hfresh => ?_
      cases heq
      refine ⟨hids, fun f hf => ?_⟩
      have htook' : Gathered w taken v' := ⟨n, draws, hv', hrest⟩
      obtain ⟨t, ht, hsame⟩ := hdone f hf
      have hmem : t.id ∈ us.map (·.id) := by
        rw [hids, hmembers]
        exact List.mem_map_of_mem ht
      obtain ⟨u, hu, hid⟩ := List.mem_map.mp hmem
      rw [← htook'.source_eq hfresh ht (hamong u hu) hid] at hsame
      exact ⟨u, hu, hsame⟩
    refine htake.mapError.bind ?_ ?_
    · rintro ⟨set, us⟩ v htaken
      dsimp only
      refine Act.ends_pure fun r' hr' hfresh f hf => ?_
      cases hr'
      obtain ⟨hids, hcovers⟩ := htaken set us rfl hfresh
      obtain ⟨u, hu, hsame⟩ := hcovers f hf
      exact .of_mem rfl hids hu hsame
    · intro e v _ r' hr'
      cases hr'

/-! ## The actions -/

section Actions

variable {a : PlannedAction} {d : Defect} {lines : LineMap} {index : Nat}
  {rest actions : List PlannedAction} {outcome : ActionOutcome}

/-- None of the causes is that a file has no snapshot in the run. -/
def Supplied (causes : List HaltCause) : Prop :=
  ∀ f, .rollback (.noSnapshot (.ofRun f)) ∉ causes

theorem supplied_nil : Supplied [] := nofun

theorem Supplied.concat {causes : List HaltCause} (h : Supplied causes) {cause : HaltCause}
    (hcause : ∀ f, cause ≠ .rollback (.noSnapshot (.ofRun f))) : Supplied (causes ++ [cause]) := by
  intro f hf
  rcases List.mem_append.mp hf with hf | hf
  · exact h f hf
  · exact hcause f (List.mem_singleton.mp hf).symm

/-- An action that halts the run for want of a snapshot may write and has no member. -/
theorem applyAction_supplied (hr : Supplied r.errors) :
    (b.applyAction r a d).Ends w fun res _ =>
      match res with
      | .ok _ => True
      | .error h => Supplied h.run.errors ∨
          a.advisory = false ∧ r.member? (w.identity d.file) = none := by
  rw [applyAction]
  cases b.catalog.find? a.refactoring with
  | none => exact Act.ends_throw (Or.inl (hr.concat (by simp)))
  | some refactoring =>
    refine Act.ends_look_bind ?_
    by_cases hwants : (!a.advisory && (r.member? (w.identity d.file)).isNone) = true
    · rw [if_pos hwants]
      obtain ⟨hadvisory, hnone⟩ := Bool.and_eq_true_iff.mp hwants
      rw [Bool.not_eq_true'] at hadvisory
      exact Act.ends_throw (Or.inr ⟨hadvisory, Option.isNone_iff_eq_none.mp hnone⟩)
    · rw [if_neg hwants]
      have happly : (b.apply refactoring d (r.member? (w.identity d.file))).Ends w
          fun _ _ => True := Act.ends_trivial
      refine happly.outcome.bind (fun res v _ => ?_) fun _ _ hfalse => hfalse.elim
      cases res with
      | ok detail => exact Act.ends_pure trivial
      | error e =>
        dsimp only
        split
        · exact Act.ends_throw (Or.inl (hr.concat (by simp)))
        · exact Act.ends_pure trivial

/-- The first of some actions is carried out before the others. -/
theorem applyActions_cons
    (hfirst : (b.applyAction r a (lines.remapDefect (w.identity a.defect.file) a.defect)).apply w =
      (.ok outcome, v))
    (hgoesOn : ¬ (outcome.isFailed && b.settings.stopsOnFailure) = true) :
    (b.applyActions r lines index (a :: rest)).apply w =
      (b.applyActions
        (r.report index a.refactoring
          (lines.remapDefect (w.identity a.defect.file) a.defect) outcome)
        (lines.record (v.identity a.defect.file) outcome.shifts) (index + 1) rest).apply v := by
  rw [applyActions, remapped, Act.apply_look_bind, Act.apply_bind, hfirst]
  dsimp only
  rw [recorded, Act.apply_look_bind, if_neg hgoesOn]
  rfl

/-- Actions that halt the run for want of a snapshot come to one that may write and has no member
when it is its turn. -/
theorem applyActions_supplied (hr : Supplied r.errors) (lines : LineMap) (index : Nat)
    (actions : List PlannedAction) :
    (b.applyActions r lines index actions).Ends w fun res _ =>
      match res with
      | .ok r' => Supplied r'.errors
      | .error h => Supplied h.run.errors ∨ ∃ front a back r' v, actions = front ++ a :: back ∧
          (b.applyActions r lines index front).apply w = (.ok r', v) ∧ a.advisory = false ∧
          r.member? (v.identity a.defect.file) = none := by
  induction actions generalizing r w lines index with
  | nil => exact Act.ends_pure hr
  | cons a rest ih =>
    rw [applyActions, remapped]
    refine Act.ends_look_bind ?_
    generalize hd : lines.remapDefect (w.identity a.defect.file) a.defect = d
    have hfile : d.file = a.defect.file := by
      rw [← hd]
      rfl
    refine (applyAction_supplied (a := a) (d := d) hr).and_apply.bind ?_ ?_
    · rintro outcome v ⟨-, hfirst⟩
      refine Act.ends_look_bind ?_
      dsimp only
      split
      case isTrue => exact Act.ends_throw (Or.inl (hr.concat (by simp)))
      case isFalse hgoesOn =>
        have hreported : Supplied (r.report index a.refactoring d outcome).errors := hr
        refine (ih hreported _ _).mono ?_
        rintro (h | r') u hu
        · refine hu.imp_right ?_
          rintro ⟨front, a', back, r', v', rfl, hfront, hadvisory, hnone⟩
          refine ⟨a :: front, a', back, r', v', rfl, ?_, hadvisory, hnone⟩
          rw [← hd] at hfirst
          rw [applyActions_cons hfirst hgoesOn, hd, ← hfile]
          exact hfront
        · exact hu
    · rintro h v ⟨hhalted, -⟩
      refine hhalted.imp_right ?_
      rintro ⟨hadvisory, hnone⟩
      rw [hfile] at hnone
      exact ⟨[], a, rest, r, w, rfl, rfl, hadvisory, hnone⟩

end Actions

/-! ## The end of a run -/

/-- Putting back a snapshot does not fail because a file has no snapshot in the run. -/
theorem rollbackSnapshot_supplied (s : SnapshotStore) (t : Snapshot) (force : Bool) (f : Path) :
    (s.rollbackSnapshot t force).Ends w fun res _ => res ≠ .error (.noSnapshot (.ofRun f)) := by
  have hrestore {α : Type} (a : Act SnapshotError α) (v : World) :
      (a.mapError (RollbackError.restore t.source.text)).Ends v fun res _ =>
        ∀ e, res = .error e → e ≠ .noSnapshot (.ofRun f) := by
    refine (Act.ends_trivial.mapError).mono ?_
    rintro (e | x) v' hv'
    · obtain ⟨cause, rfl, -⟩ := hv'
      rintro _ ⟨⟩
      simp
    · simp
  have hfailed {α : Type} {e : RollbackError} (h : e ≠ .noSnapshot (.ofRun f)) :
      (Except.error e : Except RollbackError α) ≠ .error (.noSnapshot (.ofRun f)) :=
    fun heq => h (Except.error.inj heq)
  refine (hrestore _ w).bind (fun before v _ => ?_) fun e v hv => hfailed (hv e rfl)
  split
  · exact Act.ends_pure (by simp)
  · refine (hrestore _ v).bind (fun _ v₁ _ => ?_) fun e v₁ hv₁ => hfailed (hv₁ e rfl)
    refine (hrestore _ v₁).bind (fun _ v₂ _ => ?_) fun e v₂ hv₂ => hfailed (hv₂ e rfl)
    exact Act.ends_pure (by simp)

theorem rollbackId_supplied (s : SnapshotStore) (id : Uid) (force : Bool) (f : Path) :
    (s.rollbackId id force).Ends w fun res _ => res ≠ .error (.noSnapshot (.ofRun f)) := by
  rw [SnapshotStore.rollbackId]
  refine (Act.ends_trivial (a := s.get id)).outcome.bind (fun res v _ => ?_) fun _ _ h => h.elim
  cases res with
  | ok t => exact rollbackSnapshot_supplied s t force f
  | error e => cases e <;> exact Act.ends_throw (by simp)

theorem rollbackAll_supplied (s : SnapshotStore) (force : Bool) (ids : List Uid) (f : Path) :
    (s.rollbackAll force ids).Ends w fun res _ => ∃ results, res = .ok results ∧
      ∀ result ∈ results, result ≠ .error (.noSnapshot (.ofRun f)) := by
  induction ids generalizing w with
  | nil => exact Act.ends_pure ⟨[], rfl, nofun⟩
  | cons id ids ih =>
    rw [SnapshotStore.rollbackAll]
    refine (rollbackId_supplied s id force f).outcome.bind (fun first v hfirst => ?_)
      fun _ _ h => h.elim
    refine ih.bind ?_ ?_
    · rintro results v' ⟨_, heq, hresults⟩
      cases heq
      refine Act.ends_pure ⟨first :: results, rfl, fun result hresult => ?_⟩
      rcases List.mem_cons.mp hresult with rfl | hresult
      · exact hfirst
      · exact hresults result hresult
    · rintro e v' ⟨results, heq, -⟩
      cases heq

theorem rollbackSet_supplied (s : SnapshotStore) (id : Uid) (force : Bool) (f : Path) :
    (s.rollbackSet id force).Ends w fun res _ => res ≠ .error (.noSnapshot (.ofRun f)) := by
  rw [SnapshotStore.rollbackSet]
  refine (Act.ends_trivial (a := s.getSet id)).outcome.bind (fun res v _ => ?_) fun _ _ h => h.elim
  cases res with
  | error e => cases e <;> exact Act.ends_throw (by simp)
  | ok set =>
    refine (rollbackAll_supplied s force set.members f).bind ?_ ?_
    · rintro results v' ⟨_, heq, hresults⟩
      cases heq
      refine (ends_gather results v').mono ?_
      rintro res v₂ ⟨-, hgathers⟩ heq
      rw [heq] at hgathers
      cases hgathers with
      | failed xs e rest =>
        exact hresults _ (List.mem_append_right _ List.mem_cons_self) rfl
    · rintro e v' ⟨results, heq, -⟩
      cases heq

theorem finish_supplied (hr : Supplied r.errors) (phase : Phase) (state : TerminalState) :
    Act.Settles (b.finish r phase state) w fun o _ => Supplied o.errors := by
  refine (finish_outcome state).mono ?_
  rintro _ v rfl
  exact hr

theorem abandon_supplied (hr : Supplied r.errors) (phase : Phase) {e : RollbackError}
    (he : ∀ f, e ≠ .noSnapshot (.ofRun f)) :
    Act.Settles (b.abandon r phase e) w fun o _ => Supplied o.errors := by
  have hcause : Supplied (r.errors ++ [.rollback e]) :=
    hr.concat fun f heq => he f (HaltCause.rollback.inj heq)
  have hadded : Supplied { r with errors := r.errors ++ [.rollback e] : Run }.errors := hcause
  rw [abandon]
  refine (finish_supplied hadded phase .failed).bind fun o v ho => ?_
  exact Act.settles_pure ho

theorem recover_supplied {h : Halted} (hr : Supplied h.run.errors) :
    Act.Settles (b.recover h) w fun o _ => Supplied o.errors := by
  rw [recover]
  split
  · exact finish_supplied hr h.phase .failed
  · split
    · exact abandon_supplied hr h.phase (by simp)
    · rename_i set hset
      have hrollback : (b.store.rollbackSet set.id true).Ends w fun res _ =>
          ∀ f, res ≠ .error (.noSnapshot (.ofRun f)) := by
        rw [Act.ends_iff]
        exact fun f => Act.ends_iff.mp (rollbackSet_supplied b.store set.id true f)
      refine hrollback.settle.bind fun res v hres => ?_
      cases res with
      | ok restored =>
        refine (finish_supplied hr h.phase .rolledBack).bind fun o v' ho => ?_
        exact Act.settles_pure ho
      | error e => exact abandon_supplied hr h.phase fun f heq => hres f (congrArg _ heq)

theorem verify_supplied {phase : Phase} {wanted : Bool} {skipped failed : String}
    {step : Act Build.RunError Build.StepOutcome} {keep : Run → Build.StepOutcome → Run}
    (hr : Supplied r.errors) (hkeep : ∀ s, (keep r s).errors = r.errors) :
    (verify r phase wanted skipped failed step keep).Ends w fun res _ =>
      match res with
      | .ok r' => Supplied r'.errors
      | .error h => Supplied h.run.errors := by
  have hkept (s : Build.StepOutcome) : Supplied (keep r s).errors := by
    rw [hkeep s]
    exact hr
  rw [verify]
  split
  · exact Act.ends_pure (hkept _)
  · have hstep : step.Ends w fun _ _ => True := Act.ends_trivial
    refine hstep.outcome.bind (fun res v _ => ?_) fun _ _ hfalse => hfalse.elim
    cases res with
    | error e => exact Act.ends_throw (hr.concat (by simp))
    | ok s =>
      dsimp only
      split
      · exact Act.ends_throw ((hkept s).concat (by simp))
      · exact Act.ends_pure (hkept s)

theorem verification_supplied (hr : Supplied r.errors) :
    (b.verification r).Ends w fun res _ => Supplied (endOf res).1.errors := by
  rw [verification]
  split
  · exact Act.ends_pure hr
  · rw [verifyBuild]
    refine (verify_supplied hr fun s => rfl).bind (fun r₁ v h₁ => ?_) fun h v hh => hh
    rw [testing, verifyTests]
    exact (verify_supplied h₁ fun s => rfl).bind (fun r₂ v' h₂ => Act.ends_pure h₂)
      fun h v' hh => hh

theorem proceed_supplied {res : Except Halted Run}
    (hres : match res with
      | .ok r => Supplied r.errors
      | .error h => Supplied h.run.errors) :
    Act.Settles (b.proceed res) w fun o _ => Supplied o.errors := by
  cases res with
  | error h => exact recover_supplied hres
  | ok r =>
    refine (verification_supplied hres).settle.bind fun res v hend => ?_
    cases res with
    | ok finished => exact finish_supplied hend finished.2 .complete
    | error h => exact recover_supplied hend

theorem tryActions_errors (lines : LineMap) (overlay : Overlay) (index : Nat)
    (actions : List PlannedAction) :
    Act.Settles (b.tryActions r lines overlay index actions) w fun x _ =>
      x.1.errors = r.errors := by
  induction actions generalizing r lines overlay index w with
  | nil => exact Act.settles_pure rfl
  | cons a actions ih =>
    rw [tryActions]
    refine Act.settles_get_bind (.of_value (Act.settles_get_bind ?_))
    exact ih _ _ _

theorem dryRun_supplied (hr : Supplied r.errors) :
    Act.Settles (b.dryRun r) w fun o _ => Supplied o.errors := by
  rw [dryRun]
  refine (tryActions_errors .empty [] 0 r.plan.actions).bind ?_
  rintro ⟨r', overlay⟩ v hsame
  have hr' : Supplied r'.errors := by
    rw [hsame]
    exact hr
  refine (finish_supplied hr' .apply .complete).bind fun o v' ho => ?_
  exact Act.settles_pure ho

/-! ## Runs -/

section Runs

variable {defects : List Defect}

/-- A world in which the run asks what files stand for: while the backup is taken and when it is the
turn of an action. -/
inductive Moment (b : Workbench) (r : Run) (w : World) : World → Prop
  | backup {v : World} (h : b.store.ComesBy (r.plan.mutatingFiles w.identity) w v) :
      Moment b r w v
  | action {front back : List PlannedAction} {a : PlannedAction} {r' r'' : Run} {u v : World}
      (hplan : r.plan.actions = front ++ a :: back) (hbackup : (b.backUp r).apply w = (.ok r', u))
      (hfront : (b.applyActions r' .empty 0 front).apply u = (.ok r'', v)) : Moment b r w v

/-- While the run goes on, no file of its plan comes to stand for another one. -/
def Steady (b : Workbench) (r : Run) (w : World) : Prop :=
  ∀ v, b.Moment r w v → ∀ a ∈ r.plan.actions, v.identity a.defect.file = w.identity a.defect.file

theorem covers_of_steady (hsteady : b.Steady r w) {u : World}
    (hbackup : (b.backUp r).apply w = (.ok r', u)) (hfresh : w.DrawsFresh u.drawn)
    (hv : b.Moment r w v) {a : PlannedAction} (ha : a ∈ r.plan.actions)
    (hadvisory : a.advisory = false) : r'.Covers (v.identity a.defect.file) := by
  have hfiles : ∀ v, b.store.ComesBy (r.plan.mutatingFiles w.identity) w v →
      ∀ f ∈ r.plan.mutatingFiles w.identity, v.identity f = w.identity f := by
    intro v hcomes f hf
    obtain ⟨a', ha', -, rfl⟩ := Plan.exists_of_mem_mutatingFiles hf
    exact hsteady v (.backup hcomes) a' ha'
  obtain ⟨f, hf, hidentity⟩ : ∃ f ∈ r.plan.mutatingFiles w.identity,
      w.identity f = w.identity a.defect.file := Plan.exists_mem_mutatingFiles ha hadvisory
  have hcovers := (backUp_covers hfiles).of_apply hbackup r' rfl hfresh f hf
  rw [hidentity, ← hsteady v hv a ha] at hcovers
  exact hcovers

theorem backUp_supplied (hr : Supplied r.errors) : (b.backUp r).Ends w fun res _ =>
    match res with
    | .ok r' => Supplied r'.errors
    | .error h => Supplied h.run.errors := by
  rw [backUp]
  refine Act.ends_look_bind ?_
  split
  · exact Act.ends_pure hr
  · refine Act.Ends.bind (Act.Ends.mapError Act.ends_trivial) ?_ ?_
    · intro backup v _
      exact Act.ends_pure hr
    · rintro e v ⟨cause, rfl, -⟩
      exact hr.concat (by simp)

/-- The actions of a steady run do not halt it for want of a snapshot. -/
theorem carryOut_supplied (hr : Supplied r.errors) (hsteady : b.Steady r w)
    (hfresh : w.DrawsFresh ((b.backUp r).apply w).2.drawn) :
    (b.carryOut r).Ends w fun res _ =>
      match res with
      | .ok r' => Supplied r'.errors
      | .error h => Supplied h.run.errors := by
  rw [carryOut]
  refine ((backUp_backsUp.and (backUp_supplied hr)).and_apply).bind ?_ ?_
  · rintro r' u ⟨⟨hbacksUp, hr'⟩, hbackup⟩
    have hplan : r'.plan = r.plan := by
      rw [hbacksUp]
    rw [hbackup] at hfresh
    refine (applyActions_supplied hr' .empty 0 r'.plan.actions).mono ?_
    rintro (h | r'') v hv
    · rcases hv with hv | ⟨front, a, back, r'', v', hactions, hfront, hadvisory, hnone⟩
      · exact hv
      · rw [hplan] at hactions
        have ha : a ∈ r.plan.actions := by
          rw [hactions]
          exact List.mem_append_right _ List.mem_cons_self
        have hmoment : b.Moment r w v' := .action hactions hbackup hfront
        obtain ⟨t, set, hmember, -⟩ := covers_of_steady hsteady hbackup hfresh hmoment ha hadvisory
        rw [hnone] at hmember
        cases hmember
    · exact hv
  · rintro h v ⟨⟨-, hh⟩, -⟩
    exact hh

/-- A steady run does not end for want of a snapshot. -/
theorem run_supplied (hsteady : b.Steady (b.started defects) w)
    (hfresh : w.DrawsFresh ((b.backUp (b.started defects)).apply w).2.drawn) :
    Supplied ((b.run defects).run w).1.errors := by
  have hstart : Supplied (b.started defects).errors := supplied_nil
  by_cases hempty : (b.started defects).plan.actions.isEmpty = true
  · rw [run_of_empty hempty]
    exact Act.settles_iff.mp (finish_supplied (w := w) hstart .planning .complete)
  · by_cases hdry : b.settings.isDryRun = true
    · have hrun : b.run defects = b.dryRun (b.started defects) := by
        rw [run]
        change (if (b.started defects).plan.actions.isEmpty = true then _ else _) = _
        rw [if_neg hempty, if_pos hdry]
        rfl
      rw [hrun]
      exact Act.settles_iff.mp (dryRun_supplied (w := w) hstart)
    · rcases hcarryOut : (b.carryOut (b.started defects)).apply w with ⟨res, v⟩
      have hres := (carryOut_supplied hstart hsteady hfresh).of_apply hcarryOut
      rw [run_apply (Bool.eq_false_iff.mpr hdry) (Bool.eq_false_iff.mpr hempty) hcarryOut]
      exact Act.settles_iff.mp (proceed_supplied (w := v) hres)

/-- A plan accounts for every defect: each one that may be mended is rejected, unmatched or bound to
the first refactoring that handles it, in the order of the defects. The files that may be written
are those of the actions that are not advisory, each as it appears first. When the backup has been
taken, every such action has a member of the set when it is its turn, and no run ends because one
has none. -/
theorem plan_accounts_and_backup_covers (b : Workbench) (defects : List Defect) (w : World) :
    (∃ parts, List.Forall₂ (Plan.Part b.root b.catalog) defects parts ∧
      Plan.build b.root b.catalog defects = ⟨parts.flatMap (·.actions),
        parts.flatMap (·.unmatched), parts.flatMap (·.rejected)⟩) ∧
    (∀ identity, (Plan.build b.root b.catalog defects).mutatingFiles identity =
      Plan.firstFiles identity
        (((Plan.build b.root b.catalog defects).actions.filter (!·.advisory)).map
          (·.defect.file))) ∧
    (b.Steady (b.started defects) w →
      w.DrawsFresh ((b.backUp (b.started defects)).apply w).2.drawn →
      (∀ r u, (b.backUp (b.started defects)).apply w = (.ok r, u) →
        ∀ v, b.Moment (b.started defects) w v →
          ∀ a ∈ (Plan.build b.root b.catalog defects).actions, a.advisory = false →
            r.Covers (v.identity a.defect.file)) ∧
      ∀ f, .rollback (.noSnapshot (.ofRun f)) ∉ ((b.run defects).run w).1.errors) := by
  refine ⟨Plan.exists_parts b.root b.catalog defects, fun identity => ?_, ?_⟩
  · exact Plan.distinct_eq_firstFiles
  · intro hsteady hfresh
    constructor
    · intro r u hbackup v hv a ha hadvisory
      rw [hbackup] at hfresh
      exact covers_of_steady hsteady hbackup hfresh hv ha hadvisory
    · exact run_supplied hsteady hfresh

/-! ## A sample -/

theorem started_plan (b : Workbench) (defects : List Defect) :
    (b.started defects).plan = Plan.build b.root b.catalog defects := rfl

/-- No index of the project with an empty store has a snapshot. -/
theorem not_lists_sample (t : Snapshot) : ¬ (sampleWorld .empty).Lists t := by
  rintro ⟨content, i, ⟨l, mode, modified, hat⟩, hi, ht⟩
  have hnone (text : String) (htext : Json.parse? text = none) (heq : text.toUTF8 = content) :
      False := by
    rw [← heq, SnapshotIndex.decode?_of_text htext] at hi
    cases hi
  have hne : l ≠ [] := by
    rintro rfl
    cases hat
  have hentry := Disk.mem_entries_of_at? hne hat
  simp only [sampleWorld, List.mem_cons, List.not_mem_nil, or_false, Prod.mk.injEq, reduceCtorEq,
    and_false, false_or, Entry.file.injEq] at hentry
  rcases hentry with ⟨-, rfl, -⟩ | ⟨-, heq, -⟩ | ⟨-, heq, -⟩
  · rw [SnapshotIndex.decode?_encode SnapshotIndex.isValid_empty] at hi
    cases hi
    cases ht
  · exact hnone "class B {}" (by decide +kernel) heq.symm
  · exact hnone "class C {}" (by decide +kernel) heq.symm

theorem drawsFresh_sample : (sampleWorld .empty).DrawsFresh 2 where
  apart := fun m n hm hmn hn => drawsOnce_sample .empty m n hm (Nat.lt_trans hmn hn) hmn
  unlisted := fun t ht => absurd ht (not_lists_sample t)

/-- No link comes into the project, so its file stands for itself all the time. -/
theorem steady_sample : sampleBench.Steady (sampleBench.started [sampleDefect])
    (sampleWorld .empty) := by
  have hidentity {v : World} (hchanged : World.Changed (["s"] <+: ·) (sampleWorld .empty) v) :
      ∀ a ∈ (sampleBench.started [sampleDefect]).plan.actions,
        v.identity a.defect.file = (sampleWorld .empty).identity a.defect.file := by
    intro a ha
    rw [started, plan_sample] at ha
    rw [List.mem_singleton.mp ha]
    exact (World.identity_of_plain (hchanged.plain (plain_sample .empty))).trans
      (World.identity_of_plain (plain_sample .empty)).symm
  intro v hv
  cases hv with
  | backup h =>
    obtain ⟨front, ts, -, hrun⟩ := h
    have hkept := SnapshotStore.kept_taking inOrder_sample (drawsNew_empty (sampleWorld .empty))
    have hnone : ∀ u ∈ ([] : List Snapshot), ∀ t content,
        (sampleStore.takingCustody ["s"] (sampleWorld .empty)).guarded t content → t.id ≠ u.id :=
      fun u hu => absurd hu List.not_mem_nil
    obtain ⟨new, -, ⟨hwithin, -⟩, -⟩ := (hkept.createMembers
      (SnapshotStore.truthful_taking sampleStore ["s"] _) hnone).of_apply hrun
    exact hidentity hwithin.changed
  | action hplan hbackup hfront =>
    rename_i front back a r' r'' u
    have hone : front = [] := by
      rw [started, plan_sample] at hplan
      cases front with
      | nil => rfl
      | cons a' front =>
        have hlength := congrArg List.length hplan
        simp at hlength
    subst hone
    cases hfront
    have hstore : sampleBench.store.InOrder ["s"] (sampleWorld .empty) .empty := inOrder_sample
    have hreach : (sampleBench.started [sampleDefect]).plan.Reaches ["s"] (sampleWorld .empty) :=
      started_plan sampleBench [sampleDefect] ▸ reaches_sample .empty
    have hends := backUp_ends hstore (drawsNew_empty _) hreach rfl rfl
    exact hidentity (hends.of_apply hbackup).2.1

/-- The backup of the project is taken and has a member for the file of the defect. -/
theorem backup_covers_sample : sampleBench.Steady (sampleBench.started [sampleDefect])
      (sampleWorld .empty) ∧
    (sampleWorld .empty).DrawsFresh
      ((sampleBench.backUp (sampleBench.started [sampleDefect])).apply
        (sampleWorld .empty)).2.drawn ∧
    (∃ r u, (sampleBench.backUp (sampleBench.started [sampleDefect])).apply (sampleWorld .empty) =
      (.ok r, u) ∧ r.Covers ⟨"/B.java"⟩) ∧
    ∀ f, .rollback (.noSnapshot (.ofRun f)) ∉
      ((sampleBench.run [sampleDefect]).run (sampleWorld .empty)).1.errors := by
  obtain ⟨-, -, hcovers⟩ :=
    plan_accounts_and_backup_covers sampleBench [sampleDefect] (sampleWorld .empty)
  have hyields : (sampleBench.backUp (sampleBench.started [sampleDefect])).Yields
      (sampleWorld .empty) fun _ v => v.drawn = 2 := by
    rw [started]
    exact backUp_sample
  have hfresh := drawsFresh_sample
  rcases hbackup : (sampleBench.backUp (sampleBench.started [sampleDefect])).apply
    (sampleWorld .empty) with ⟨res, u⟩
  obtain ⟨r, rfl, hdrawn⟩ := hyields.of_apply hbackup
  rw [hbackup] at hcovers
  rw [← hdrawn] at hfresh
  obtain ⟨hmembers, hruns⟩ := hcovers steady_sample hfresh
  have hmoment : sampleBench.Moment (sampleBench.started [sampleDefect]) (sampleWorld .empty)
      (sampleWorld .empty) := .backup (sampleBench.store.comesBy_self _ _)
  have hmember : r.Covers ((sampleWorld .empty).identity sampleDefect.file) :=
    hmembers r u (Eq.refl _) _ hmoment ⟨sampleDefect, "literal-extraction", false⟩
      (by rw [plan_sample]; exact List.mem_singleton_self _) (Eq.refl false)
  have hidentity : (sampleWorld .empty).identity sampleDefect.file = ⟨"/B.java"⟩ :=
    World.identity_of_plain (plain_sample .empty)
  rw [hidentity] at hmember
  exact ⟨steady_sample, hfresh, ⟨r, u, Eq.refl _, hmember⟩, hruns⟩

end Runs

end Workbench

end Amend
