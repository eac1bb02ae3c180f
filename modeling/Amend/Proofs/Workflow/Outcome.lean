import Amend.Proofs.Workflow.Loss
import Amend.Proofs.Workflow.Rollback
import Amend.Proofs.Workflow.Run

/-!
# What the end of a run says

A live run that ends as rolled back has left every file that its plan may write with its old bytes,
and one that ends as failed, but not beyond recovery, has changed nothing at all.  However it ends,
it has written no other files.
-/

namespace Amend

open Disk (Frame Plain)
open World (Within Changed SameBytes Restores)
open Act (Settles)

namespace Workbench

variable {b : Workbench} {base : Location} {theirs : Location → Prop} {w v v' : World} {r : Run}
  {t : Tuning} {defects : List Defect} {i : SnapshotIndex}

/-! ## Ends -/

/-- Nothing was backed up: the run ends as it is. -/
theorem finish_settles_of_none (hset : r.set = none) (phase : Phase) (state : TerminalState) :
    Settles (b.finish r phase state) v fun o v' => o = r.outcome phase state ∧ v' = v := by
  rw [finish, hset]
  exact Act.settles_pure ⟨rfl, rfl⟩

/-- The backup is released. -/
theorem Underway.finish_settles (h : Underway b base theirs w r v) (phase : Phase)
    (state : TerminalState) : Settles (b.finish r phase state) v fun o v' =>
      o = r.outcome phase state ∧ Within (base <+: ·) v { v' with pinned := v.pinned } := by
  cases hset : r.set with
  | none =>
    refine (finish_settles_of_none hset phase state).mono ?_
    rintro o v' ⟨ho, hv⟩
    rw [hv]
    exact ⟨ho, .refl v⟩
  | some set =>
    obtain ⟨j, hsecured⟩ := h.secured
    -- nothing is guarded any more, so any set may be released
    have hkept : Custody.Kept { b.store.custody base with fact := fun _ _ => True } v j :=
      hsecured.kept.demand (fun _ _ _ _ => trivial) (fun _ _ => trivial) (fun _ _ h => h.elim)
        (fun _ _ h => h.elim) (fun _ _ h => h.elim) fun _ _ h => h.elim
    rw [finish, hset]
    refine (hkept.releaseSet set.id fun _ _ _ _ _ h => h.elim).settle.bind ?_
    rintro _ v' ⟨hv', -⟩
    exact Act.settles_pure ⟨rfl, hv'⟩

/-- What the end of a live run says of the files.  The programs that the run calls may have changed
locations of theirs. -/
structure EndsHonestly (plan : Plan) (base : Location) (theirs : Location → Prop) (w : World)
    (o : RunOutcome) (w' : World) : Prop where
  /-- Of a run that was rolled back, every file that may have been written has its old bytes. -/
  rolledBack : o.state = .rolledBack → ∀ f ∈ plan.mutatingFiles w.identity,
    w'.disk.read (w'.absolute f) = w.disk.read (w.absolute f)
  /-- A run that failed, but not beyond recovery, has changed nothing outside the store. -/
  failed : o.state = .failed → o.unrecoverable = false → Changed (base <+: ·) w w'
  /-- Nothing else is ever written. -/
  touches : Changed (plan.Touches base theirs w) w w'

theorem endsHonestly_of_complete {plan : Plan} {o : RunOutcome} (ho : o.state = .complete)
    (h : Changed (plan.Touches base theirs w) w v) : EndsHonestly plan base theirs w o v where
  rolledBack := by
    rw [ho]
    exact nofun
  failed := by
    rw [ho]
    exact nofun
  touches := h

/-- Releasing the backup changes no more than a run may touch. -/
theorem Underway.changed_of_finish (h : Underway b base theirs w r v)
    (hv : Within (base <+: ·) v { v' with pinned := v.pinned }) :
    Changed (r.plan.Touches base theirs w) w v' :=
  h.changed.trans ⟨hv.directory, hv.frame.link, fun l hl => hv.frame.same l fun hbelow =>
    hl (Or.inl hbelow)⟩

/-- A run that could not be put back says so. -/
theorem Underway.abandon_settles (h : Underway b base theirs w r v) (phase : Phase)
    (e : RollbackError) : Settles (b.abandon r phase e) v (EndsHonestly r.plan base theirs w) := by
  have h₁ : Underway b base theirs w { r with errors := r.errors ++ [.rollback e] } v :=
    h.goesOn ⟨rfl, rfl, rfl⟩
  rw [abandon]
  refine (h₁.finish_settles phase .failed).bind ?_
  rintro o v' ⟨rfl, hv'⟩
  exact Act.settles_pure ⟨nofun, nofun, h₁.changed_of_finish hv'⟩

/-- The files of a run that have been put back have their old bytes. -/
theorem Underway.read_of_restores (h : Underway b base theirs w r v)
    (hreach : r.plan.Reaches base w) (hback : Restores w base r.members v v')
    (hchanged : Changed (r.plan.Touches base theirs w) w v') {f : Path}
    (hf : f ∈ r.plan.mutatingFiles w.identity) :
    v'.disk.read (v'.absolute f) = w.disk.read (w.absolute f) := by
  obtain ⟨a, ha, hadvisory, rfl⟩ := Plan.exists_of_mem_mutatingFiles hf
  obtain ⟨l, content, hplain, hout, hread⟩ := hreach a ha
  obtain ⟨j, hsecured⟩ := h.secured
  obtain ⟨s, hs, hsource⟩ := hsecured.covers a ha hadvisory
  rw [World.identity_of_plain hplain] at hsource
  have hpath := World.plain_absolute_path hplain
  rw [World.absolute_path] at hpath
  have hsame : SameBytes w v' l := hback l hout hpath (Or.inr ⟨s, hs, hsource⟩)
  rw [hread]
  exact hsame.read hchanged.directory hplain (hchanged.plain_path hpath) hread

/-- A halted run that may have written files is put back, or says that it could not be. -/
theorem recover_settles {e : Halted} (hdirty : e.dirty = true)
    (h : Underway b base theirs w e.run v) (hreach : e.run.plan.Reaches base w) :
    Settles (b.recover e) v (EndsHonestly e.run.plan base theirs w) := by
  rw [recover, hdirty, Bool.not_true, if_neg Bool.false_ne_true]
  cases hset : e.run.set with
  | none => exact h.abandon_settles e.phase _
  | some set =>
    dsimp only
    refine (h.rollbackSet_ends hreach hset).settle.bind ?_
    rintro (error | reports) v₁ ⟨h₁, hback⟩
    · exact h₁.abandon_settles e.phase error
    · refine (h₁.finish_settles e.phase .rolledBack).bind ?_
      rintro o v₂ ⟨rfl, hv₂⟩
      have hchanged := h₁.changed_of_finish hv₂
      refine Act.settles_pure ⟨fun _ f hf => ?_, nofun, hchanged⟩
      have hreleased := h₁.restores_nil hv₂
      have hrestores : Restores w base (e.run.members ++ []) v v₂ :=
        Restores.append (hback reports rfl) hreleased
      rw [List.append_nil] at hrestores
      exact h.read_of_restores hreach hrestores hchanged hf

/-! ## Runs -/

end Workbench

end Amend
