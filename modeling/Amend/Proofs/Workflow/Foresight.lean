import Amend.Proofs.Workflow.Backup

/-!
# What a trial foresees

What an action makes of the content of its file does not depend on where the content comes from and
where it goes.  A trial reports just that, and leaves the world as it is.
-/

namespace Amend

open Disk (Plain)
open Act (Settles)

/-! ## Reports that agree -/

/-- A failure of an operation on the files or the store, as opposed to one of the refactoring. -/
def ApplyError.OfSystem : ApplyError → Prop
  | .read .. | .snapshot _ | .write _ | .rollback _ => True
  | .refactoring (.io ..) | .refactoring (.write _) => True
  | _ => False

/-- An outcome that tells of an operation that failed. -/
def ActionOutcome.OfSystem : ActionOutcome → Prop
  | .failed e => e.OfSystem
  | _ => False

/-- Details that tell the same of an action, apart from what only a written file has. -/
structure ApplyDetail.Agrees (a b : ApplyDetail) : Prop where
  refactoring : a.refactoring = b.refactoring
  file : a.file = b.file
  description : a.description = b.description
  notes : a.notes = b.notes
  shifts : a.shifts = b.shifts
  merge : a.merge = b.merge
  linesBefore : a.linesBefore = b.linesBefore
  linesAfter : a.linesAfter = b.linesAfter

/-- Outcomes of one kind that tell the same. -/
inductive ActionOutcome.Agrees : ActionOutcome → ActionOutcome → Prop
  | applied {a b : ApplyDetail} (h : a.Agrees b) : Agrees (.applied a) (.applied b)
  | advised {a b : ApplyDetail} (h : a.Agrees b) : Agrees (.advised a) (.advised b)
  | failed {e f : ApplyError} (h : e.message = f.message) : Agrees (.failed e) (.failed f)

/-- Reports that tell the same of an action. -/
structure ActionReport.Agrees (a b : ActionReport) : Prop where
  index : a.index = b.index
  refactoring : a.refactoring = b.refactoring
  defect : a.defect = b.defect
  outcome : a.outcome.Agrees b.outcome

theorem ApplyDetail.Agrees.lineDelta {a b : ApplyDetail} (h : a.Agrees b) :
    a.lineDelta = b.lineDelta := by
  rw [ApplyDetail.lineDelta, h.linesAfter, h.linesBefore, ApplyDetail.lineDelta]

theorem ApplyDetail.Agrees.refl (a : ApplyDetail) : a.Agrees a :=
  ⟨rfl, rfl, rfl, rfl, rfl, rfl, rfl, rfl⟩

theorem ActionOutcome.Agrees.shifts {a b : ActionOutcome} (h : a.Agrees b) :
    a.shifts = b.shifts := by
  cases h with
  | applied h => exact h.shifts
  | advised h => rfl
  | failed h => rfl

/-- The outcome that a result is reported as. -/
def ActionOutcome.ofResult : Except ApplyError ApplyDetail → ActionOutcome
  | .ok detail => .ofDetail detail
  | .error e => .failed e

namespace Workbench

variable {b : Workbench} {rf : Refactoring} {d : Defect} {w u : World} {overlay : Overlay}
  {source source' : String} {l : Location}

/-! ## Overlays -/

/-- The overlay after an action that wrote a text, or nothing. -/
def Overlay.write (overlay : Overlay) (l : Location) : Option String → Overlay
  | some text => (l.path, text) :: overlay
  | none => overlay

/-- The content of a file on trial: that of the overlay, else that of the disk. -/
def Overlay.Has (overlay : Overlay) (w : World) (file : Path) (l : Location) (source : String) :
    Prop :=
  match overlay.lookup l.path with
  | some text => source = text
  | none => w.disk.readText (w.absolute file) = .ok source

/-- A place of a disk that is as an overlay has it, or else as it was. -/
def Overlay.Shows (overlay : Overlay) (w v : World) (l : Location) : Prop :=
  match overlay.lookup l.path with
  | some text => ∃ mode modified, v.disk.at? l = some (.file text.toUTF8 mode modified)
  | none => v.disk.at? l = w.disk.at? l ∨ w.disk.at? l = none ∧ v.disk.at? l = some .directory

theorem Overlay.Has.unique {file : Path} (h : Overlay.Has overlay w file l source)
    (h' : Overlay.Has overlay w file l source') : source = source' := by
  rw [Overlay.Has] at h h'
  split at h
  · rename_i heq
    rw [heq] at h'
    rw [h, h']
  · rename_i heq
    rw [heq] at h'
    exact Except.ok.inj (h.symm.trans h')

/-! ## Trials -/

/-- What an action makes of a content: its result, and the text that it writes if it writes. -/
def foreseen (b : Workbench) (rf : Refactoring) (d : Defect) (source : String) :
    Except ApplyError ApplyDetail × Option String :=
  match rf.compute b.parse d source with
  | .error e => (.error (rewriteFailure rf d e), none)
  | .ok (.advice description notes) => (.ok (.advice rf d description notes source), none)
  | .ok (.edit content shifts description) =>
    let (merged, mode) := merge b.parse source content
    (.ok { ApplyDetail.unchanged rf d description .success source with
      linesAfter := Text.lineCount merged, shifts, merge := some mode }, some merged)

/-- What is foreseen of an action on the content that a trial has, in an outcome and an overlay. -/
def Foreseen (b : Workbench) (w : World) (rf : Refactoring) (d : Defect) (l : Location)
    (overlay : Overlay) (holds : ActionOutcome → Overlay → Prop) : Prop :=
  ∃ source, Overlay.Has overlay w d.file l source ∧
    holds (.ofResult (b.foreseen rf d source).1)
      (Overlay.write overlay l (b.foreseen rf d source).2)

theorem contentOnTrial_ends (hplain : Plain w.disk (w.absolute d.file) l) :
    (contentOnTrial overlay d.file).Ends w fun res w' => (∃ trouble, w' = { w with trouble }) ∧
      match res with
      | .ok source => Overlay.Has overlay w d.file l source
      | .error e => e.OfSystem := by
  have hsame : ∃ trouble, w = { w with trouble } := ⟨w.trouble, rfl⟩
  rw [contentOnTrial]
  refine Act.ends_look_bind ?_
  rw [World.identity_of_plain hplain]
  split
  · rename_i text htext
    refine Act.ends_pure ⟨hsame, ?_⟩
    dsimp only [Overlay.Has]
    rw [htext]
  · rename_i hnone
    refine World.ends_readText.mapError.mono ?_
    rintro (e | source) w' hw'
    · obtain ⟨_, rfl, hw', -⟩ := hw'
      exact ⟨hw', trivial⟩
    · refine ⟨hw'.1, ?_⟩
      dsimp only [Overlay.Has]
      rw [hnone]
      exact hw'.2 source rfl

/-- What a refactoring makes of a content depends on the content only. -/
theorem rewrite_ends : (b.rewrite rf d source).Ends w fun res w' => w' = w ∧
    match res with
    | .ok rewrite => rf.compute b.parse d source = .ok rewrite
    | .error e => ∃ cause, e = rewriteFailure rf d cause ∧
        rf.compute b.parse d source = .error cause := by
  rw [rewrite]
  refine (Act.ends_ofExcept (Q := fun res w' => w' = w ∧ res = rf.compute b.parse d source)
    ⟨rfl, rfl⟩).mapError.mono ?_
  rintro (e | rewrite) w' hw'
  · obtain ⟨cause, he, hw', hcompute⟩ := hw'
    exact ⟨hw', cause, he, hcompute.symm⟩
  · exact ⟨hw'.1, hw'.2.symm⟩

/-- A rewrite that fails leaves the file as it is. -/
theorem rewriteFailure_recoverable (rf : Refactoring) (d : Defect) (e : RewriteError) :
    (rewriteFailure rf d e).isUnrecoverable = false := by
  unfold rewriteFailure
  split <;> rfl

/-- A trial reports what is foreseen of the content on trial and changes nothing. -/
theorem trial_ends (hplain : Plain w.disk (w.absolute d.file) l) :
    (b.trial rf d overlay).Ends w fun res w' => (∃ trouble, w' = { w with trouble }) ∧
      ((∃ e, res = .error e ∧ e.OfSystem) ∨ ∃ source, Overlay.Has overlay w d.file l source ∧
        res = (b.foreseen rf d source).1.map fun detail =>
          (detail, Overlay.write overlay l (b.foreseen rf d source).2)) := by
  rw [trial]
  refine (contentOnTrial_ends hplain).bind ?_ ?_
  · rintro source _ ⟨⟨trouble, rfl⟩, hhas⟩
    have hsame : ∃ trouble', ({ w with trouble } : World) = { w with trouble := trouble' } :=
      ⟨trouble, rfl⟩
    refine rewrite_ends.bind ?_ ?_
    · rintro (⟨content, shifts, description⟩ | ⟨description, notes⟩) _ ⟨rfl, hcompute⟩
      · have hidentity : World.identity { w with trouble } d.file = l.path :=
          World.identity_of_plain hplain
        refine Act.ends_look_bind (Act.ends_pure ⟨hsame, Or.inr ⟨source, hhas, ?_⟩⟩)
        rw [foreseen, hcompute, hidentity]
        rfl
      · refine Act.ends_pure ⟨hsame, Or.inr ⟨source, hhas, ?_⟩⟩
        rw [foreseen, hcompute]
        rfl
    · rintro _ _ ⟨rfl, cause, rfl, hcompute⟩
      refine ⟨hsame, Or.inr ⟨source, hhas, ?_⟩⟩
      rw [foreseen, hcompute]
      rfl
  · rintro e w' ⟨hw', he⟩
    exact ⟨hw', Or.inl ⟨e, rfl, he⟩⟩

end Workbench

end Amend
