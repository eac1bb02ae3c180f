import Amend.Proofs.Workflow.Foresight

/-!
# Runs that nothing stands in the way of

With a store that has nothing in its way a backup is taken, and a file that does not parse is
refused and left as it is, live and on trial.
-/

namespace Amend

open Disk (Plain)
open World (Within)
open SnapshotStore (isNewKey_nil)

variable {base : Location} {start w w' : World} {n : Nat} {i : SnapshotIndex}

/-! ## Backups -/

theorem SnapshotStore.Calm.membersOf {s : SnapshotStore} (h : s.Calm base start [] n i w)
    {t : Snapshot} (hfound : i.find? t.id = some t) :
    (Workbench.membersOf s [t.id]).Yields w fun ts w' => ts = [t] ∧
      s.Calm base start [] n i w' := by
  have hget : (s.get t.id).Yields w fun u w' => u = t ∧ s.Calm base start [] n i w' := by
    rw [SnapshotStore.get]
    refine (h.askIndex (isNewKey_nil _)).bind ?_
    rintro _ w₁ ⟨rfl, h₁, -⟩
    rw [hfound]
    exact Act.yields_pure ⟨rfl, h₁⟩
  refine hget.bind ?_
  rintro _ w₁ ⟨rfl, h₁⟩
  exact Act.yields_pure ⟨rfl, h₁⟩

/-- Whatever set a process has taken, releasing it changes only the directory of the store. -/
theorem SnapshotStore.Calm.releaseSet {ε : Type} {s : SnapshotStore}
    (h : s.Calm base start [] n i w) (id : Uid) :
    (s.releaseSet id : Act ε Unit).Yields w fun _ w' =>
      Disk.Frame (base <+: ·) start.disk w'.disk := by
  have hget : (s.getSet id).Ends w fun _ w' => Disk.Frame (base <+: ·) start.disk w'.disk := by
    rw [SnapshotStore.getSet]
    refine Act.Yields.bind_ends (h.askIndex (isNewKey_nil _)) ?_
    rintro _ w₁ ⟨rfl, h₁, -⟩
    split
    · exact Act.ends_pure h₁.since.frame
    · exact Act.ends_throw h₁.since.frame
  rw [SnapshotStore.releaseSet]
  refine hget.outcome.bind (fun r w₁ h₁ => ?_) fun e w₁ he => he.elim
  cases r with
  | ok set => exact Act.ends_change ⟨(), rfl, h₁⟩
  | error e => exact Act.yields_pure h₁

namespace Workbench

variable {b : Workbench} {r : Run} {file : Path}

/-- A backup of one file is taken once its snapshot is. -/
theorem backUp_of_create {Q : Snapshot → World → Prop}
    (hfiles : r.plan.mutatingFiles w.identity = [file])
    (hcreate : (b.store.create file).Yields w fun t w' => ∃ start i,
      (Q t start ∧ i.find? t.id = some t) ∧ b.store.Calm base start [] n i w') :
    (b.backUp r).Yields w fun r' w' => ∃ t set start i, Q t start ∧
      r' = { r with set := some set, members := [t] } ∧
      b.store.Calm base { start with pinned := start.pinned ++ set.members } [] (n + 1) i w' := by
  have htake : (do
      let set ← b.store.createSet [file]
      return (set, ← membersOf b.store set.members) :
      Act SnapshotError (SnapshotSet × List Snapshot)).Yields w fun x w' => ∃ t start i,
        Q t start ∧ x.2 = [t] ∧
        b.store.Calm base { start with pinned := start.pinned ++ x.1.members } [] (n + 1) i
          w' := by
    refine (SnapshotStore.Calm.createSet_of_create
      (Q := fun t start i => Q t start ∧ i.find? t.id = some t) hcreate).bind ?_
    rintro set w₁ ⟨t, start, i, ⟨ht, hfound⟩, hmembers, h₁⟩
    rw [hmembers]
    rw [hmembers] at h₁
    refine (h₁.membersOf (t := t) hfound).bind ?_
    rintro _ w₂ ⟨rfl, h₂⟩
    refine Act.yields_pure ⟨_, start, i.addSet set, ht, rfl, ?_⟩
    dsimp only
    rw [hmembers]
    exact h₂
  rw [backUp]
  refine Act.ends_look_bind ?_
  rw [hfiles]
  refine htake.mapError.bind ?_
  rintro ⟨set, ts⟩ w₁ ⟨t, start, i, ht, rfl, h₁⟩
  exact Act.yields_pure ⟨t, set, start, i, ht, rfl, h₁⟩

/-! ## Files that do not parse -/

/-- A Java file that may be written and is read, but does not parse. -/
structure Unparsable (b : Workbench) (w : World) (file : Path) (cause : Syntax.ParseError) : Prop where
  trouble : w.trouble = []
  java : file.isJava = true
  stat : ∃ content mode modified, w.stat file = .ok (.file content mode modified) ∧
    isReadOnly mode = false
  read : ∃ source, w.disk.readText (w.absolute file) = .ok source ∧
    b.parse.verify source = .error cause

variable {rf : Refactoring} {d : Defect} {member : Option Snapshot} {cause : Syntax.ParseError}

theorem apply_of_unparsable (h : Unparsable b w d.file cause) :
    (b.apply rf d member).Ends w fun res w' =>
      res = .error (.refactoring (.badTarget d.file (.unparsable cause))) ∧ w' = w := by
  obtain ⟨content, mode, modified, hstat, hwritable⟩ := h.stat
  obtain ⟨source, hread, hverify⟩ := h.read
  have hcheck : (Refactoring.checkTarget b.parse d.file).Ends w fun res w' =>
      res = .error (.badTarget d.file (.unparsable cause)) ∧ w' = w := by
    rw [Refactoring.checkTarget, h.java, Bool.not_true, if_neg Bool.false_ne_true]
    refine Act.ends_look_bind ?_
    rw [hstat]
    dsimp only
    rw [hwritable, if_neg Bool.false_ne_true, Refactoring.readTarget]
    refine Act.Yields.bind_ends (World.yields_readText h.trouble hread).mapError ?_
    rintro _ w₁ ⟨rfl, rfl⟩
    rw [hverify]
    exact Act.ends_throw ⟨rfl, rfl⟩
  rw [apply]
  refine hcheck.mapError.bind ?_ ?_
  · rintro _ w₁ ⟨hok, -⟩
    cases hok
  · rintro _ w₁ ⟨e, rfl, he, hw₁⟩
    cases he
    exact ⟨rfl, hw₁⟩

theorem trial_of_unparsable (h : Unparsable b w d.file cause) :
    (b.trial rf d []).Ends w fun res w' =>
      res = .error (.refactoring (.rewrite (.unparsable d.file cause))) ∧ w' = w := by
  obtain ⟨source, hread, hverify⟩ := h.read
  have hcompute : rf.compute b.parse d source = .error (.unparsable d.file cause) := by
    rw [Refactoring.compute, hverify]
    rfl
  have hcontent : (contentOnTrial [] d.file).Yields w fun text w' => text = source ∧ w' = w := by
    rw [contentOnTrial]
    exact Act.ends_look_bind (World.yields_readText h.trouble hread).mapError
  rw [trial]
  refine Act.Yields.bind_ends hcontent ?_
  rintro _ w₁ ⟨rfl, hw₁⟩
  refine rewrite_ends.bind ?_ ?_
  · rintro rewrite w₂ ⟨-, hok⟩
    rw [hcompute] at hok
    cases hok
  · rintro _ w₂ ⟨rfl, e, rfl, he⟩
    rw [hcompute] at he
    cases he
    exact ⟨rfl, hw₁⟩

variable {a : PlannedAction} {lines : LineMap} {index : Nat}

/-- A live action on a file that does not parse is reported as failed, and nothing is done. -/
theorem applyActions_of_unparsable (h : Unparsable b w a.defect.file cause)
    (hgoesOn : b.settings.stopsOnFailure = false)
    (hfound : b.catalog.find? a.refactoring = some rf)
    (hmember : a.advisory = true ∨ (r.member? (w.identity a.defect.file)).isSome = true) :
    (b.applyActions r lines index [a]).Ends w fun res w' =>
      res = .ok (r.report index a.refactoring
        (lines.remapDefect (w.identity a.defect.file) a.defect)
        (.failed (.refactoring (.badTarget a.defect.file (.unparsable cause))))) ∧ w' = w := by
  rw [applyActions]
  refine Act.ends_look_bind ?_
  generalize hd : lines.remapDefect (w.identity a.defect.file) a.defect = d
  have hfile : d.file = a.defect.file := by
    rw [← hd]
    rfl
  have haction : (b.applyAction r a d).Ends w fun res w' =>
      res = .ok (.failed (.refactoring (.badTarget a.defect.file (.unparsable cause)))) ∧
        w' = w := by
    rw [applyAction, hfound]
    refine Act.ends_look_bind ?_
    split
    case isTrue hnone =>
      rw [Bool.and_eq_true, Bool.not_eq_true', Option.isNone_iff_eq_none] at hnone
      rcases hmember with hadvisory | hsome
      · rw [hadvisory] at hnone
        cases hnone.1
      · rw [hfile] at hnone
        rw [hnone.2] at hsome
        cases hsome
    case isFalse =>
      rw [← hfile] at h
      refine (apply_of_unparsable h).outcome.bind ?_ fun e w₁ he => he.elim
      rintro _ w₁ ⟨rfl, hw₁⟩
      refine Act.ends_pure ⟨?_, hw₁⟩
      rw [hfile]
  refine haction.bind ?_ ?_
  · rintro outcome w₁ ⟨ho, hw₁⟩
    cases ho
    refine Act.ends_look_bind ?_
    dsimp only
    rw [hgoesOn, Bool.and_false, if_neg Bool.false_ne_true]
    exact Act.ends_pure ⟨rfl, hw₁⟩
  · rintro _ w₁ ⟨he, -⟩
    cases he

/-- A trial of an action on a file that does not parse is reported as failed, and nothing is
written. -/
theorem tryActions_of_unparsable (h : Unparsable b w a.defect.file cause)
    (hfound : b.catalog.find? a.refactoring = some rf) :
    Act.Settles (b.tryActions r lines [] index [a]) w fun x w' =>
      x = (r.report index a.refactoring
        (lines.remapDefect (w.identity a.defect.file) a.defect)
        (.failed (.refactoring (.rewrite (.unparsable a.defect.file cause)))), []) ∧ w' = w := by
  rw [tryActions]
  refine Act.settles_get_bind ?_
  generalize hd : lines.remapDefect (w.identity a.defect.file) a.defect = d
  have hfile : d.file = a.defect.file := by
    rw [← hd]
    rfl
  have hunparsable : Unparsable b w d.file cause := by
    rw [hfile]
    exact h
  have haction : Act.Settles (b.tryAction a d []) w fun x w' =>
      x = (.failed (.refactoring (.rewrite (.unparsable a.defect.file cause))), []) ∧ w' = w := by
    rw [tryAction, hfound]
    refine (trial_of_unparsable hunparsable).settle.bind ?_
    rintro _ w₁ ⟨rfl, hw₁⟩
    refine Act.settles_pure ⟨?_, hw₁⟩
    rw [hfile]
  refine haction.bind ?_
  rintro _ w₁ ⟨rfl, hw₁⟩
  exact Act.settles_get_bind (Act.settles_pure ⟨rfl, hw₁⟩)

end Workbench

end Amend
