import Amend.Proofs.Snapshot.LockFile
import Mathlib.Logic.Function.Basic

/-!
# Processes that exclude each other

Several processes take the lock on one key and give it back.  Each goes through single steps on the
disk that they share: it creates the lock file, finds out whether a file that is there is stale,
removes a stale one and removes its own in the end.  The steps of others may come in between.

If nobody keeps the lock longer than the stale time, at most one process holds it at a time, as long
as a file that is removed for being stale is still stale then.  So it is where nothing was left
behind: no file is ever stale.  But two processes that both find an abandoned file stale may both
come to hold the lock, for the second removes what the first has created since.
-/

namespace Amend.FileLocks

open SnapshotStore (lockLocation)

/-! ## Steps -/

/-- Where a process stands with the lock. -/
inductive Phase where
  | idle
  /-- About to create the lock file. -/
  | creating
  /-- There was a lock file, whose age is to be looked at. -/
  | judging
  /-- The lock file was stale and is to be removed. -/
  | breaking
  /-- The process created the lock file at that time. -/
  | holding (since : Nat)
deriving DecidableEq

/-- The phase after an attempt to create the lock file. -/
def Phase.afterCreate (now : Nat) : Except SystemError Unit → Phase
  | .ok _ => .holding now
  | .error .alreadyExists => .judging
  | .error _ => .idle

/-- Processes at a disk that they share. -/
structure Scene where
  world : World
  phase : Nat → Phase
  /-- The process that created the lock file that is there. -/
  creator : Option Nat

/-- A step of a process, or something else that happens. -/
inductive Action where
  | start (p : Nat)
  | create (p : Nat)
  | judge (p : Nat)
  | remove (p : Nat)
  | release (p : Nat)
  | elsewhere

/-- What happens to the world without touching the lock file or the way to it. -/
structure Elsewhere (locks : FileLocks) (dir : Path) (base : Location) (key : Path)
    (w w' : World) : Prop where
  placed : Placed locks dir base w → Placed locks dir base w'
  same : w'.disk.at? (lockLocation base key) = w.disk.at? (lockLocation base key)
  now : w.now ≤ w'.now

namespace Scene

/-- The scene after a step of a process. -/
def move (s : Scene) (p : Nat) (world : World) (next : Phase) (creator : Option Nat) : Scene where
  world
  phase := Function.update s.phase p next
  creator

/-- Who created the lock file after a process tried to. -/
def creatorAfterCreate (s : Scene) (p : Nat) : Except SystemError Unit → Option Nat
  | .ok _ => some p
  | .error _ => s.creator

/-- Who created the lock file after it was to be removed. -/
def creatorAfterRemove (s : Scene) : Except SystemError Unit → Option Nat
  | .ok _ => none
  | .error _ => s.creator

end Scene

/-- The single steps of taking and giving back the lock on a key.  A process that finds the lock
file fresh tries again or gives up. -/
inductive Step (locks : FileLocks) (dir : Path) (base : Location) (key : Path) :
    Scene → Action → Scene → Prop where
  | start {s : Scene} {p : Nat} (hphase : s.phase p = .idle) :
      Step locks dir base key s (.start p) (s.move p s.world .creating s.creator)
  | create {s : Scene} {p : Nat} {r : Except SystemError Unit} {world : World}
      (hphase : s.phase p = .creating)
      (hrun : (World.createNew (locks.fileOf key) "lock\n".toUTF8).apply s.world = (r, world)) :
      Step locks dir base key s (.create p)
        (s.move p world (.afterCreate s.world.now r) (s.creatorAfterCreate p r))
  | judge {s : Scene} {p : Nat} {next : Phase} (hphase : s.phase p = .judging)
      (hnext : (locks.isStale s.world (locks.fileOf key) = true ∧ next = .breaking) ∨
        (locks.isStale s.world (locks.fileOf key) = false ∧ (next = .creating ∨ next = .idle))) :
      Step locks dir base key s (.judge p) (s.move p s.world next s.creator)
  | remove {s : Scene} {p : Nat} {r : Except SystemError Unit} {world : World}
      (hphase : s.phase p = .breaking)
      (hrun : (World.removeFile (locks.fileOf key)).apply s.world = (r, world)) :
      Step locks dir base key s (.remove p) (s.move p world .creating (s.creatorAfterRemove r))
  | release {s : Scene} {p since : Nat} {r : Except SystemError Unit} {world : World}
      (hphase : s.phase p = .holding since)
      (hrun : (World.removeFile (locks.fileOf key)).apply s.world = (r, world)) :
      Step locks dir base key s (.release p) (s.move p world .idle (s.creatorAfterRemove r))
  | elsewhere {s : Scene} {world : World} (h : Elsewhere locks dir base key s.world world) :
      Step locks dir base key s .elsewhere { s with world }

/-- Steps one after the other, each of which is allowed. -/
inductive Run (locks : FileLocks) (dir : Path) (base : Location) (key : Path)
    (allowed : Scene → Action → Scene → Prop) : Scene → Scene → Prop where
  | refl (s : Scene) : Run locks dir base key allowed s s
  | step {s t u : Scene} {a : Action} (hrun : Run locks dir base key allowed s t)
      (hstep : Step locks dir base key t a u) (hallowed : allowed t a u) :
      Run locks dir base key allowed s u

section

variable {locks : FileLocks} {dir : Path} {base : Location} {key : Path} {s t u : Scene}
  {a : Action} {p q since : Nat}

theorem Run.trans {allowed : Scene → Action → Scene → Prop}
    (h : Run locks dir base key allowed s t) (h' : Run locks dir base key allowed t u) :
    Run locks dir base key allowed s u := by
  induction h' with
  | refl => exact h
  | step _ hstep hallowed ih => exact ih.step hstep hallowed

theorem Run.single {allowed : Scene → Action → Scene → Prop}
    (h : Step locks dir base key s a u) (hallowed : allowed s a u) :
    Run locks dir base key allowed s u := (Run.refl s).step h hallowed

theorem phase_move {world : World} {next : Phase} {creator : Option Nat} :
    (s.move p world next creator).phase p = next := by
  simp [Scene.move]

theorem phase_move_of_ne {world : World} {next : Phase} {creator : Option Nat} (h : q ≠ p) :
    (s.move p world next creator).phase q = s.phase q := by
  simp [Scene.move, h]

/-! ### One attempt -/

/-- The steps of a process that tries to take the lock. -/
def Action.IsTry (p : Nat) (a : Action) : Prop := a = .create p ∨ a = .judge p ∨ a = .remove p

/-- The phase that an attempt leads to, if nobody comes in between. -/
def Phase.afterAttempt (now : Nat) : Attempt → Phase
  | .taken => .holding now
  | .broken | .busy => .creating
  | .failed _ => .idle

/-- An attempt on the lock file is made of steps of one process. -/
theorem run_of_attempt {r : Attempt} {w : World} (hphase : s.phase p = .creating)
    (h : (locks.attempt (locks.fileOf key)).apply s.world = (.ok r, w)) :
    ∃ u, Run locks dir base key (fun _ a _ => a.IsTry p) s u ∧ u.world = w ∧
      u.phase p = .afterAttempt s.world.now r := by
  rcases hcreate : (World.createNew (locks.fileOf key) "lock\n".toUTF8).apply s.world with ⟨r₁, w₁⟩
  have hfirst : Run locks dir base key (fun _ a _ => a.IsTry p) s _ :=
    .single (.create hphase hcreate) (Or.inl rfl)
  rw [attempt, Act.apply_outcome_bind hcreate] at h
  rcases r₁ with e | _
  · cases e with
    | alreadyExists =>
      dsimp only at h
      rw [Act.apply_look_bind] at h
      cases hstale : locks.isStale w₁ (locks.fileOf key) with
      | true =>
        rw [hstale] at h
        rcases hremove : (World.removeFile (locks.fileOf key)).apply w₁ with ⟨r₂, w₂⟩
        rw [if_pos rfl, Act.apply_outcome_bind hremove] at h
        cases h
        have hjudged := hfirst.step (.judge phase_move (Or.inl ⟨hstale, rfl⟩)) (Or.inr (Or.inl rfl))
        exact ⟨_, hjudged.step (.remove phase_move hremove) (Or.inr (Or.inr rfl)), rfl, phase_move⟩
      | false =>
        rw [hstale] at h
        cases h
        have hjudged := hfirst.step (.judge phase_move (Or.inr ⟨hstale, Or.inl rfl⟩))
          (Or.inr (Or.inl rfl))
        exact ⟨_, hjudged, rfl, phase_move⟩
    | _ =>
      cases h
      exact ⟨_, hfirst, rfl, phase_move⟩
  · cases h
    exact ⟨_, hfirst, rfl, phase_move⟩

/-! ## Who holds the lock -/

/-- Nobody has kept the lock for longer than the stale time. -/
def Timely (locks : FileLocks) (s : Scene) : Prop :=
  ∀ p since, s.phase p = .holding since → s.world.now ≤ since + locks.staleMs

/-- Who holds the lock created the lock file that is there. -/
structure Owned (locks : FileLocks) (dir : Path) (base : Location) (key : Path) (s : Scene) :
    Prop where
  placed : Placed locks dir base s.world
  owns : ∀ p since, s.phase p = .holding since → s.creator = some p ∧ ∃ content mode,
    s.world.disk.at? (lockLocation base key) = some (.file content mode since)

/-- A file that a process removes for being stale is stale then, if it is still there. -/
def Prompt (locks : FileLocks) (base : Location) (key : Path) (s : Scene) (a : Action) : Prop :=
  ∀ p, a = .remove p → s.world.disk.at? (lockLocation base key) = none ∨
    locks.isStale s.world (locks.fileOf key) = true

theorem holding_of_move {world : World} {next : Phase} {creator : Option Nat}
    (h : (s.move p world next creator).phase q = .holding since) :
    (q = p ∧ next = .holding since) ∨ (q ≠ p ∧ s.phase q = .holding since) := by
  by_cases hq : q = p
  · rw [hq, phase_move] at h
    exact Or.inl ⟨hq, h⟩
  · rw [phase_move_of_ne hq] at h
    exact Or.inr ⟨hq, h⟩

theorem Owned.eq_of_holding (h : Owned locks dir base key s) {since' : Nat}
    (hp : s.phase p = .holding since) (hq : s.phase q = .holding since') : p = q := by
  have hcreator := (h.owns p since hp).1
  rw [(h.owns q since' hq).1] at hcreator
  exact (Option.some.inj hcreator).symm

/-- A step of a process that does not come to hold the lock, if it leaves the file alone. -/
theorem Owned.move_same (h : Owned locks dir base key s) {world : World} {next : Phase}
    (hnext : ∀ since, next ≠ .holding since) (hplaced : Placed locks dir base world)
    (hsame : world.disk = s.world.disk) :
    Owned locks dir base key (s.move p world next s.creator) where
  placed := hplaced
  owns := by
    intro q since hq
    rcases holding_of_move hq with ⟨-, heq⟩ | ⟨-, hq⟩
    · exact absurd heq (hnext since)
    · change s.creator = some q ∧ ∃ content mode,
        world.disk.at? (lockLocation base key) = some (.file content mode since)
      rw [hsame]
      exact h.owns q since hq

/-- A step after which nobody holds the lock. -/
theorem owned_move_free {world : World} {next : Phase} {creator : Option Nat}
    (hnext : ∀ since, next ≠ .holding since) (hplaced : Placed locks dir base world)
    (hfree : ∀ q since, q ≠ p → s.phase q ≠ .holding since) :
    Owned locks dir base key (s.move p world next creator) where
  placed := hplaced
  owns := by
    intro q since hq
    rcases holding_of_move hq with ⟨-, heq⟩ | ⟨hne, hq⟩
    · exact absurd heq (hnext since)
    · exact absurd hq (hfree q since hne)

/-- The lock file of a process that holds the lock is there and not stale. -/
theorem Owned.not_abandoned (h : Owned locks dir base key s) (htimely : Timely locks s)
    (hp : s.phase p = .holding since) : ¬ (s.world.disk.at? (lockLocation base key) = none ∨
      locks.isStale s.world (locks.fileOf key) = true) := by
  obtain ⟨-, content, mode, hfile⟩ := h.owns p since hp
  rintro (hnone | hstale)
  · rw [hfile] at hnone
    cases hnone
  · obtain ⟨_, _, modified, hfile', hlt⟩ := h.placed.isStale_iff.mp hstale
    rw [hfile] at hfile'
    cases hfile'
    have hnow := htimely p since hp
    omega

theorem Owned.create (h : Owned locks dir base key s) {r : Except SystemError Unit} {world : World}
    (hrun : (World.createNew (locks.fileOf key) "lock\n".toUTF8).apply s.world = (r, world)) :
    Owned locks dir base key
      (s.move p world (.afterCreate s.world.now r) (s.creatorAfterCreate p r)) := by
  have hended := (h.placed.ends_createNew key).of_apply hrun
  cases r with
  | error e =>
    obtain ⟨trouble, rfl⟩ := hended
    refine h.move_same (fun since => ?_) (h.placed.memory _ _ trouble) rfl
    cases e <;> exact nofun
  | ok _ =>
    obtain ⟨hnone, trouble, rfl⟩ := hended
    refine ⟨(h.placed.memory _ _ trouble).filed hnone, fun q since hq => ?_⟩
    rcases holding_of_move hq with ⟨rfl, heq⟩ | ⟨-, hq⟩
    · cases heq
      exact ⟨rfl, _, _, at?_filed⟩
    · obtain ⟨-, content, mode, hfile⟩ := h.owns q since hq
      rw [hnone] at hfile
      cases hfile

/-- The file is removed where nobody else holds the lock. -/
theorem Owned.removeFile (h : Owned locks dir base key s) {r : Except SystemError Unit}
    {world : World} {next : Phase} (hnext : ∀ since, next ≠ .holding since)
    (hrun : (World.removeFile (locks.fileOf key)).apply s.world = (r, world))
    (hfree : ∀ q since, q ≠ p → s.phase q ≠ .holding since) :
    Owned locks dir base key (s.move p world next (s.creatorAfterRemove r)) := by
  have hended := (h.placed.ends_removeFile key).of_apply hrun
  cases r with
  | error e =>
    obtain ⟨trouble, rfl⟩ := hended
    exact h.move_same hnext (h.placed.memory _ _ trouble) rfl
  | ok _ =>
    obtain ⟨hfile, trouble, rfl⟩ := hended
    exact owned_move_free hnext ((h.placed.memory _ _ trouble).cleared hfile) hfree

/-- What one step preserves. -/
theorem Owned.step (h : Owned locks dir base key s) (htimely : Timely locks s)
    (hstep : Step locks dir base key s a u) (hprompt : Prompt locks base key s a) :
    Owned locks dir base key u := by
  cases hstep with
  | start _ => exact h.move_same nofun h.placed rfl
  | create _ hrun => exact h.create hrun
  | judge _ hnext =>
    refine h.move_same (fun since => ?_) h.placed rfl
    rcases hnext with ⟨-, rfl⟩ | ⟨-, rfl | rfl⟩
    all_goals exact nofun
  | @remove p _ _ _ hrun =>
    refine h.removeFile nofun hrun fun q since _ hq => ?_
    exact h.not_abandoned htimely hq (hprompt p rfl)
  | release hphase hrun =>
    refine h.removeFile nofun hrun fun q since hne hq => ?_
    exact hne (h.eq_of_holding hq hphase)
  | elsewhere hworld =>
    refine ⟨hworld.placed h.placed, fun q since hq => ?_⟩
    rw [hworld.same]
    exact h.owns q since hq

/-! ## Runs -/

/-- After each step nobody has kept the lock for too long, and what is removed is stale. -/
def Orderly (locks : FileLocks) (base : Location) (key : Path) (s : Scene) (a : Action)
    (u : Scene) : Prop := Timely locks u ∧ Prompt locks base key s a

theorem Owned.run (h : Owned locks dir base key s) (htimely : Timely locks s)
    (hrun : Run locks dir base key (Orderly locks base key) s u) :
    Owned locks dir base key u ∧ Timely locks u := by
  induction hrun with
  | refl => exact ⟨h, htimely⟩
  | step _ hstep hallowed ih => exact ⟨ih.1.step ih.2 hstep hallowed.2, hallowed.1⟩

/-- In an orderly run at most one process holds the lock at a time, and what a process removes when
it gives the lock back is its own file. -/
theorem at_most_one_holds (h : Owned locks dir base key s) (htimely : Timely locks s)
    (hrun : Run locks dir base key (Orderly locks base key) s u) :
    (∀ p q since since', u.phase p = .holding since → u.phase q = .holding since' → p = q) ∧
      ∀ p v, Step locks dir base key u (.release p) v → u.creator = some p := by
  have howned := (h.run htimely hrun).1
  refine ⟨fun p q since since' hp hq => howned.eq_of_holding hp hq, ?_⟩
  rintro p v (_ | _ | _ | _ | hphase)
  exact (howned.owns p _ hphase).1

/-! ### Where nothing was left behind -/

/-- Whoever created the lock file that is there holds the lock, and nobody is about to break it. -/
structure Attended (locks : FileLocks) (dir : Path) (base : Location) (key : Path) (s : Scene) :
    Prop where
  owned : Owned locks dir base key s
  trouble : s.world.trouble = []
  unbroken : ∀ p, s.phase p ≠ .breaking
  held : s.world.disk.at? (lockLocation base key) ≠ none → ∃ p since, s.phase p = .holding since

/-- A lock file that is attended is not stale. -/
theorem Attended.not_stale (h : Attended locks dir base key s) (htimely : Timely locks s) :
    locks.isStale s.world (locks.fileOf key) = false := by
  rw [← Bool.not_eq_true]
  intro hstale
  obtain ⟨_, _, _, hfile, -⟩ := h.owned.placed.isStale_iff.mp hstale
  obtain ⟨p, since, hp⟩ := h.held (by rw [hfile]; exact Option.some_ne_none _)
  exact h.owned.not_abandoned htimely hp (Or.inr hstale)

/-- A step of a process that leaves the disk as it is. -/
theorem Attended.held_move (h : Attended locks dir base key s) {next : Phase}
    {creator : Option Nat} (hp : ∀ since, s.phase p ≠ .holding since)
    (hat : s.world.disk.at? (lockLocation base key) ≠ none) :
    ∃ q since, (s.move p s.world next creator).phase q = .holding since := by
  obtain ⟨q, since, hq⟩ := h.held hat
  refine ⟨q, since, ?_⟩
  rw [phase_move_of_ne]
  · exact hq
  · rintro rfl
    exact hp since hq

theorem not_breaking_move {world : World} {next : Phase} {creator : Option Nat}
    (h : ∀ q, s.phase q ≠ .breaking) (hnext : next ≠ .breaking) (q : Nat) :
    (s.move p world next creator).phase q ≠ .breaking := by
  by_cases hq : q = p
  · rw [hq, phase_move]
    exact hnext
  · rw [phase_move_of_ne hq]
    exact h q

theorem Attended.step (h : Attended locks dir base key s) (htimely : Timely locks s)
    (hstep : Step locks dir base key s a u) (htrouble : u.world.trouble = []) :
    Attended locks dir base key u := by
  have hprompt : Prompt locks base key s a := by
    rintro p rfl
    cases hstep with
    | remove hphase => exact absurd hphase (h.unbroken p)
  refine ⟨h.owned.step htimely hstep hprompt, htrouble, ?_, ?_⟩
  · cases hstep with
    | start _ => exact not_breaking_move h.unbroken nofun
    | @create _ r _ _ hrun =>
      refine not_breaking_move h.unbroken ?_
      rcases r with e | _
      · cases e <;> exact nofun
      · exact nofun
    | judge _ hnext =>
      refine not_breaking_move h.unbroken ?_
      rcases hnext with ⟨hstale, -⟩ | ⟨-, rfl | rfl⟩
      · rw [h.not_stale htimely] at hstale
        cases hstale
      · exact nofun
      · exact nofun
    | remove _ _ => exact not_breaking_move h.unbroken nofun
    | release _ _ => exact not_breaking_move h.unbroken nofun
    | elsewhere _ => exact h.unbroken
  · intro hat
    cases hstep with
    | start hphase => exact h.held_move (by rw [hphase]; exact nofun) hat
    | @create p r _ hphase hrun =>
      cases hnone : s.world.disk.at? (lockLocation base key) with
      | none =>
        rw [h.owned.placed.createNew_of_none h.trouble hnone] at hrun
        cases hrun
        exact ⟨p, s.world.now, phase_move⟩
      | some e =>
        rw [h.owned.placed.createNew_of_some h.trouble hnone] at hrun
        cases hrun
        exact h.held_move (by rw [hphase]; exact nofun) hat
    | judge hphase _ => exact h.held_move (by rw [hphase]; exact nofun) hat
    | @remove p _ _ hphase _ => exact absurd hphase (h.unbroken p)
    | @release p since _ _ hphase hrun =>
      obtain ⟨-, content, mode, hfile⟩ := h.owned.owns p since hphase
      rw [h.owned.placed.removeFile_of_file h.trouble hfile] at hrun
      cases hrun
      exact absurd at?_cleared hat
    | elsewhere hworld =>
      rw [hworld.same] at hat
      exact h.held hat

/-- Where nothing was left behind and the system refuses nothing, at most one process holds the lock
at a time and gives back its own, in whatever order the steps come. -/
theorem at_most_one_holds_attended (h : Attended locks dir base key s) (htimely : Timely locks s)
    (hrun : Run locks dir base key (fun _ _ u => Timely locks u ∧ u.world.trouble = []) s u) :
    (∀ p q since since', u.phase p = .holding since → u.phase q = .holding since' → p = q) ∧
      ∀ p v, Step locks dir base key u (.release p) v → u.creator = some p := by
  have hattended : Attended locks dir base key u ∧ Timely locks u := by
    induction hrun with
    | refl => exact ⟨h, htimely⟩
    | step _ hstep hallowed ih => exact ⟨ih.1.step ih.2 hstep hallowed.2, hallowed.1⟩
  exact at_most_one_holds hattended.1.owned hattended.2 (.refl u)

/-! ### Where a stale file was left behind -/

theorem Timely.move (h : Timely locks s) {world : World} {next : Phase} {creator : Option Nat}
    (hnow : world.now = s.world.now)
    (hnext : ∀ since, next = .holding since → since = s.world.now) :
    Timely locks (s.move p world next creator) := by
  intro q since hq
  change world.now ≤ since + locks.staleMs
  rw [hnow]
  rcases holding_of_move hq with ⟨-, heq⟩ | ⟨-, hq⟩
  · rw [hnext since heq]
    exact Nat.le_add_right _ _
  · exact h q since hq

/-- A scene in which there is a lock file and nothing in the way. -/
structure Exposed (locks : FileLocks) (dir : Path) (base : Location) (key : Path) (s : Scene) :
    Prop where
  placed : Placed locks dir base s.world
  trouble : s.world.trouble = []
  timely : Timely locks s
  file : ∃ content mode modified,
    s.world.disk.at? (lockLocation base key) = some (.file content mode modified)

/-- A process that finds the lock file stale is about to break it. -/
theorem Exposed.judged (h : Exposed locks dir base key s) (hphase : s.phase p = .creating)
    (hstale : locks.isStale s.world (locks.fileOf key) = true) :
    ∃ u, Run locks dir base key (fun _ _ u => Timely locks u) s u ∧
      Exposed locks dir base key u ∧ u.world = s.world ∧ u.phase p = .breaking ∧
      ∀ q, q ≠ p → u.phase q = s.phase q := by
  obtain ⟨_, _, _, hfile⟩ := h.file
  have hcreate : (World.createNew (locks.fileOf key) "lock\n".toUTF8).apply s.world =
      (.error .alreadyExists, s.world) := h.placed.createNew_of_some h.trouble hfile
  have hfound : Timely locks (s.move p s.world .judging s.creator) := h.timely.move rfl nofun
  have hjudged : Timely locks ((s.move p s.world .judging s.creator).move p s.world .breaking
      s.creator) := hfound.move rfl nofun
  refine ⟨_, (Run.single (.create hphase hcreate) hfound).step
    (.judge phase_move (Or.inl ⟨hstale, rfl⟩)) hjudged,
    ⟨h.placed, h.trouble, hjudged, h.file⟩, rfl, phase_move, fun q hq => ?_⟩
  exact (phase_move_of_ne hq).trans (phase_move_of_ne hq)

/-- A process that is about to break the lock comes to hold it, whatever file is there by then. -/
theorem Exposed.broken (h : Exposed locks dir base key s) (hphase : s.phase p = .breaking) :
    ∃ u, Run locks dir base key (fun _ _ u => Timely locks u) s u ∧
      Exposed locks dir base key u ∧ u.world.now = s.world.now ∧
      u.phase p = .holding s.world.now ∧ u.creator = some p ∧
      ∀ q, q ≠ p → u.phase q = s.phase q := by
  obtain ⟨_, _, _, hfile⟩ := h.file
  have hremove := h.placed.removeFile_of_file h.trouble hfile
  have hplaced := h.placed.cleared (by rw [hfile]; exact nofun)
  have hcreate := hplaced.createNew_of_none h.trouble at?_cleared
  have hremoved : Timely locks (s.move p (cleared base key s.world) .creating none) :=
    h.timely.move rfl nofun
  have hcreated : Timely locks ((s.move p (cleared base key s.world) .creating none).move p
      (filed base key (cleared base key s.world)) (.holding s.world.now) (some p)) := by
    refine hremoved.move rfl fun since heq => ?_
    cases heq
    rfl
  refine ⟨_, (Run.single (.remove hphase hremove) hremoved).step (.create phase_move hcreate)
    hcreated, ⟨hplaced.filed at?_cleared, h.trouble, hcreated, ?_⟩, rfl, phase_move, rfl,
    fun q hq => ?_⟩
  · exact ⟨_, _, _, at?_filed⟩
  · exact (phase_move_of_ne hq).trans (phase_move_of_ne hq)

/-- Two processes that both find an abandoned lock file stale can both come to hold the lock, and
the one that gives it back first then removes the file of the other. -/
theorem two_hold_after_break {w : World} {content : ByteArray} {mode modified : Nat}
    (hplaced : Placed locks dir base w) (htrouble : w.trouble = [])
    (hfile : w.disk.at? (lockLocation base key) = some (.file content mode modified))
    (hstale : locks.staleMs < w.now - modified) (hpq : p ≠ q) :
    ∃ u v, Run locks dir base key (fun _ _ t => Timely locks t) ⟨w, fun _ => .creating, none⟩ u ∧
      u.phase p = .holding w.now ∧ u.phase q = .holding w.now ∧ u.creator = some q ∧
      Step locks dir base key u (.release p) v ∧ v.phase q = .holding w.now ∧
      v.world.disk.at? (lockLocation base key) = none := by
  have hexposed : Exposed locks dir base key ⟨w, fun _ => .creating, none⟩ :=
    ⟨hplaced, htrouble, nofun, content, mode, modified, hfile⟩
  have hjudged : locks.isStale w (locks.fileOf key) = true :=
    hplaced.isStale_iff.mpr ⟨content, mode, modified, hfile, hstale⟩
  -- both find the file stale before one of them removes it
  obtain ⟨s₁, hrun₁, hexposed₁, hworld₁, hp₁, hothers₁⟩ := hexposed.judged (p := p) rfl hjudged
  obtain ⟨s₂, hrun₂, hexposed₂, hworld₂, hq₂, hothers₂⟩ :=
    hexposed₁.judged (hothers₁ q hpq.symm) (by rw [hworld₁]; exact hjudged)
  have hp₂ : s₂.phase p = .breaking := (hothers₂ p hpq).trans hp₁
  have hnow₂ : s₂.world.now = w.now := by rw [hworld₂, hworld₁]
  obtain ⟨s₃, hrun₃, hexposed₃, hnow₃, hp₃, -, hothers₃⟩ := hexposed₂.broken hp₂
  obtain ⟨s₄, hrun₄, hexposed₄, hnow₄, hq₄, hcreator₄, hothers₄⟩ :=
    hexposed₃.broken ((hothers₃ q hpq.symm).trans hq₂)
  have hp₄ : s₄.phase p = .holding w.now := by rw [hothers₄ p hpq, hp₃, hnow₂]
  have hq₄ : s₄.phase q = .holding w.now := by rw [hq₄, hnow₃, hnow₂]
  obtain ⟨_, _, _, hfile₄⟩ := hexposed₄.file
  have hremove := hexposed₄.placed.removeFile_of_file hexposed₄.trouble hfile₄
  exact ⟨s₄, _, ((hrun₁.trans hrun₂).trans hrun₃).trans hrun₄, hp₄, hq₄, hcreator₄,
    .release hp₄ hremove, (phase_move_of_ne hpq.symm).trans hq₄, at?_cleared⟩

end

end Amend.FileLocks
