import Amend.Proofs.Snapshot.Member

/-!
# Putting back a set

Every member of a set has its turn, whatever becomes of the others.  No turn touches the copy or the
file of another member, so what becomes of a member depends on nothing but the member itself: it
has the bytes of its copy in the end, or it was left alone, or there was an obstacle of its own.
What was put back once is left alone from then on.
-/

namespace Amend

open Disk (Frame Plain Writable)
open World (Within)
open FileLocks (Region)

/-! ## Marks -/

namespace SnapshotIndex

/-- An index in which some snapshots may count as put back that did not before. -/
structure Marked (ids : List Uid) (i j : SnapshotIndex) : Prop where
  snapshots : j.snapshots = i.snapshots
  sets : j.sets = i.sets
  still : ∀ id, (i.restoredAt? id).isSome = true → (j.restoredAt? id).isSome = true
  others : ∀ id, id ∉ ids → j.restoredAt? id = i.restoredAt? id

variable {ids : List Uid} {i j k : SnapshotIndex} {id : Uid} {l : Location} {force : Bool}

theorem Marked.refl (ids : List Uid) (i : SnapshotIndex) : Marked ids i i :=
  ⟨rfl, rfl, fun _ h => h, fun _ _ => rfl⟩

theorem Marked.cons (h : Marked [id] i j) (h' : Marked ids j k) : Marked (id :: ids) i k where
  snapshots := h'.snapshots.trans h.snapshots
  sets := h'.sets.trans h.sets
  still := fun other hother => h'.still other (h.still other hother)
  others := by
    intro other hother
    rw [List.mem_cons, not_or] at hother
    rw [h'.others other hother.2, h.others other (by simpa using hother.1)]

theorem marked_mark (i : SnapshotIndex) (id : Uid) (t : Timestamp) :
    Marked [id] i (i.mark id t) where
  snapshots := rfl
  sets := rfl
  still := by
    intro other hother
    by_cases heq : other = id
    · rw [heq, restoredAt?_mark_self]
      rfl
    · rwa [restoredAt?_mark_of_ne i heq]
  others := fun other hother => restoredAt?_mark_of_ne i (by simpa using hother) t

theorem Marked.find? (h : Marked ids i j) (id : Uid) : j.find? id = i.find? id := by
  rw [SnapshotIndex.find?, h.snapshots, SnapshotIndex.find?]

theorem Marked.findSet? (h : Marked ids i j) (id : Uid) : j.findSet? id = i.findSet? id := by
  rw [SnapshotIndex.findSet?, h.sets, SnapshotIndex.findSet?]

theorem Marked.original_iff (h : Marked ids i j) : j.Original id l ↔ i.Original id l := by
  rw [Original, h.find?, Original]

theorem Marked.isDue_iff (h : Marked ids i j) (hid : id ∉ ids) :
    j.IsDue force id ↔ i.IsDue force id := by
  rw [IsDue, h.others id hid, IsDue]

end SnapshotIndex

/-! ## Turns -/

/-- The turn of a member of a set: the world in which it began, and how it ended. -/
structure RestoreAttempt where
  id : Uid
  before : World
  result : Except RollbackError RestoreReport

namespace SnapshotStore

variable {s : SnapshotStore} {base l : Location} {w w' v v' : World} {i j k : SnapshotIndex}
  {t : Snapshot} {id : Uid} {ids : List Uid} {force : Bool} {touched : Location → Prop}
  {r : Except RollbackError RestoreReport} {attempts : List RestoreAttempt} {a : RestoreAttempt}

/-- Turns one after the other, each in the world that the one before has left. -/
inductive Attempted (s : SnapshotStore) (force : Bool) :
    World → List RestoreAttempt → World → Prop
  | nil (w : World) : Attempted s force w [] w
  | cons {a : RestoreAttempt} {attempts : List RestoreAttempt} {next w' : World}
      (hrun : (s.rollbackId a.id force).apply a.before = (a.result, next))
      (hrest : Attempted s force next attempts w') : Attempted s force a.before (a :: attempts) w'

/-- Every member has its turn. -/
theorem rollbackAll_attempts (s : SnapshotStore) (force : Bool) (ids : List Uid) (w : World) :
    (s.rollbackAll force ids).Yields w fun results w' => ∃ attempts, attempts.map (·.id) = ids ∧
      s.Attempted force w attempts w' ∧ attempts.map (·.result) = results := by
  induction ids generalizing w with
  | nil => exact Act.yields_pure ⟨[], rfl, .nil w, rfl⟩
  | cons id ids ih =>
    rw [rollbackAll]
    refine (Act.ends_apply (s.rollbackId id force) w).outcome.bind ?_ fun e _ he => he.elim
    rintro first next hrun
    refine (ih next).bind ?_
    rintro results w' ⟨attempts, hids, hattempts, hresults⟩
    have hall : s.Attempted force w (⟨id, w, first⟩ :: attempts) w' :=
      .cons (a := ⟨id, w, first⟩) hrun hattempts
    refine Act.yields_pure ⟨_, ?_, hall, ?_⟩
    · rw [List.map_cons, hids]
    · rw [List.map_cons, hresults]

/-- The members of a set are put back once the set was found. -/
theorem ends_rollbackSet {u : SnapshotSet}
    {Q : Except RollbackError (List RestoreReport) → World → Prop}
    (hset : (s.getSet id).apply w = (.ok u, v))
    (h : ∀ attempts w', attempts.map (·.id) = u.members → s.Attempted force v attempts w' →
      ∀ r, Gathers (attempts.map (·.result)) r → Q r w') : (s.rollbackSet id force).Ends w Q := by
  rw [rollbackSet]
  refine (Act.ends_apply (s.getSet id) w).outcome.bind ?_ fun e _ he => he.elim
  rintro found _ hrun
  rw [hset] at hrun
  cases hrun
  refine (s.rollbackAll_attempts force u.members v).bind_ends ?_
  rintro _ w' ⟨attempts, hids, hattempts, rfl⟩
  refine (ends_gather (attempts.map (·.result)) w').mono ?_
  rintro r _ ⟨rfl, hr⟩
  exact h attempts _ hids hattempts r hr

/-! ## What becomes of a member -/

/-- A file that is as it was, or that is missing as before. -/
def SameFile (w w' : World) (l : Location) : Prop := ∀ content mode modified,
  w'.disk.at? l = some (.file content mode modified) ↔
    w.disk.at? l = some (.file content mode modified)

theorem sameFile_of_within (hw : Within touched w w') (hl : ¬ touched l) : SameFile w w' l := by
  intro content mode modified
  rcases hw.frame.same l hl with heq | ⟨hnone, hdirectory⟩
  · rw [heq]
  · rw [hnone, hdirectory]
    exact ⟨nofun, nofun⟩

theorem SameFile.trans (h : SameFile w v l) (h' : SameFile v w' l) : SameFile w w' l :=
  fun content mode modified => (h' content mode modified).trans (h content mode modified)

/-- What becomes of a member of a set, from the world `w` with the index `i` in which the first
member has its turn to the world `w'` with the index `j` that the last one has left. -/
inductive Fate (s : SnapshotStore) (base : Location) (force : Bool) (w : World) (i : SnapshotIndex)
    (w' : World) (j : SnapshotIndex) (a : RestoreAttempt) : Prop
  /-- It was put back before, and is left alone. -/
  | left {t : Snapshot} (hresult : a.result = .ok ⟨a.id, t.source, .alreadyRestored⟩)
      (hfound : i.find? a.id = some t) (hleft : ¬ i.IsDue force a.id)
      (hsame : ∀ l, i.Original a.id l → SameFile w w' l)
  /-- It has the bytes of its copy, and this is noted. -/
  | restored {t : Snapshot} {bytes : ByteArray}
      (hresult : a.result = .ok ⟨a.id, t.source, .restored⟩)
      (hfound : i.find? a.id = some t) (hdue : i.IsDue force a.id)
      (hcopy : w.disk.read (w.absolute t.location) = .ok bytes)
      (hchecksum : s.policy = .strict → Digest.blake3 bytes = t.checksum)
      (hread : w'.disk.read (w'.absolute t.source) = .ok bytes)
      (hmark : (j.restoredAt? a.id).isSome = true)
  /-- There was an obstacle, with the copy that was there from the start, or a lock was not free or
  the system refused something. -/
  | failed {e : RollbackError} (hresult : a.result = .error e)
      (hcause : s.Obstacle force i a.id w a.before ∨
        Disturbed base (s.rollbackId a.id force) a.before)
      (hsame : ¬ i.IsDue force a.id → ∀ l, i.Original a.id l → SameFile w w' l)

/-- What the turns of other members may touch. -/
def Others (base : Location) (i : SnapshotIndex) (id : Uid) (m : Location) : Prop :=
  Region base m ∨ m = indexLocation base ∨ ¬ base <+: m ∧ ¬ i.Original id m

theorem Others.ne_copy {name : String} (hname : IsCopyName name) :
    ¬ Others base i id (base ++ [name]) := by
  rintro (hl | hl | ⟨hout, -⟩)
  · exact not_region_concat base name hl
  · exact not_region_or_index hname.ne_index (Or.inr hl)
  · exact hout (List.prefix_append base _)

theorem Placed.not_concerns_copy (h : s.Placed base w t l) (hfound : i.find? id = some t)
    {name : String} (hname : IsCopyName name) : ¬ Concerns base i id (base ++ [name]) := by
  rintro (hm | hm | hm)
  · exact not_region_concat base name hm
  · exact not_region_or_index hname.ne_index (Or.inr hm)
  · exact h.outside (h.eq_of_original hfound hm ▸ List.prefix_append base [name])

theorem Placed.not_others (h : s.Placed base w t l) (hfound : i.find? id = some t) :
    ¬ Others base i id l := by
  rintro (hl | rfl | ⟨-, hother⟩)
  · exact h.outside hl.below
  · exact h.outside (List.prefix_append base _)
  · exact hother (h.original hfound)

theorem Turn.concerns (h : s.Turn base force id v i r v' j) : Within (Concerns base i id) v v' := by
  cases h with
  | left _ _ hw => exact within_concerns hw
  | restored _ _ _ _ _ hw => exact hw
  | failed hw _ => exact hw

theorem Turn.marked (h : s.Turn base force id v i r v' j) : SnapshotIndex.Marked [id] i j := by
  cases h with
  | left => exact .refl [id] i
  | restored => exact SnapshotIndex.marked_mark i id _
  | failed => exact .refl [id] i

theorem Placed.read_source (h : s.Placed base v t l) (hfound : i.find? id = some t)
    (hw : Within (Others base i id) v v') {bytes : ByteArray}
    (hread : v.disk.read (v.absolute t.source) = .ok bytes) :
    v'.disk.read (v'.absolute t.source) = .ok bytes := by
  refine hw.read hread (fun m hm => ?_) ?_
  · obtain rfl := h.plain_source.eq_of_locate hm
    exact h.not_others hfound
  · rw [h.plain_source.linksTo]
    exact nofun

theorem outside_of_original (hplaced : ∀ t, i.find? id = some t → ∃ l, s.Placed base v t l)
    (hl : i.Original id l) : ¬ base <+: l := by
  have ⟨t, hfound, _⟩ := hl
  obtain ⟨m, hm⟩ := hplaced t hfound
  obtain rfl := hm.eq_of_original hfound hl
  exact hm.outside

section Others

variable (hplaced : ∀ t, i.find? id = some t → ∃ l, s.Placed base v t l)
  (hw : Within (Others base i id) v v')

include hplaced hw

/-- The turns of others leave the file of a member as it is. -/
theorem sameFile_of_others (hl : i.Original id l) : SameFile v v' l := by
  have ⟨t, hfound, _⟩ := hl
  obtain ⟨m, hm⟩ := hplaced t hfound
  obtain rfl := hm.eq_of_original hfound hl
  exact sameFile_of_within hw (hm.not_others hfound)

end Others

/-- In a peaceful world a snapshot is put back that nothing stands in the way of. -/
theorem Established.rollbackId_of_peaceful (h : s.Established base v i) (hv : Peaceful base v)
    (hl : s.Placed base v t l) (hfound : i.find? t.id = some t) (hdue : i.IsDue force t.id)
    {bytes : ByteArray} (hcopy : v.disk.read (v.absolute t.location) = .ok bytes)
    (hchecksum : Digest.blake3 bytes = t.checksum) (hwritable : Disk.Writable v.disk l) :
    (s.rollbackId t.id force).Ends v fun r v' => r = .ok ⟨t.id, t.source, .restored⟩ ∧
      v'.disk.read (v'.absolute t.source) = .ok bytes ∧ Peaceful base v' ∧
      Within (Concerns base i t.id) v v' ∧
      ∃ j, s.Established base v' j ∧ SnapshotIndex.Marked [t.id] i j := by
  have hplaced : ∀ u, i.find? t.id = some u → ∃ l, s.Placed base v u l := by
    intro u hu
    rw [hfound] at hu
    cases hu
    exact ⟨l, hl⟩
  refine ((h.rollbackId hplaced).and_apply.and (h.peaceful_after hplaced hv)).mono ?_
  rintro r v' ⟨⟨⟨j, hj, hturn⟩, hrun⟩, hpeaceful⟩
  have hmarked := hturn.marked
  have hw := hturn.concerns
  cases hturn with
  | left _ hleft _ => exact absurd hdue hleft
  | restored hthere _ hbytes _ hread _ =>
    rw [hfound] at hthere
    cases hthere
    rw [hcopy] at hbytes
    cases hbytes
    exact ⟨rfl, hread, hpeaceful, hw, _, hj, hmarked⟩
  | failed _ _ =>
    rcases h.obstacle_or_disturbed hplaced hrun with hobstacle | hdisturbed
    · cases hobstacle with
      | unknown hnone =>
        rw [hfound] at hnone
        cases hnone
      | unreadable hthere _ hunread =>
        rw [hfound] at hthere
        cases hthere
        exact absurd hcopy (hunread bytes)
      | tampered hthere _ _ hbytes hother =>
        rw [hfound] at hthere
        cases hthere
        rw [hcopy] at hbytes
        cases hbytes
        exact absurd hchecksum hother
      | unwritable hthere _ hfile =>
        rw [hfound] at hthere
        cases hthere
        exact absurd ((hl.freely_writeFile bytes).mpr hwritable) (hfile bytes)
    · exact absurd hv hdisturbed.unrest

/-- What a turn has come to stays, whatever the turns of other members do. -/
theorem Turn.fate (h : s.Turn base force a.id v i a.result v' j)
    (hcause : ∀ e, a.result = .error e → s.Obstacle force i a.id v a.before ∨
      Disturbed base (s.rollbackId a.id force) a.before)
    (hplaced : ∀ t, i.find? a.id = some t → ∃ l, s.Placed base v t l)
    (hlater : Within (Others base i a.id) v' w') (hmarked : SnapshotIndex.Marked ids j k) :
    s.Fate base force v i w' k a := by
  have hregion {v v' : World} (hw : Within (Region base) v v') : Within (Others base i a.id) v v' :=
    hw.mono fun _ => Or.inl
  generalize hr : a.result = r at h
  cases h with
  | left hfound hleft hw =>
    exact .left hr hfound hleft fun l hl => sameFile_of_others hplaced ((hregion hw).trans hlater) hl
  | restored hfound hdue hcopy hchecksum hread hw =>
    obtain ⟨l, hl⟩ := hplaced _ hfound
    refine .restored hr hfound hdue hcopy hchecksum
      ((hl.within hw).read_source hfound hlater hread) (hmarked.still _ ?_)
    rw [SnapshotIndex.restoredAt?_mark_self]
    rfl
  | failed hw huntouched =>
    exact .failed hr (hcause _ hr) fun hleft l hl =>
      sameFile_of_others hplaced ((hregion (huntouched hleft)).trans hlater) hl

/-- The turns of others before make no difference to a member. -/
theorem Fate.earlier (h : s.Fate base force v k w' j a) (hw : Within (Others base i a.id) w v)
    (hmarked : SnapshotIndex.Marked ids i k) (hid : ∀ t, i.find? a.id = some t → a.id ∉ ids)
    (hplaced : ∀ t, i.find? a.id = some t → ∃ l, s.Placed base w t l)
    (hunder : s.locks.Under s.dir base w) (hunder' : s.locks.Under s.dir base v) :
    s.Fate base force w i w' j a := by
  have hsame {l : Location} (hl : i.Original a.id l) : SameFile w v l :=
    sameFile_of_others hplaced hw hl
  have hcopy {t : Snapshot} {bytes : ByteArray} (hfound : i.find? a.id = some t) :
      v.disk.read (v.absolute t.location) = .ok bytes ↔
        w.disk.read (w.absolute t.location) = .ok bytes := by
    obtain ⟨l, hl⟩ := hplaced t hfound
    exact hl.read_copy hunder hunder' hw fun _ hname => Others.ne_copy hname
  have hdue {t : Snapshot} (hfound : i.find? a.id = some t) :
      k.IsDue force a.id ↔ i.IsDue force a.id := hmarked.isDue_iff (hid t hfound)
  cases h with
  | left hresult hfound hleft hlater =>
    rw [hmarked.find?] at hfound
    refine .left hresult hfound (fun h => hleft ((hdue hfound).mpr h)) fun l hl => ?_
    exact (hsame hl).trans (hlater l (hmarked.original_iff.mpr hl))
  | restored hresult hfound hthen hread hchecksum hput hmark =>
    rw [hmarked.find?] at hfound
    exact .restored hresult hfound ((hdue hfound).mp hthen) ((hcopy hfound).mp hread) hchecksum
      hput hmark
  | failed hresult hcause hlater =>
    refine .failed hresult (hcause.imp_left fun hobstacle => ?_) fun hleft l hl => ?_
    · refine hobstacle.congr (hmarked.find? a.id).symm ?_ ?_ fun _ _ _ hok => hok
      · intro t hfound
        rw [hmarked.find?] at hfound
        exact (hdue hfound).mp
      · intro t bytes hfound
        rw [hmarked.find?] at hfound
        exact (hcopy hfound).symm
    · have ⟨t, hfound, _⟩ := hl
      exact (hsame hl).trans (hlater (fun h => hleft ((hdue hfound).mp h)) l
        (hmarked.original_iff.mpr hl))

/-! ## All members -/

/-- What the turns of some members come to, from the world `w` with the index `i` to the world `w'`
with the index `j`. -/
structure Concluded (s : SnapshotStore) (base : Location) (force : Bool) (w : World)
    (i : SnapshotIndex) (attempts : List RestoreAttempt) (w' : World) (j : SnapshotIndex) :
    Prop where
  established : s.Established base w' j
  marked : SnapshotIndex.Marked (attempts.map (·.id)) i j
  within : Within (fun m => Region base m ∨ m = indexLocation base ∨
    ∃ a ∈ attempts, i.Original a.id m) w w'
  fates : ∀ a ∈ attempts, s.Fate base force w i w' j a
  peaceful : Peaceful base w → Peaceful base w' ∧ ∀ a ∈ attempts, Peaceful base a.before

/-- Members of different places do not come in each other's way. -/
theorem Attempted.concluded (h : s.Attempted force w attempts w') (hw : s.Established base w i)
    (hplaced : ∀ a ∈ attempts, ∀ t, i.find? a.id = some t → ∃ l, s.Placed base w t l)
    (hapart : attempts.Pairwise fun a b => ∀ l, i.Original a.id l → ¬ i.Original b.id l) :
    ∃ j, s.Concluded base force w i attempts w' j := by
  induction h generalizing i with
  | nil w =>
    exact ⟨i, hw, .refl [] i, .refl w, fun _ ha => absurd ha List.not_mem_nil,
      fun hpeaceful => ⟨hpeaceful, fun _ ha => absurd ha List.not_mem_nil⟩⟩
  | @cons a attempts next w' hrun hrest ih =>
    obtain ⟨hfirst, hothers⟩ := List.pairwise_cons.mp hapart
    obtain ⟨ha, hrests⟩ := List.forall_mem_cons.mp hplaced
    obtain ⟨k, hk, hturn⟩ := (hw.rollbackId ha).of_apply hrun
    have hmarked := hturn.marked
    have hstep := hturn.concerns
    have hplaced' : ∀ b ∈ attempts, ∀ t, k.find? b.id = some t →
        ∃ l, s.Placed base next t l := by
      intro b hb t hfound
      rw [hmarked.find?] at hfound
      obtain ⟨l, hl⟩ := hrests b hb t hfound
      exact ⟨l, hl.within hstep⟩
    have hapart' : attempts.Pairwise fun a b =>
        ∀ l, k.Original a.id l → ¬ k.Original b.id l := by
      simpa only [hmarked.original_iff] using hothers
    obtain ⟨j, hj⟩ := ih hk hplaced' hapart'
    have hlater := hj.within
    simp only [hmarked.original_iff] at hlater
    refine ⟨j, hj.established, hmarked.cons hj.marked, ?_, List.forall_mem_cons.mpr ⟨?_, ?_⟩, ?_⟩
    · refine (hstep.mono ?_).trans (hlater.mono ?_)
      · exact fun m hm => hm.imp_right fun hm => hm.imp_right fun hm => ⟨a, List.mem_cons_self, hm⟩
      · exact fun m hm => hm.imp_right fun hm => hm.imp_right fun ⟨b, hb, hm⟩ =>
          ⟨b, List.mem_cons_of_mem a hb, hm⟩
    · refine hturn.fate (fun e he => hw.obstacle_or_disturbed ha (he ▸ hrun)) ha (hlater.mono ?_)
        hj.marked
      rintro m (hm | hm | ⟨b, hb, hm⟩)
      · exact Or.inl hm
      · exact Or.inr (Or.inl hm)
      · exact Or.inr (Or.inr ⟨outside_of_original (hrests b hb) hm,
          fun hma => hfirst b hb m hma hm⟩)
    · intro b hb
      refine (hj.fates b hb).earlier (hstep.mono ?_) hmarked ?_ (hrests b hb) hw.under hk.under
      · rintro m (hm | hm | hm)
        · exact Or.inl hm
        · exact Or.inr (Or.inl hm)
        · exact Or.inr (Or.inr ⟨outside_of_original ha hm, hfirst b hb m hm⟩)
      · intro t hfound hmem
        obtain ⟨l, hl⟩ := hrests b hb t hfound
        rw [List.mem_singleton] at hmem
        exact hfirst b hb l (hmem ▸ hl.original hfound) (hl.original hfound)
    · intro hpeaceful
      have hnext := (hw.peaceful_after ha hpeaceful).of_apply hrun
      obtain ⟨hw', hbefore⟩ := hj.peaceful hnext
      exact ⟨hw', List.forall_mem_cons.mpr ⟨hpeaceful, hbefore⟩⟩

/-- What holds where the set was found holds where it was asked for. -/
theorem Concluded.earlier (h : s.Concluded base force v i attempts w' j)
    (hv : Within (Region base) w v) (hw : s.Established base w i)
    (hplaced : ∀ a ∈ attempts, ∀ t, i.find? a.id = some t → ∃ l, s.Placed base w t l)
    (hpeaceful : Peaceful base w → Peaceful base v) :
    s.Concluded base force w i attempts w' j where
  established := h.established
  marked := h.marked
  within := (hv.mono fun _ => Or.inl).trans h.within
  fates := fun a ha => (h.fates a ha).earlier (hv.mono fun _ => Or.inl) (.refl [] i)
    (fun _ _ => List.not_mem_nil) (hplaced a ha) hw.under (hw.under.within hv fun _ hl => hl.below)
  peaceful := fun hw => h.peaceful (hpeaceful hw)

theorem Indexed.getSet (h : s.Indexed base w i) (id : Uid) : (s.getSet id).Ends w fun r w' =>
    Within (Region base) w w' ∧ ∀ u, r = .ok u → i.findSet? id = some u := by
  rw [SnapshotStore.getSet]
  refine h.ask (fun w₁ h₁ => ?_) fun e w₁ h₁ => ⟨h₁, ?_⟩
  · cases hfind : i.findSet? id with
    | none =>
      refine Act.ends_throw ⟨h₁, ?_⟩
      rintro _ ⟨⟩
    | some u =>
      refine Act.ends_pure ⟨h₁, ?_⟩
      rintro _ ⟨⟩
      rfl
  · rintro _ ⟨⟩

theorem Calm.getSet {start : World} {n : Nat} (h : s.Calm base start [] n i w) {u : SnapshotSet}
    (hset : i.findSet? id = some u) : (s.getSet id).Yields w fun x w' => x = u ∧
      s.Calm base start [] n i w' ∧ OnlyLocks base w w' := by
  rw [SnapshotStore.getSet]
  refine (h.askIndex (isNewKey_nil _)).bind ?_
  rintro j w₁ ⟨hj, hw₁⟩
  rw [hj, hset]
  exact Act.yields_pure ⟨rfl, hw₁⟩

/-! ## The second time -/

end SnapshotStore

/-- The report of a snapshot that was put back before. -/
def RestoreReport.again (x : RestoreReport) : RestoreReport :=
  { x with status := .alreadyRestored }

/-- A snapshot in the index that counts as put back. -/
structure SnapshotIndex.IsPutBack (i : SnapshotIndex) (x : RestoreReport) : Prop where
  found : ∃ t, i.find? x.id = some t ∧ t.source = x.path
  marked : (i.restoredAt? x.id).isSome = true

namespace SnapshotStore

variable {s : SnapshotStore} {base : Location} {w w' : World} {i j : SnapshotIndex} {id : Uid}
  {ids : List Uid} {force : Bool} {attempts : List RestoreAttempt} {a : RestoreAttempt}
  {t : Snapshot} {x : RestoreReport} {reports : List RestoreReport}

/-- A member that did not fail counts as put back. -/
theorem Fate.isPutBack (h : s.Fate base force w i w' j a) (hmarked : SnapshotIndex.Marked ids i j)
    (hok : a.result = .ok x) : x.id = a.id ∧ j.IsPutBack x := by
  cases h with
  | left hresult hfound hleft hsame =>
    rw [hok] at hresult
    cases hresult
    exact ⟨rfl, ⟨_, (hmarked.find? _).trans hfound, rfl⟩,
      hmarked.still _ (SnapshotIndex.isSome_of_not_isDue hleft)⟩
  | restored hresult hfound hdue hcopy hchecksum hread hmark =>
    rw [hok] at hresult
    cases hresult
    exact ⟨rfl, ⟨_, (hmarked.find? _).trans hfound, rfl⟩, hmark⟩
  | failed hresult hcause hsame =>
    rw [hok] at hresult
    cases hresult

/-- A member that has not failed and was not left alone has the bytes of its copy. -/
theorem Fate.read_eq (h : s.Fate base force w i w' j a) (hok : a.result = .ok x)
    (hfound : i.find? a.id = some t) (hdue : i.IsDue force a.id) {bytes : ByteArray}
    (hcopy : w.disk.read (w.absolute t.location) = .ok bytes) :
    w'.disk.read (w'.absolute t.source) = .ok bytes := by
  cases h with
  | left _ _ hleft _ => exact absurd hdue hleft
  | restored _ hthere _ hbytes _ hread _ =>
    rw [hfound] at hthere
    cases hthere
    rw [hcopy] at hbytes
    cases hbytes
    exact hread
  | failed hresult _ _ =>
    rw [hok] at hresult
    cases hresult

/-- If no member failed, all of them count as put back. -/
theorem isPutBack_of_results (hfates : ∀ a ∈ attempts, s.Fate base force w i w' j a)
    (hmarked : SnapshotIndex.Marked ids i j)
    (hall : attempts.map (·.result) = reports.map .ok) :
    reports.map (·.id) = attempts.map (·.id) ∧ ∀ x ∈ reports, j.IsPutBack x := by
  induction attempts generalizing reports with
  | nil =>
    obtain rfl := List.map_eq_nil_iff.mp hall.symm
    exact ⟨rfl, fun _ hx => absurd hx List.not_mem_nil⟩
  | cons a attempts ih =>
    obtain ⟨ha, hrest⟩ := List.forall_mem_cons.mp hfates
    cases reports with
    | nil => cases hall
    | cons x reports =>
      rw [List.map_cons, List.map_cons, List.cons.injEq] at hall
      obtain ⟨hid, hx⟩ := ha.isPutBack hmarked hall.1
      obtain ⟨hids, hxs⟩ := ih hrest hall.2
      refine ⟨?_, List.forall_mem_cons.mpr ⟨hx, hxs⟩⟩
      rw [List.map_cons, List.map_cons, hid, hids]

theorem Indexed.rollbackId_again (h : s.Indexed base w i) (hx : i.IsPutBack x) :
    (s.rollbackId x.id false).Ends w fun r w' => Within (Region base) w w' ∧
      (r = .ok x.again ∨ ∃ e, r = .error e) := by
  obtain ⟨t, hfound, hsource⟩ := hx.found
  rw [SnapshotStore.rollbackId]
  refine (h.get x.id).outcome.bind (fun found w₁ hget => ?_) fun e _ he => he.elim
  obtain ⟨hw₁, hthere⟩ := hget
  cases found with
  | error e => cases e <;> exact Act.ends_throw ⟨hw₁, Or.inr ⟨_, rfl⟩⟩
  | ok u =>
    have hu := hthere u rfl
    rw [hfound] at hu
    cases hu
    have hid := (SnapshotIndex.mem_of_find? hfound).2
    dsimp only
    rw [SnapshotStore.rollbackSnapshot]
    refine ((h.region hw₁).restoredAt t.id).mapError.bind ?_ ?_
    · rintro before w₂ ⟨hw₂, hbefore⟩
      rw [hbefore before rfl, hid, hx.marked]
      refine Act.ends_pure ⟨hw₁.trans hw₂, Or.inl ?_⟩
      rw [hsource]
      rfl
    · rintro e w₂ ⟨_, -, hw₂, -⟩
      exact ⟨hw₁.trans hw₂, Or.inr ⟨_, rfl⟩⟩

theorem Calm.rollbackId_again {start : World} {n : Nat} (h : s.Calm base start [] n i w)
    (hx : i.IsPutBack x) : (s.rollbackId x.id false).Yields w fun y w' => y = x.again ∧
      s.Calm base start [] n i w' := by
  obtain ⟨t, hfound, hsource⟩ := hx.found
  have hid := (SnapshotIndex.mem_of_find? hfound).2
  rw [SnapshotStore.rollbackId]
  refine (h.get x.id).outcome.bind (fun found w₁ hget => ?_) fun e _ he => he.elim
  obtain ⟨hcalm₁, -, hthere, hmissing⟩ := hget
  cases found with
  | error e =>
    rw [hmissing e rfl] at hfound
    cases hfound
  | ok u =>
    have hu := hthere u rfl
    rw [hfound] at hu
    cases hu
    dsimp only
    rw [SnapshotStore.rollbackSnapshot]
    refine (hcalm₁.restoredAt t.id).mapError.bind_ends ?_
    rintro _ w₂ ⟨rfl, hcalm₂, -⟩
    rw [hid, hx.marked]
    refine Act.yields_pure ⟨?_, hcalm₂⟩
    rw [hsource]
    rfl

/-- Members that count as put back are left alone one after the other, as far as nothing fails. -/
theorem Indexed.rollbackAll_again (h : s.Indexed base w i) (hback : ∀ x ∈ reports, i.IsPutBack x) :
    (s.rollbackAll false (reports.map (·.id))).Yields w fun results w' =>
      Within (Region base) w w' ∧
        List.Forall₂ (fun x r => r = .ok x.again ∨ ∃ e, r = .error e) reports results := by
  induction reports generalizing w with
  | nil => exact Act.yields_pure ⟨.refl w, .nil⟩
  | cons x reports ih =>
    obtain ⟨hx, hrest⟩ := List.forall_mem_cons.mp hback
    rw [List.map_cons, rollbackAll]
    refine (h.rollbackId_again hx).outcome.bind ?_ fun e _ he => he.elim
    rintro first w₁ ⟨hw₁, hfirst⟩
    refine (ih (h.region hw₁) hrest).bind ?_
    rintro results w₂ ⟨hw₂, hresults⟩
    exact Act.yields_pure ⟨hw₁.trans hw₂, .cons hfirst hresults⟩

theorem Calm.rollbackAll_again {start : World} {n : Nat} (h : s.Calm base start [] n i w)
    (hback : ∀ x ∈ reports, i.IsPutBack x) :
    (s.rollbackAll false (reports.map (·.id))).Yields w fun results _ =>
      results = (reports.map (·.again)).map .ok := by
  induction reports generalizing w with
  | nil => exact Act.yields_pure rfl
  | cons x reports ih =>
    obtain ⟨hx, hrest⟩ := List.forall_mem_cons.mp hback
    rw [List.map_cons, rollbackAll]
    refine (h.rollbackId_again hx).outcome.bind ?_
    rintro _ w₁ ⟨_, rfl, rfl, hcalm⟩
    refine (ih hcalm hrest).bind ?_
    rintro _ w₂ rfl
    exact Act.yields_pure rfl

theorem eq_again_of_gathers {results : List (Except RollbackError RestoreReport)}
    {ys : List RestoreReport} (h : Gathers results (.ok ys))
    (hall : List.Forall₂ (fun x r => r = .ok x.again ∨ ∃ e, r = .error e) reports results) :
    ys = reports.map (·.again) := by
  cases h with
  | all ys =>
    rw [List.forall₂_map_right_iff] at hall
    have heq : List.Forall₂ (· = ·) (reports.map (·.again)) ys := by
      refine List.forall₂_map_left_iff.mpr (hall.imp fun x y hy => ?_)
      rcases hy with hy | ⟨e, he⟩
      · exact (Except.ok.inj hy).symm
      · cases he
    rw [List.forall₂_eq_eq_eq] at heq
    exact heq.symm

theorem Calm.rollbackSet_again {start : World} {n : Nat} (h : s.Calm base start [] n i w)
    {u : SnapshotSet} (hset : i.findSet? id = some u) (hmembers : u.members = reports.map (·.id))
    (hback : ∀ x ∈ reports, i.IsPutBack x) :
    (s.rollbackSet id false).Yields w fun _ _ => True := by
  rw [rollbackSet]
  refine (h.getSet hset).outcome.bind ?_
  rintro _ w₁ ⟨_, rfl, rfl, hcalm, -⟩
  dsimp only
  rw [hmembers]
  refine (hcalm.rollbackAll_again hback).bind ?_
  rintro _ w₂ rfl
  refine (ends_gather _ w₂).mono ?_
  rintro r _ ⟨rfl, hr⟩
  exact ⟨_, hr.eq_ok, trivial⟩

/-- A set of which all members count as put back is left alone, and its members are reported as put
back before, unless a lock is not free or the system refuses something. -/
theorem Established.rollbackSet_again (h : s.Established base w i) {u : SnapshotSet}
    (hset : i.findSet? id = some u) (hmembers : u.members = reports.map (·.id))
    (hback : ∀ x ∈ reports, i.IsPutBack x) :
    (s.rollbackSet id false).Ends w fun r w' => Within (Region base) w w' ∧
      (r = .ok (reports.map (·.again)) ∨
        (∃ e, r = .error e) ∧ Disturbed base (s.rollbackSet id false) w) := by
  have hfreely (hfree : LocksFree base w) : ∃ x, (s.rollbackSet id false).freely w = .ok x := by
    obtain ⟨x, hx, -⟩ := Act.ends_iff.mp ((h.calm hfree).rollbackSet_again hset hmembers hback)
    exact ⟨x, hx⟩
  have hrun : (s.rollbackSet id false).Ends w fun r w' => Within (Region base) w w' ∧
      ∀ ys, r = .ok ys → ys = reports.map (·.again) := by
    rw [rollbackSet]
    refine (h.toIndexed.getSet id).outcome.bind (fun found v hget => ?_) fun e _ he => he.elim
    obtain ⟨hv, hfound⟩ := hget
    cases found with
    | error e => cases e <;> exact Act.ends_throw ⟨hv, nofun⟩
    | ok x =>
      have hx := hfound x rfl
      rw [hset] at hx
      cases hx
      dsimp only
      rw [hmembers]
      refine ((h.toIndexed.region hv).rollbackAll_again hback).bind_ends ?_
      rintro results w₁ ⟨hw₁, hall⟩
      refine (ends_gather results w₁).mono ?_
      rintro r _ ⟨rfl, hr⟩
      refine ⟨hv.trans hw₁, ?_⟩
      rintro ys rfl
      exact eq_again_of_gathers hr hall
  refine hrun.and_apply.mono ?_
  rintro (e | ys) w' ⟨⟨hw', hys⟩, happly⟩
  · exact ⟨hw', Or.inr ⟨⟨e, rfl⟩, disturbed_of_error happly hfreely⟩⟩
  · exact ⟨hw', Or.inl (congrArg Except.ok (hys ys rfl))⟩

/-! ## Putting back twice -/

/-- Every member of a set has its turn, and what becomes of it does not depend on the others: a
member that is left alone keeps its file as it is, any other has the bytes of its copy in the end
and is marked, unless there is an obstacle of its own or it was disturbed.  The outcome is a report
for each member, or the first failure.  If no member failed, putting the set back once more touches
no more than lock files and reports that all was done before. -/
theorem members_fare_alone (h : s.Established base w i) {u : SnapshotSet} {v : World}
    (hset : (s.getSet id).apply w = (.ok u, v))
    (hplaced : ∀ m ∈ u.members, ∀ t, i.find? m = some t → ∃ l, s.Placed base w t l)
    (hapart : u.members.Pairwise fun a b => ∀ l, i.Original a l → ¬ i.Original b l) :
    (s.rollbackSet id force).Ends w fun r w' => ∃ attempts j,
      attempts.map (·.id) = u.members ∧ s.Attempted force v attempts w' ∧
        Gathers (attempts.map (·.result)) r ∧ s.Concluded base force w i attempts w' j ∧
        ∀ reports, r = .ok reports → (s.rollbackSet id false).Ends w' fun r' w'' =>
          Within (Region base) w' w'' ∧ (r' = .ok (reports.map (·.again)) ∨
            (∃ e, r' = .error e) ∧ Disturbed base (s.rollbackSet id false) w') := by
  obtain ⟨hv, hfound⟩ := (h.toIndexed.getSet id).of_apply hset
  have hu := hfound u rfl
  have hestablished : s.Established base v i := h.indexed hv (h.toIndexed.region hv) h.nonempty
  have hpeaceful (hw : Peaceful base w) : Peaceful base v := by
    obtain ⟨_, -, -, hcalm, -⟩ := ((h.calm_of_peaceful hw).getSet hu).of_apply hset
    exact hcalm.peaceful
  refine ends_rollbackSet hset fun attempts w' hids hattempts r hr => ?_
  rw [← hids, List.forall_mem_map] at hplaced
  rw [← hids, List.pairwise_map] at hapart
  have hplaced' : ∀ a ∈ attempts, ∀ t, i.find? a.id = some t → ∃ l, s.Placed base v t l := by
    intro a ha t hfound
    obtain ⟨l, hl⟩ := hplaced a ha t hfound
    exact ⟨l, hl.within hv⟩
  obtain ⟨j, hj⟩ := hattempts.concluded hestablished hplaced' hapart
  refine ⟨attempts, j, hids, hattempts, hr, hj.earlier hv h hplaced hpeaceful, ?_⟩
  rintro reports rfl
  obtain ⟨hreports, hback⟩ := isPutBack_of_results hj.fates hj.marked hr.eq_map
  exact hj.established.rollbackSet_again ((hj.marked.findSet? id).trans hu)
    (hids.symm.trans hreports.symm) hback

/-! ## A set of two snapshots -/

/-- A snapshot of a place whose copy has certain bytes. -/
def sampleSnapshot (n : Nat) (l : Location) (copy content : String) : Snapshot where
  id := .ofNat n
  source := l.path
  location := selfStore.dir ++ copy
  checksum := Digest.blake3 content.toUTF8
  createdAt := stoppedTime
  size := 1
  sequence := n

/-- A set with two members. -/
def pairSet : SnapshotSet := ⟨.ofNat 2, stoppedTime, [.ofNat 0, .ofNat 1]⟩

/-- The index of a store with that set, by which the second member is of a certain place. -/
def pairIndex (l : Location) : SnapshotIndex where
  nextSequence := 2
  snapshots := [sampleSnapshot 0 ["A"] "c" "a", sampleSnapshot 1 l "d" "b"]
  sets := [pairSet]

/-- The world of that store, with two files beside it. -/
def pairWorld (l : Location) : World where
  disk := ⟨[(["s"], .directory), (["s", "locks"], .directory),
    (["s", "index.json"], .file (pairIndex l).encode 0o600 0),
    (["s", "c"], .file "a".toUTF8 0o600 0), (["s", "d"], .file "b".toUTF8 0o600 0),
    (["A"], .file "x".toUTF8 0o644 0), (["B"], .file "x".toUTF8 0o644 0)]⟩
  directory := ⟨"/"⟩
  clock := fun _ => stoppedTime
  ids := fun n => .ofNat (n + 3)

/-- What is reported of the two members. -/
def pairReports (l : Location) (status : RestoreStatus) : List RestoreReport :=
  [⟨.ofNat 0, Location.path ["A"], status⟩, ⟨.ofNat 1, l.path, status⟩]

section Pair

variable {l m : Location} {w : World}

theorem noLinks_pairWorld (m : Location) (target : Path) :
    (pairWorld l).disk.at? m ≠ some (.link target) := by
  refine Disk.noLinks_of_entries (fun e he target => ?_) m target
  simp only [pairWorld, List.mem_cons, List.not_mem_nil, or_false] at he
  rcases he with rfl | rfl | rfl | rfl | rfl | rfl | rfl <;> exact nofun

theorem absolute_pairWorld : (pairWorld l).absolute selfStore.dir = ⟨"/s"⟩ := rfl

theorem isValid_pairIndex : (pairIndex l).IsValid where
  nextSequence := (by decide : 2 < MachineWord.card)
  snapshots := by
    intro t ht
    have hsize : 1 < MachineWord.card := by decide
    simp only [pairIndex, List.mem_cons, List.not_mem_nil, or_false] at ht
    rcases ht with rfl | rfl
    · exact ⟨isReading_stoppedTime, hsize, (by decide : 0 < MachineWord.card)⟩
    · exact ⟨isReading_stoppedTime, hsize, hsize⟩
  sets := by
    intro u hu
    rw [List.mem_singleton.mp hu]
    exact isReading_stoppedTime
  restored := .nil
  readings := fun _ ht => absurd ht List.not_mem_nil

theorem established_pairWorld : selfStore.Established ["s"] (pairWorld l) (pairIndex l) where
  under := by
    refine ⟨?_, rfl⟩
    rw [absolute_pairWorld]
    exact ⟨rfl, rfl, rfl, fun m _ => noLinks_pairWorld m⟩
  clock := fun _ => isReading_stoppedTime
  isAt := Or.inl ⟨_, 0o600, 0, rfl, SnapshotIndex.decode?_encode isValid_pairIndex⟩
  valid := isValid_pairIndex
  tidy := ⟨by decide, by decide, by decide⟩
  plain := by
    rw [absolute_pairWorld]
    exact ⟨by decide, fun m _ _ => noLinks_pairWorld m⟩
  locksDir := rfl
  nonempty := fun hempty => List.cons_ne_nil _ _ (congrArg SnapshotIndex.sets hempty)

theorem peaceful_pairWorld : Peaceful ["s"] (pairWorld l) where
  locks := ⟨rfl, fun file => by simp [Disk.at?, pairWorld, List.lookup_cons]⟩
  trouble := rfl

/-- The places of the two files. -/
def PairPlace (l : Location) : Prop := l = ["A"] ∨ l = ["B"]

theorem PairPlace.writable {d : Disk} (hm : PairPlace m) (hdirectory : d.at? m ≠ some .directory) :
    Writable d m := by
  rcases hm with rfl | rfl <;> exact ⟨by decide, Disk.way_root d, hdirectory⟩

theorem PairPlace.at?_pairWorld (hm : PairPlace m) :
    (pairWorld l).disk.at? m = some (.file "x".toUTF8 0o644 0) := by
  rcases hm with rfl | rfl <;> rfl

theorem PairPlace.writable_of_same {d : Disk} (hm : PairPlace m)
    (hsame : d.at? m = (pairWorld l).disk.at? m) : Writable d m := by
  refine hm.writable ?_
  rw [hsame, hm.at?_pairWorld]
  exact nofun

theorem isCopyName_c : IsCopyName "c" := ⟨⟨by decide, by decide, by decide, by decide⟩, by decide⟩

theorem isCopyName_d : IsCopyName "d" := ⟨⟨by decide, by decide, by decide, by decide⟩, by decide⟩

theorem placed_pairWorld (hm : PairPlace m) {copy : String} (hcopy : IsCopyName copy) (n : Nat)
    (content : String) :
    selfStore.Placed ["s"] (pairWorld l) (sampleSnapshot n m copy content) m where
  copy := ⟨copy, hcopy, rfl⟩
  source := rfl
  plain := by
    refine ⟨?_, fun k _ _ => noLinks_pairWorld k⟩
    rcases hm with rfl | rfl <;> decide
  outside := by
    rcases hm with rfl | rfl <;> decide

theorem placed_first :
    selfStore.Placed ["s"] (pairWorld l) (sampleSnapshot 0 ["A"] "c" "a") ["A"] :=
  placed_pairWorld (Or.inl rfl) isCopyName_c 0 "a"

theorem placed_second (hl : PairPlace l) :
    selfStore.Placed ["s"] (pairWorld l) (sampleSnapshot 1 l "d" "b") l :=
  placed_pairWorld hl isCopyName_d 1 "b"

theorem read_first : (pairWorld l).disk.read
    ((pairWorld l).absolute (selfStore.dir ++ "c")) = .ok "a".toUTF8 := by
  rw [World.absolute, Path.join_of_absolute _ rfl]
  rfl

theorem read_second : (pairWorld l).disk.read
    ((pairWorld l).absolute (selfStore.dir ++ "d")) = .ok "b".toUTF8 := by
  rw [World.absolute, Path.join_of_absolute _ rfl]
  rfl

theorem getSet_pairWorld : ∃ w,
    (selfStore.getSet pairSet.id).apply (pairWorld l) = (.ok pairSet, w) ∧
    Peaceful ["s"] w ∧ OnlyLocks ["s"] (pairWorld l) w := by
  have hset : (pairIndex l).findSet? pairSet.id = some pairSet := rfl
  have hcalm := established_pairWorld.calm_of_peaceful (peaceful_pairWorld (l := l))
  rcases hrun : (selfStore.getSet pairSet.id).apply (pairWorld l) with ⟨r, w⟩
  obtain ⟨_, rfl, rfl, hw, hlocks⟩ := (hcalm.getSet hset).of_apply hrun
  exact ⟨w, rfl, hw.peaceful, hlocks⟩

/-- The first member has its turn. -/
theorem rollbackId_first (h : selfStore.Established ["s"] w (pairIndex l)) (hw : Peaceful ["s"] w)
    (hlocks : OnlyLocks ["s"] (pairWorld l) w) :
    (selfStore.rollbackId (.ofNat 0) false).Ends w fun r w' =>
      r = .ok ⟨.ofNat 0, Location.path ["A"], .restored⟩ ∧
        w'.disk.read (w'.absolute (Location.path ["A"])) = .ok "a".toUTF8 ∧ Peaceful ["s"] w' ∧
        Within (Concerns ["s"] (pairIndex l) (.ofNat 0)) w w' ∧
        ∃ j, selfStore.Established ["s"] w' j ∧
          SnapshotIndex.Marked [.ofNat 0] (pairIndex l) j := by
  have hcopy := (placed_first.read_copy established_pairWorld.under h.under hlocks.within
    fun name _ => not_region_concat ["s"] name).mpr (read_first (l := l))
  have hwritable : Writable w.disk ["A"] :=
    PairPlace.writable_of_same (Or.inl rfl) (hlocks.outside ["A"] (placed_first (l := l)).outside)
  exact h.rollbackId_of_peaceful hw (placed_first.within hlocks.within) rfl (Or.inl rfl) hcopy rfl
    hwritable

/-- The second member has its turn after the first, wherever its file is. -/
theorem rollbackId_second (hl : PairPlace l) {j : SnapshotIndex}
    (h : selfStore.Established ["s"] w j) (hpeaceful : Peaceful ["s"] w)
    (hw : Within (Concerns ["s"] (pairIndex l) (.ofNat 0)) (pairWorld l) w)
    (hmarked : SnapshotIndex.Marked [.ofNat 0] (pairIndex l) j)
    (hdirectory : w.disk.at? l ≠ some .directory) :
    (selfStore.rollbackId (.ofNat 1) false).Ends w fun r w' =>
      r = .ok ⟨.ofNat 1, l.path, .restored⟩ ∧
        w'.disk.read (w'.absolute l.path) = .ok "b".toUTF8 := by
  have hcopy := ((placed_second hl).read_copy established_pairWorld.under h.under hw
    fun _ hname => (placed_first (l := l)).not_concerns_copy rfl hname).mpr read_second
  have hdue : (pairIndex l).IsDue false (.ofNat 1) := Or.inl rfl
  have hother : Uid.ofNat 1 ∉ [Uid.ofNat 0] := by decide
  refine (h.rollbackId_of_peaceful hpeaceful ((placed_second hl).within hw) ?_ ?_ hcopy rfl
    (hl.writable hdirectory)).mono fun r w' hw' => ⟨hw'.1, hw'.2.1⟩
  · rw [hmarked.find?]
    rfl
  · exact (hmarked.isDue_iff hother).mpr hdue

/-- When the first member was put back, the place of the second is still a file. -/
theorem not_directory_of_first (hl : PairPlace l)
    (hw : Within (Concerns ["s"] (pairIndex l) (.ofNat 0)) (pairWorld l) w) {content : ByteArray}
    (hread : w.disk.read (w.absolute (Location.path ["A"])) = .ok content) :
    w.disk.at? l ≠ some .directory := by
  rcases hl with rfl | rfl
  · obtain ⟨m, mode, modified, hm, hat⟩ := Disk.read_eq_ok_iff.mp hread
    obtain rfl := (placed_first.within hw).plain_source.eq_of_locate hm
    rw [hat]
    exact nofun
  · have hother : ¬ Concerns ["s"] (pairIndex ["B"]) (.ofNat 0) ["B"] := by
      rintro (hm | hm | hm)
      · exact absurd hm.below (by decide)
      · exact absurd hm (by decide)
      · exact absurd ((placed_first (l := ["B"])).eq_of_original rfl hm) (by decide)
    rw [hw.frame.eq_of_some hother (PairPlace.at?_pairWorld (Or.inr rfl))]
    exact nofun

/-- Both members of the set are put back, the second one last. -/
theorem rollbackSet_pairWorld (hl : PairPlace l) :
    (selfStore.rollbackSet pairSet.id false).Ends (pairWorld l) fun r w' =>
      r = .ok (pairReports l .restored) ∧
        w'.disk.read (w'.absolute l.path) = .ok "b".toUTF8 := by
  obtain ⟨w, hset, hpeaceful, hlocks⟩ := getSet_pairWorld (l := l)
  have hw : selfStore.Established ["s"] w (pairIndex l) := established_pairWorld.indexed hlocks.within
    (established_pairWorld.toIndexed.region hlocks.within) established_pairWorld.nonempty
  refine ends_rollbackSet hset fun attempts w' hids hattempts r hr => ?_
  simp only [pairSet, List.map_eq_cons_iff, List.map_eq_nil_iff] at hids
  obtain ⟨a, _, rfl, ha, b, _, rfl, hb, rfl⟩ := hids
  obtain _ | ⟨hfirst, _ | ⟨hsecond, _ | _⟩⟩ := hattempts
  rw [ha] at hfirst
  rw [hb] at hsecond
  obtain ⟨hx, hread, hpeaceful', hconcerns, j, hj, hmarked⟩ :=
    (rollbackId_first hw hpeaceful hlocks).of_apply hfirst
  have hwithin := (within_concerns hlocks.within).trans hconcerns
  obtain ⟨hy, hread'⟩ := (rollbackId_second hl hj hpeaceful' hwithin hmarked
    (not_directory_of_first hl hwithin hread)).of_apply hsecond
  have hresults : [a, b].map (·.result) = (pairReports l .restored).map .ok := by
    rw [List.map_cons, List.map_cons, hx, hy]
    rfl
  rw [hresults] at hr
  exact ⟨hr.eq_ok, hread'⟩

end Pair

theorem placed_members {l : Location} (hl : PairPlace l) : ∀ m ∈ pairSet.members, ∀ t,
    (pairIndex l).find? m = some t → ∃ l', selfStore.Placed ["s"] (pairWorld l) t l' := by
  intro m hm t hfound
  simp only [pairSet, List.mem_cons, List.not_mem_nil, or_false] at hm
  rcases hm with rfl | rfl
  · cases hfound
    exact ⟨_, placed_first⟩
  · cases hfound
    exact ⟨_, placed_second hl⟩

theorem apart_members : pairSet.members.Pairwise fun a b =>
    ∀ l, (pairIndex ["B"]).Original a l → ¬ (pairIndex ["B"]).Original b l := by
  refine List.pairwise_pair.mpr fun l ha hb => ?_
  obtain rfl := placed_first.eq_of_original (w := pairWorld ["B"]) rfl ha
  have heq := (placed_second (Or.inr rfl)).eq_of_original rfl hb
  exact absurd heq (by decide)

/-- Two members of different places are both put back, and are left alone from then on. -/
theorem pair_of_two_places : selfStore.Established ["s"] (pairWorld ["B"]) (pairIndex ["B"]) ∧
    (∃ v, (selfStore.getSet pairSet.id).apply (pairWorld ["B"]) = (.ok pairSet, v)) ∧
    (selfStore.rollbackSet pairSet.id false).Ends (pairWorld ["B"]) fun r w' =>
      r = .ok (pairReports ["B"] .restored) ∧
      w'.disk.read (w'.absolute (Location.path ["A"])) = .ok "a".toUTF8 ∧
      w'.disk.read (w'.absolute (Location.path ["B"])) = .ok "b".toUTF8 ∧
      (selfStore.rollbackSet pairSet.id false).Ends w' fun r' w'' =>
        Within (Region ["s"]) w' w'' ∧ r' = .ok (pairReports ["B"] .alreadyRestored) := by
  obtain ⟨v, hset, -⟩ := getSet_pairWorld (l := ["B"])
  refine ⟨established_pairWorld, ⟨v, hset⟩, ?_⟩
  refine ((members_fare_alone established_pairWorld hset
    (placed_members (Or.inr rfl)) apart_members).and
      (rollbackSet_pairWorld (Or.inr rfl))).mono ?_
  rintro r w' ⟨⟨attempts, j, hids, -, hresults, hj, hagain⟩, rfl, hread⟩
  obtain ⟨a, _, rfl, ha, -⟩ := List.map_eq_cons_iff.mp hids
  have hok : a.result = .ok ⟨.ofNat 0, Location.path ["A"], .restored⟩ :=
    (List.cons.inj hresults.eq_map).1
  refine ⟨rfl, ?_, hread, (hagain _ rfl).mono ?_⟩
  · have hfound : (pairIndex ["B"]).find? a.id = some (sampleSnapshot 0 ["A"] "c" "a") := by
      rw [ha]
      rfl
    have hdue : (pairIndex ["B"]).IsDue false a.id := by
      rw [ha]
      exact Or.inl rfl
    exact (hj.fates a List.mem_cons_self).read_eq hok hfound hdue read_first
  · rintro r' w'' ⟨hw'', hr' | ⟨-, hdisturbed⟩⟩
    · exact ⟨hw'', hr'⟩
    · exact absurd (hj.peaceful peaceful_pairWorld).1 hdisturbed.unrest

/-- If two members are of one place, the bytes of the first are gone in the end although nothing
stood in its way, and both are reported as put back. -/
theorem bytes_of_one_place_are_lost :
    selfStore.Established ["s"] (pairWorld ["A"]) (pairIndex ["A"]) ∧
      Peaceful ["s"] (pairWorld ["A"]) ∧ ∃ u v t bytes reports w',
        (selfStore.getSet pairSet.id).apply (pairWorld ["A"]) = (.ok u, v) ∧ t.id ∈ u.members ∧
        (pairIndex ["A"]).find? t.id = some t ∧ (pairIndex ["A"]).IsDue false t.id ∧
        (pairWorld ["A"]).disk.read ((pairWorld ["A"]).absolute t.location) = .ok bytes ∧
        Digest.blake3 bytes = t.checksum ∧
        (writeFile t.source bytes).freely (pairWorld ["A"]) = .ok () ∧
        (selfStore.rollbackSet pairSet.id false).apply (pairWorld ["A"]) = (.ok reports, w') ∧
        w'.disk.read (w'.absolute t.source) ≠ .ok bytes := by
  obtain ⟨v, hset, -⟩ := getSet_pairWorld (l := ["A"])
  rcases hrun : (selfStore.rollbackSet pairSet.id false).apply (pairWorld ["A"]) with ⟨r, w'⟩
  obtain ⟨rfl, hread⟩ := (rollbackSet_pairWorld (Or.inl rfl)).of_apply hrun
  have hwritable : Writable (pairWorld ["A"]).disk ["A"] :=
    PairPlace.writable_of_same (l := ["A"]) (Or.inl rfl) rfl
  refine ⟨established_pairWorld, peaceful_pairWorld, pairSet, v, sampleSnapshot 0 ["A"] "c" "a",
    "a".toUTF8, _, w', hset, List.mem_cons_self, rfl, Or.inl rfl, read_first, rfl,
    (placed_first.freely_writeFile _).mpr hwritable, rfl, ?_⟩
  have hbytes : "b".toUTF8 ≠ "a".toUTF8 := by decide
  intro hlost
  exact hbytes (Except.ok.inj (hread.symm.trans hlost))

end SnapshotStore

end Amend
