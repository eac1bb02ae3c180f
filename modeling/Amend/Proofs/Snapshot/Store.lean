import Amend.Proofs.Snapshot.Name

/-!
# What the operations of a store keep

Each operation is described by the index that it leaves behind.  Whatever fails on the way, the
index is then the old one or the one that the operation was to write, and nothing outside the
directory of the store is touched, unless a snapshot is put back.
-/

namespace Amend

open Disk (Frame)
open Path (IsName)
open World (Within)
open FileLocks (Under Region)

/-! ## The index of a store -/

namespace SnapshotStore

/-- A store that has its directory and the index `i`, whatever has become of its copies. -/
structure Indexed (s : SnapshotStore) (base : Location) (w : World) (i : SnapshotIndex) :
    Prop where
  under : s.locks.Under s.dir base w
  clock : ∀ n, (w.clock n).IsReading
  isAt : i.IsAt base w.disk
  valid : i.IsValid

variable {s : SnapshotStore} {base : Location} {w w' : World} {i j : SnapshotIndex}

/-- What neither disturbs the directory nor touches the index leaves the store its index. -/
theorem Indexed.within {touched : Location → Prop} (h : s.Indexed base w i)
    (hw : Within touched w w') (hunder : s.locks.Under s.dir base w')
    (hindex : ¬ touched (indexLocation base)) : s.Indexed base w' i where
  under := hunder
  clock := by
    rw [hw.clock]
    exact h.clock
  isAt := h.isAt.frame hw.frame hindex
  valid := h.valid

theorem Indexed.region (h : s.Indexed base w i) (hw : Within (Region base) w w') :
    s.Indexed base w' i :=
  h.within hw (h.under.within hw fun _ hl => hl.below) fun hl => ne_concat_of_region hl _ rfl

/-- A store has the index that was written. -/
theorem Indexed.reindexed (h : s.Indexed base w i) (hw : Custody.Reindexed base w j w')
    (hvalid : j.IsValid) : s.Indexed base w' j where
  under := h.under.within hw.below fun _ hl => hl
  clock := by
    rw [hw.within.clock]
    exact h.clock
  isAt := by
    obtain ⟨mode, modified, hat⟩ := hw.isAt
    exact Or.inl ⟨j.encode, mode, modified, hat, SnapshotIndex.decode?_encode hvalid⟩
  valid := hvalid

theorem isName_index : IsName "index.json" := Path.isName_of_two_lt (by decide) (by decide)

/-! ### Reading -/

theorem Indexed.loadIndex (h : s.Indexed base w i) : s.loadIndex.Ends w fun r w' =>
    Within (Region base) w w' ∧ ∀ j, r = .ok j → j = i := by
  have hlocate : w.disk.locate (w.absolute s.indexFile) = .ok (indexLocation base) :=
    (h.under.locate_name isName_index).mpr ⟨rfl, by decide, by decide⟩
  rw [SnapshotStore.loadIndex]
  refine Act.ends_look_bind ?_
  split
  case isTrue hthere =>
    refine (World.ends_readBytes (Region base)).mapError.bind ?_ ?_
    · rintro content w₁ ⟨h₁, -, hread⟩
      obtain ⟨l, mode, modified, hl, hat⟩ := Disk.read_eq_ok_iff.mp (hread content rfl)
      rw [hlocate] at hl
      cases hl
      rcases h.isAt with ⟨bytes, _, _, hat', hdecode⟩ | ⟨hnofile, -⟩
      · rw [hat] at hat'
        cases hat'
        simp only [hdecode]
        exact Act.ends_pure ⟨h₁, fun j hj => (Except.ok.inj hj).symm⟩
      · exact absurd hat (hnofile content mode modified)
    · rintro e w₁ ⟨_, -, h₁, -⟩
      exact ⟨h₁, nofun⟩
  case isFalse hthere =>
    refine Act.ends_pure ⟨.refl w, fun j hj => ?_⟩
    rcases h.isAt with ⟨bytes, mode, modified, hat, -⟩ | ⟨-, hempty⟩
    · have hstat : w.disk.stat (w.absolute s.indexFile) = .ok (.file bytes mode modified) :=
        Disk.stat_eq_ok_iff.mpr ⟨_, hlocate, hat⟩
      rw [World.pathExists, Disk.pathExists, hstat] at hthere
      exact absurd rfl hthere
    · rw [hempty]
      exact (Except.ok.inj hj).symm

theorem Indexed.index (h : s.Indexed base w i) : s.index.Ends w fun r w' =>
    Within (Region base) w w' ∧ ∀ j, r = .ok j → j = i := by
  refine h.under.withLock (P := fun r w' => Within (Region base) w w' ∧ ∀ j, r = .ok j → j = i)
    (fun w₁ h₁ => ?_) (fun e w₁ h₁ => ⟨h₁, nofun⟩) fun r w₂ h₂ => ?_
  · exact ((h.region h₁).loadIndex).mono fun r w₂ h₂ => ⟨h₁.trans h₂.1, h₂.2⟩
  · exact ⟨(h.region h₂.1).under, fun w₃ h₃ => ⟨h₂.1.trans h₃, h₂.2⟩⟩

/-- An operation that only asks the index. -/
theorem Indexed.ask {α : Type} {f : SnapshotIndex → Act SnapshotError α}
    {Q : Except SnapshotError α → World → Prop} (h : s.Indexed base w i)
    (hf : ∀ w', Within (Region base) w w' → (f i).Ends w' Q)
    (herror : ∀ e w', Within (Region base) w w' → Q (.error e) w') :
    (s.index >>= f).Ends w Q := by
  refine h.index.bind ?_ ?_
  · rintro j w' ⟨hw', hj⟩
    rw [hj j rfl]
    exact hf w' hw'
  · rintro e w' ⟨hw', -⟩
    exact herror e w' hw'

/-! ### Changing -/

/-- The index is written where it belongs. -/
theorem reindexed_of_written (h : s.locks.Under s.dir base w)
    (hw : w.Written s.indexFile j.encode w') : Custody.Reindexed base w j w' := by
  obtain ⟨l, mode, modified, hlead, hwithin, hat⟩ := hw
  obtain ⟨rfl, -⟩ := h.eq_of_mayLead isName_index hlead
  exact ⟨hwithin.mono fun l hl => Or.inr hl, mode, modified, hat⟩

/-- A change of the index either leaves the old one or writes the new one. -/
theorem Indexed.updateIndex {α : Type} {f : SnapshotIndex → Act SnapshotError (α × SnapshotIndex)}
    {P : α → SnapshotIndex → World → Prop} (h : s.Indexed base w i)
    (hf : ∀ w₁, Within (Region base) w w₁ → (f i).Ends w₁ fun r w₂ =>
      Within (Region base) w w₂ ∧ ∀ a j, r = .ok (a, j) → P a j w₂) :
    (s.updateIndex f).Ends w fun r w' =>
      match r with
      | .ok a => ∃ j w₂, P a j w₂ ∧ Within (Region base) w w₂ ∧ Custody.Reindexed base w₂ j w'
      | .error _ => Within (Region base) w w' := by
  have hnothing {w₁ w₂ : World} (h : Within (fun _ => False) w₁ w₂) :
      Within (Region base) w₁ w₂ := h.mono fun _ => False.elim
  refine h.under.withLock (P := fun r w' =>
      match r with
      | .ok a => ∃ j w₂, P a j w₂ ∧ Within (Region base) w w₂ ∧ Custody.Reindexed base w₂ j w'
      | .error _ => Within (Region base) w w') (fun w₁ h₁ => ?_) (fun e w₁ h₁ => h₁) ?_
  · refine (h.region h₁).loadIndex.bind ?_ fun e w₂ h₂ => h₁.trans h₂.1
    rintro k w₂ ⟨h₂, hk⟩
    rw [hk k rfl]
    refine (hf w₂ (h₁.trans h₂)).bind ?_ fun e w₃ h₃ => h₃.1
    rintro ⟨a, j⟩ w₃ ⟨h₃, hP⟩
    have hunder := (h.region h₃).under
    refine World.ends_writeFile.mapError.bind ?_ ?_
    · rintro _ w₄ h₄
      exact Act.ends_pure ⟨j, w₃, hP a j rfl, h₃, reindexed_of_written hunder h₄⟩
    · rintro e w₄ ⟨_, -, h₄⟩
      exact h₃.trans (hnothing h₄)
  · rintro (e | a) w₃ h₃
    · exact ⟨(h.region h₃).under, fun w₄ h₄ => Within.trans h₃ h₄⟩
    · obtain ⟨j, w₂, hP, h₂, hreindexed⟩ := h₃
      refine ⟨(h.region h₂).under.within hreindexed.below fun _ hl => hl, fun w₄ h₄ => ?_⟩
      exact ⟨j, w₂, hP, h₂, hreindexed.region h₄⟩

end SnapshotStore

namespace Custody

variable {c : Custody} {w w' : World} {i j : SnapshotIndex}

theorem Kept.indexed (h : c.Kept w i) : c.store.Indexed c.base w i :=
  ⟨h.under, h.clock, h.isAt, h.valid⟩

theorem Kept.index (h : c.Kept w i) : c.store.index.Ends w fun r w' =>
    Within (Region c.base) w w' ∧ ∀ j, r = .ok j → j = i := h.indexed.index

theorem Kept.ask {α : Type} {f : SnapshotIndex → Act SnapshotError α}
    {Q : Except SnapshotError α → World → Prop} (h : c.Kept w i)
    (hf : ∀ w', Within (Region c.base) w w' → (f i).Ends w' Q)
    (herror : ∀ e w', Within (Region c.base) w w' → Q (.error e) w') :
    (c.store.index >>= f).Ends w Q := h.indexed.ask hf herror

theorem Kept.updateIndex {α : Type} {f : SnapshotIndex → Act SnapshotError (α × SnapshotIndex)}
    {P : α → SnapshotIndex → World → Prop} (h : c.Kept w i)
    (hf : ∀ w₁, Within (Region c.base) w w₁ → (f i).Ends w₁ fun r w₂ =>
      Within (Region c.base) w w₂ ∧ ∀ a j, r = .ok (a, j) → P a j w₂) :
    (c.store.updateIndex f).Ends w fun r w' =>
      match r with
      | .ok a => ∃ j w₂, P a j w₂ ∧ Within (Region c.base) w w₂ ∧ Reindexed c.base w₂ j w'
      | .error _ => Within (Region c.base) w w' := h.indexed.updateIndex hf

/-! ## Dropping -/

/-- Removing the copy of a snapshot that is not in the index leaves the others. -/
theorem Kept.removeCopy (h : c.Kept w i) {name : String} (hname : IsName name)
    (hspare : IsSpare c.store.dir c.base i.snapshots (c.base ++ [name])) :
    (SnapshotStore.removeCopy (c.store.dir ++ name)).Ends w fun _ w' =>
      Within c.Below w w' ∧ c.Kept w' i := by
  have htouched : ∀ l, w.disk.locate (w.absolute (c.store.dir ++ name)) false = .ok l →
      l = c.base ++ [name] := fun l hl => ((h.under.locate_name hname).mp hl).1
  rw [SnapshotStore.removeCopy]
  refine (World.ends_removeFile htouched).outcome.bind (fun r w' hw' => ?_) fun e w' he => he.elim
  have hbelow : ∀ l, l = c.base ++ [name] → c.Below l := by
    rintro _ rfl
    exact List.prefix_append c.base [name]
  have hkept : c.Kept w' i := h.within hw' hbelow (by rintro _ rfl; exact hspare)
  have hleft : Within c.Below w w' ∧ c.Kept w' i := ⟨hw'.mono hbelow, hkept⟩
  split
  · exact Act.ends_pure hleft
  · exact Act.ends_pure hleft
  · exact Act.ends_throw hleft

/-- What is left of a list without the first element that is looked for. -/
theorem forall_mem_eraseP {α : Type} {R : α → α → Prop} (hR : ∀ a b, R a b → R b a)
    {p : α → Bool} {l : List α} (h : l.Pairwise R) {a : α} (ha : l.find? p = some a) :
    ∀ b ∈ l.eraseP p, R b a := by
  induction l with
  | nil => cases ha
  | cons x l ih =>
    obtain ⟨hx, hl⟩ := List.pairwise_cons.mp h
    cases hp : p x with
    | true =>
      rw [List.find?_cons_of_pos hp] at ha
      cases ha
      rw [List.eraseP_cons_of_pos hp]
      exact fun b hb => hR _ _ (hx b hb)
    | false =>
      have hp' : ¬ p x = true := by
        rw [hp]
        exact Bool.false_ne_true
      rw [List.find?_cons_of_neg hp'] at ha
      rw [List.eraseP_cons_of_neg hp']
      intro b hb
      rcases List.mem_cons.mp hb with rfl | hb
      · exact hx a (List.mem_of_find?_eq_some ha)
      · exact ih hl ha b hb

/-- The copy of a snapshot that was dropped is not that of another one. -/
theorem Kept.isSpare_of_drop (h : c.Kept w i) {id : Uid} {t : Snapshot}
    (ht : i.find? id = some t) {name : String} (hname : IsCopyName name)
    (hlocation : t.location = c.store.dir ++ name) :
    IsSpare c.store.dir c.base (i.drop id).snapshots (c.base ++ [name]) where
  ne_index := by
    intro heq
    have hnames : [name] = ["index.json"] := List.append_cancel_left heq
    exact hname.ne_index (List.cons.inj hnames).1
  ne_copy := by
    intro u hu other _ hother heq
    have hnames : [name] = [other] := List.append_cancel_left heq
    refine forall_mem_eraseP (fun _ _ hne => hne.symm) h.apart ht u hu ?_
    rw [hother, hlocation, (List.cons.inj hnames).1]

/-- The worlds and indexes that an operation may lead to: nothing outside the directory of the
store was touched, and no snapshots but some new ones have come in. -/
def Leads (c : Custody) (new : List Snapshot) (w : World) (i : SnapshotIndex) (w' : World) :
    Prop :=
  Within c.Below w w' ∧ ∃ j, c.Kept w' j ∧ ∀ t ∈ j.snapshots, t ∈ i.snapshots ∨ t ∈ new

theorem Kept.leads (h : c.Kept w' i) (hw : Within c.Below w w') : c.Leads [] w i w' :=
  ⟨hw, i, h, fun _ ht => Or.inl ht⟩

theorem Kept.leads_region (h : c.Kept w i) (hw : Within (Region c.base) w w') :
    c.Leads [] w i w' :=
  (h.within_region hw).leads (hw.mono fun _ hl => hl.below)

/-- What an operation comes to that drops snapshots one after the other: the first of them are gone,
all if it succeeds. -/
structure Dropped {α : Type} (c : Custody) (w : World) (i : SnapshotIndex) (ids : List Uid)
    (r : Except SnapshotError α) (w' : World) : Prop where
  within : Within c.Below w w'
  kept : ∃ gone rest, ids = gone ++ rest ∧ c.Kept w' (gone.foldl SnapshotIndex.drop i) ∧
    ∀ x, r = .ok x → rest = []

/-- Nothing was dropped. -/
theorem Kept.dropped_region {α : Type} (h : c.Kept w i) (ids : List Uid)
    (hw : Within (Region c.base) w w') (e : SnapshotError) :
    c.Dropped w i ids (.error e : Except SnapshotError α) w' :=
  ⟨hw.mono fun _ hl => hl.below, [], ids, rfl, h.within_region hw, nofun⟩

theorem mem_of_mem_foldl_drop {ids : List Uid} {t : Snapshot}
    (h : t ∈ (ids.foldl SnapshotIndex.drop i).snapshots) : t ∈ i.snapshots := by
  induction ids generalizing i with
  | nil => exact h
  | cons id ids ih => exact List.mem_of_mem_eraseP (ih h)

theorem Dropped.leads {α : Type} {ids : List Uid} {r : Except SnapshotError α}
    (h : c.Dropped w i ids r w') : c.Leads [] w i w' := by
  obtain ⟨gone, rest, -, hkept, -⟩ := h.kept
  exact ⟨h.within, _, hkept, fun t ht => Or.inl (mem_of_mem_foldl_drop ht)⟩

/-- Dropping a snapshot that is not guarded. -/
theorem Kept.delete (h : c.Kept w i) {id : Uid}
    (hid : ∀ t content, c.guarded t content → t.id ≠ id) :
    (c.store.delete id).Ends w (c.Dropped w i [id]) := by
  rw [SnapshotStore.delete]
  refine (h.updateIndex (P := fun t j _ => i.find? id = some t ∧ j = i.drop id)
    fun w₁ h₁ => ?_).bind ?_ fun e w₁ h₁ => h.dropped_region [id] h₁ e
  · cases ht : i.find? id with
    | none => exact Act.ends_throw ⟨h₁, nofun⟩
    | some t =>
      refine Act.ends_pure ⟨h₁, fun a j heq => ?_⟩
      cases heq
      exact ⟨rfl, rfl⟩
  · rintro t w₁ ⟨_, w₂, ⟨ht, rfl⟩, h₂, hreindexed⟩
    have hkept := (h.within_region h₂).drop hreindexed hid
    obtain ⟨content, ⟨name, mode, modified, hname, -, hlocation, -⟩, -⟩ :=
      h.copies t (SnapshotIndex.mem_of_find? ht).1
    rw [hlocation]
    refine (hkept.removeCopy hname.isName (h.isSpare_of_drop ht hname hlocation)).mono ?_
    rintro r w₃ ⟨h₃, hkept'⟩
    exact ⟨((h₂.mono fun _ hl => hl.below).trans hreindexed.below).trans h₃, [id], [], rfl, hkept',
      fun _ _ => rfl⟩

theorem comesFrom_trans {old middle last new more : List Snapshot}
    (h : ∀ t ∈ middle, t ∈ old ∨ t ∈ new) (h' : ∀ t ∈ last, t ∈ middle ∨ t ∈ more) :
    ∀ t ∈ last, t ∈ old ∨ t ∈ new ++ more := by
  intro t ht
  rw [List.mem_append]
  rcases h' t ht with ht | ht
  · exact (h t ht).imp_right Or.inl
  · exact Or.inr (Or.inr ht)

/-- An operation that goes on where another one has led. -/
theorem Leads.andThen {ε α : Type} {new more : List Snapshot} {a : Act ε α} {w₁ : World}
    (h : c.Leads new w i w₁)
    (ha : ∀ j, c.Kept w₁ j → a.Ends w₁ fun _ w₂ => c.Leads more w₁ j w₂) :
    a.Ends w₁ fun _ w₂ => c.Leads (new ++ more) w i w₂ ∧ Within c.Below w₁ w₂ := by
  obtain ⟨hw, j, hkept, hsub⟩ := h
  refine (ha j hkept).mono fun r w₂ h₂ => ?_
  obtain ⟨hw', k, hkept', hsub'⟩ := h₂
  exact ⟨⟨hw.trans hw', k, hkept', comesFrom_trans hsub hsub'⟩, hw'⟩

theorem Kept.deleteAll {ids : List Uid} (h : c.Kept w i)
    (hids : ∀ id ∈ ids, ∀ t content, c.guarded t content → t.id ≠ id) :
    (ids.forM c.store.delete).Ends w (c.Dropped w i ids) := by
  induction ids generalizing w i with
  | nil => exact Act.ends_pure ⟨.refl w, [], [], rfl, h, fun _ _ => rfl⟩
  | cons id ids ih =>
    refine (h.delete (hids id List.mem_cons_self)).bind ?_ ?_
    · rintro _ w₁ ⟨hw, gone, rest, heq, hkept, hall⟩
      rw [hall () rfl, List.append_nil] at heq
      rw [← heq] at hkept
      refine (ih hkept fun other ho => hids other (List.mem_cons_of_mem id ho)).mono ?_
      rintro r w₂ ⟨hw', gone', rest', rfl, hkept', hall'⟩
      exact ⟨hw.trans hw', id :: gone', rest', rfl, hkept', hall'⟩
    · rintro e w₁ ⟨hw, gone, rest, heq, hkept, -⟩
      refine ⟨hw, gone, rest ++ ids, ?_, hkept, nofun⟩
      rw [← List.append_assoc, ← heq, List.singleton_append]

/-- The snapshots of a file are those that the index has. -/
theorem Kept.listFor (h : c.Kept w i) (file : Path) : (c.store.listFor file).Ends w fun r w' =>
    Within (Region c.base) w w' ∧
      ∀ newest, r = .ok newest → newest = i.ofFile (w.identity file) := by
  rw [SnapshotStore.listFor]
  refine Act.ends_look_bind (h.ask (fun w₁ h₁ => Act.ends_pure ⟨h₁, fun newest heq => ?_⟩)
    fun e w₁ h₁ => ⟨h₁, nofun⟩)
  exact (Except.ok.inj heq).symm

/-- Retention drops no guarded snapshot, because it drops no pinned one. -/
theorem Kept.retain (h : c.Kept w i) (file : Path) (keep : Nat) :
    (c.store.retain file keep).Ends w (c.Dropped w i
      (SnapshotStore.expired w.pinned keep (i.ofFile (w.identity file)))) := by
  rw [SnapshotStore.retain]
  refine Act.ends_look_bind ((h.listFor file).bind ?_ fun e w₁ h₁ => h.dropped_region _ h₁.1 e)
  rintro newest w₁ ⟨h₁, hnewest⟩
  rw [hnewest newest rfl]
  have hids : ∀ id ∈ SnapshotStore.expired w.pinned keep (i.ofFile (w.identity file)),
      ∀ t content, c.guarded t content → t.id ≠ id := by
    rintro id hid t content ht rfl
    obtain ⟨-, hnot⟩ := List.mem_filter.mp hid
    rw [Bool.not_eq_true', List.contains_eq_mem, decide_eq_false_iff_not] at hnot
    exact hnot (h.pinned t content ht)
  have hearlier : Within c.Below w w₁ := h₁.mono fun _ hl => hl.below
  refine ((h.within_region h₁).deleteAll hids).bind ?_ ?_
  · rintro _ w₂ ⟨hw, gone, rest, heq, hkept, hall⟩
    exact Act.ends_pure ⟨hearlier.trans hw, gone, rest, heq, hkept, fun _ _ => hall () rfl⟩
  · rintro e w₂ ⟨hw, gone, rest, heq, hkept, -⟩
    exact ⟨hearlier.trans hw, gone, rest, heq, hkept, nofun⟩

/-! ## Taking snapshots -/

/-- The identifiers that are drawn between two worlds. -/
def Drawn (w w' : World) (id : Uid) : Prop := ∃ n, w.drawn ≤ n ∧ n < w'.drawn ∧ id = w.ids n

theorem Drawn.later {w₁ w₂ w₃ : World} {id : Uid} (h : Drawn w₁ w₂ id)
    (hw : w₂.drawn ≤ w₃.drawn) : Drawn w₁ w₃ id := by
  obtain ⟨n, hn, hn', heq⟩ := h
  exact ⟨n, hn, Nat.lt_of_lt_of_le hn' hw, heq⟩

theorem Drawn.earlier {w₁ w₂ w₃ : World} {id : Uid} {touched : Location → Prop}
    (h : Drawn w₂ w₃ id) (hw : Within touched w₁ w₂) : Drawn w₁ w₃ id := by
  obtain ⟨n, hn, hn', heq⟩ := h
  rw [hw.ids] at heq
  exact ⟨n, Nat.le_trans hw.drawn hn, hn', heq⟩

/-- A world in which a snapshot of a file was entered into the index. -/
structure Entered (c : Custody) (w : World) (i : SnapshotIndex) (source : Path) (t : Snapshot)
    (w' : World) : Prop where
  within : Within c.Below w w'
  kept : c.Kept w' (i.add t)
  source : t.source = source
  sequence : t.sequence = i.nextSequence
  drawn : Drawn w w' t.id

theorem Entered.region {source : Path} {t : Snapshot} {w'' : World}
    (h : c.Entered w i source t w') (hw : Within (Region c.base) w' w'') :
    c.Entered w i source t w'' where
  within := h.within.trans (hw.mono fun _ hl => hl.below)
  kept := h.kept.within_region hw
  source := h.source
  sequence := h.sequence
  drawn := h.drawn.later hw.drawn

theorem Entered.earlier {source : Path} {t : Snapshot} {w'' : World}
    (h : c.Entered w' i source t w'') (hw : Within c.Below w w') : c.Entered w i source t w'' :=
  { h with
    within := hw.trans h.within
    drawn := h.drawn.earlier hw }

/-- What is written under a free name disturbs nothing that is kept. -/
theorem Kept.isSpare_of_free (h : c.Kept w i) {name : String} (hname : IsCopyName name)
    (hfree : w.pathExists (c.store.dir ++ name) = false) {l : Location}
    (hl : w.MayLead (c.store.dir ++ name) l) :
    l = c.base ++ [name] ∧ Fits name ∧
      IsSpare c.store.dir c.base i.snapshots (c.base ++ [name]) := by
  obtain ⟨rfl, hfits⟩ := h.under.eq_of_mayLead hname.isName hl
  refine ⟨rfl, hfits, fun heq => ?_, fun t ht other hother hlocation heq => ?_⟩
  · have hnames : [name] = ["index.json"] := List.append_cancel_left heq
    exact hname.ne_index (List.cons.inj hnames).1
  · have hnames : [name] = [other] := List.append_cancel_left heq
    obtain rfl := (List.cons.inj hnames).1
    obtain ⟨content, ⟨copy, mode, modified, hcopy, -, hlocation', hat⟩, -⟩ := h.copies t ht
    obtain rfl := Path.join_injective hcopy.isName c.store.dir hother
      (hlocation'.symm.trans hlocation)
    have hstat : w.disk.stat (w.absolute (c.store.dir ++ copy)) =
        .ok (.file content mode modified) :=
      Disk.stat_eq_ok_iff.mpr ⟨_, (h.under.locate_name hname.isName).mpr ⟨rfl, hfits⟩, hat⟩
    rw [World.pathExists, Disk.pathExists, hstat] at hfree
    cases hfree

/-- A snapshot of some content that takes the next number of an index and the next identifier. -/
structure IsEntry (w : World) (i : SnapshotIndex) (source location : Path) (content : ByteArray)
    (t : Snapshot) (w' : World) : Prop where
  valid : t.IsValid
  source : t.source = source
  location : t.location = location
  checksum : t.checksum = Digest.blake3 content
  size : t.size = MachineWord.wrap content.size
  sequence : t.sequence = i.nextSequence
  drawn : Drawn w w' t.id

/-- The index gets a new entry or stays. -/
theorem Kept.addEntry (h : c.Kept w i) {source location : Path} {content : ByteArray}
    {createdAt : Timestamp} (hcreated : createdAt.IsReading) :
    (c.store.updateIndex fun index => do
      let snapshot : Snapshot :=
        { id := ← World.drawId, source, location, checksum := Digest.blake3 content, createdAt
          size := MachineWord.wrap content.size, sequence := index.nextSequence }
      return (snapshot, index.add snapshot)).Ends w fun r w' =>
        match r with
        | .ok t => ∃ w₂, IsEntry w i source location content t w₂ ∧
            Within (Region c.base) w w₂ ∧ Reindexed c.base w₂ (i.add t) w'
        | .error _ => Within (Region c.base) w w' := by
  refine (h.updateIndex (P := fun t j w₂ => j = i.add t ∧
    IsEntry w i source location content t w₂) fun w₁ h₁ => ?_).mono ?_
  · refine World.ends_drawId_bind (Act.ends_pure ⟨?_, ?_⟩)
    · exact h₁.trans ⟨Frame.refl _, rfl, rfl, rfl, Nat.le_succ _, rfl⟩
    · intro t j heq
      cases heq
      refine ⟨rfl, ⟨hcreated, ?_, h.valid.nextSequence⟩, rfl, rfl, rfl, rfl, rfl, ?_⟩
      · exact Nat.mod_lt _ (by decide)
      · exact ⟨w₁.drawn, h₁.drawn, Nat.lt_succ_self _, by rw [h₁.ids]⟩
  · rintro (e | t) w' hw'
    · exact hw'
    · obtain ⟨_, w₂, ⟨rfl, hentry⟩, h₂, hreindexed⟩ := hw'
      exact ⟨w₂, hentry, h₂, hreindexed⟩

/-- A copy that is on the disk is entered into the index, or the index stays. -/
theorem Kept.enter (h : c.Kept w i) {source location : Path} {content : ByteArray}
    {createdAt : Timestamp} (hcreated : createdAt.IsReading)
    (hcopy : ∀ t : Snapshot, t.location = location → t.HasCopy c.store.dir c.base content w.disk)
    (hnew : ∀ u ∈ i.snapshots, u.location ≠ location)
    (hfact : ∀ t w₂, IsEntry w i source location content t w₂ → c.fact t content) :
    (c.store.updateIndex fun index => do
      let snapshot : Snapshot :=
        { id := ← World.drawId, source, location, checksum := Digest.blake3 content, createdAt
          size := MachineWord.wrap content.size, sequence := index.nextSequence }
      return (snapshot, index.add snapshot)).Ends w fun r w' =>
        match r with
        | .ok t => c.Entered w i source t w'
        | .error _ => Within (Region c.base) w w' := by
  refine (h.addEntry hcreated).mono ?_
  rintro (e | t) w' hw'
  · exact hw'
  · obtain ⟨w₂, hentry, h₂, hreindexed⟩ := hw'
    have hkept := h.within_region h₂
    have hentered := hkept.add hreindexed hentry.valid
      ⟨content, (hcopy t hentry.location).frame h₂.frame (List.mem_singleton_self t)
        fun _ => isSpare_of_region, hfact t w₂ hentry⟩ (hentry.location ▸ hnew)
    have hbelow := (h₂.mono fun _ hl => hl.below).trans hreindexed.below
    exact ⟨hbelow, hentered, hentry.source, hentry.sequence,
      hentry.drawn.later hreindexed.within.drawn⟩

/-- What is known of a snapshot that is taken after a world, beside its checksum: it has an
identifier that was still to be drawn, and its file was read where no more than the directory of
the store had changed. -/
structure Recorded (c : Custody) (w : World) (t : Snapshot) (content : ByteArray) (d : Disk) :
    Prop where
  frame : Frame c.Below w.disk d
  drawn : ∃ n, w.drawn ≤ n ∧ t.id = w.ids n
  size : t.size = MachineWord.wrap content.size
  named : ∃ name, IsCopyName name ∧ t.location = c.store.dir ++ name

theorem Recorded.earlier {t : Snapshot} {content : ByteArray} {d : Disk}
    (h : c.Recorded w' t content d) (hw : Within c.Below w w') : c.Recorded w t content d where
  frame := hw.frame.trans h.frame
  drawn := by
    obtain ⟨n, hn, hid⟩ := h.drawn
    rw [hw.ids] at hid
    exact ⟨n, Nat.le_trans hw.drawn hn, hid⟩
  size := h.size
  named := h.named

/-- A world in which what is to hold of snapshots holds of each that is taken truthfully, now or
after changes in the directory of the store. -/
def Truthful (c : Custody) (w : World) : Prop :=
  ∀ t content d, t.checksum = Digest.blake3 content → c.Recorded w t content d →
    d.read (w.absolute t.source) = .ok content → c.fact t content

theorem Truthful.within (h : c.Truthful w) (hw : Within c.Below w w') : c.Truthful w' := by
  intro t content d hchecksum hrecorded hread
  rw [hw.absolute] at hread
  exact h t content d hchecksum (hrecorded.earlier hw) hread

/-- Taking a snapshot of a file brings in no other snapshot than this one. -/
theorem Kept.record (h : c.Kept w i) (htrue : c.Truthful w) {source : Path} :
    (c.store.record source).Ends w fun r w' =>
      match r with
      | .ok t => c.Entered w i source t w'
      | .error _ => Within c.Below w w' ∧ c.Kept w' i := by
  have hregion {w' : World} (hw : Within (Region c.base) w w') :
      Within c.Below w w' ∧ c.Kept w' i :=
    ⟨hw.mono fun _ hl => hl.below, h.within_region hw⟩
  rw [SnapshotStore.record]
  refine h.under.withLock (P := fun r w' =>
      match r with
      | .ok t => c.Entered w i source t w'
      | .error _ => Within c.Below w w' ∧ c.Kept w' i) (fun w₁ h₁ => ?_)
    (fun e w₁ h₁ => hregion h₁) ?_
  · refine (World.ends_readBytes (Region c.base)).mapError.bind ?_ ?_
    · rintro content w₂ ⟨h₂, -, hread⟩
      have hcontent := hread content rfl
      rw [h₁.absolute] at hcontent
      refine World.ends_readClock_bind (Act.ends_look_bind ?_)
      set w₃ : World := { w₂ with readings := w₂.readings + 1 } with hw₃
      have h₃ : Within (Region c.base) w w₃ :=
        (h₁.trans h₂).trans ⟨Frame.refl _, rfl, rfl, rfl, Nat.le_refl _, rfl⟩
      have hkept := h.within_region h₃
      obtain ⟨name, hname, heq, hfree⟩ :=
        SnapshotStore.locationFor_eq hkept.under source (w₂.clock w₂.readings)
      rw [heq]
      refine World.ends_writeFile.mapError.bind ?_ ?_
      · rintro _ w₄ ⟨l, mode, modified, hlead, h₄, hat⟩
        obtain ⟨rfl, hfits, hspare⟩ := hkept.isSpare_of_free hname hfree hlead
        have hbelow : ∀ l, l = c.base ++ [name] → c.Below l := by
          rintro _ rfl
          exact List.prefix_append c.base [name]
        have hwritten := hkept.within h₄ hbelow (by rintro _ rfl; exact hspare)
        have hw₄ : Within c.Below w w₄ := (h₃.mono fun _ hl => hl.below).trans (h₄.mono hbelow)
        have hclock : (w₂.clock w₂.readings).IsReading := by
          rw [(h₁.trans h₂).clock]
          exact h.clock _
        refine (hwritten.enter hclock (fun t ht => ?_) (fun u hu heq => ?_)
          (fun t w₅ hentry => ?_)).outcome.bind (fun r w₅ h₅ => ?_) fun e w₅ h₅ => h₅.elim
        · exact ⟨name, mode, modified, hname, hfits, ht, hat⟩
        · exact hspare.ne_copy u hu name hname.isName heq rfl
        · obtain ⟨n, hn, -, hid⟩ := hentry.drawn.earlier hw₄
          refine htrue t content w₁.disk hentry.checksum ⟨h₁.frame.mono fun _ hl => hl.below,
            ⟨n, hn, hid⟩, hentry.size, name, hname, hentry.location⟩ ?_
          rw [hentry.source]
          exact hcontent
        · cases r with
          | ok t => exact Act.ends_pure (h₅.earlier hw₄)
          | error e =>
            have hleft := hwritten.within_region h₅
            refine (hleft.removeCopy hname.isName hspare).outcome.bind (fun r w₆ h₆ => ?_)
              fun e w₆ h₆ => h₆.elim
            exact Act.ends_throw
              ⟨(hw₄.trans (h₅.mono fun _ hl => hl.below)).trans h₆.1, h₆.2⟩
      · rintro e w₄ ⟨_, -, h₄⟩
        exact hregion (h₃.trans (h₄.mono fun _ => False.elim))
    · rintro e w₂ ⟨_, -, h₂, -⟩
      exact hregion (h₁.trans h₂)
  · rintro (e | t) w₂ h₂
    · exact ⟨h₂.2.under, fun w₃ h₃ =>
        ⟨h₂.1.trans (h₃.mono fun _ hl => hl.below), h₂.2.within_region h₃⟩⟩
    · exact ⟨h₂.kept.under, fun w₃ h₃ => h₂.region h₃⟩

/-- Where an operation may lead whatever it has brought in. -/
def Drifts (c : Custody) (w : World) (i : SnapshotIndex) (w' : World) : Prop :=
  ∃ new, c.Leads new w i w'

theorem Leads.drifts {new : List Snapshot} (h : c.Leads new w i w') : c.Drifts w i w' := ⟨new, h⟩

/-- A world in which a snapshot of a file was taken, and those dropped that are not to be kept any
more.  Retention may look for the file under another name. -/
structure Created (c : Custody) (w : World) (i : SnapshotIndex) (source : Path) (t : Snapshot)
    (w' : World) : Prop where
  within : Within c.Below w w'
  kept : ∃ key : Path, c.Kept w' ((SnapshotStore.expired w.pinned c.store.kept
    ((i.add t).ofFile key)).foldl SnapshotIndex.drop (i.add t))
  source : t.source = source
  sequence : t.sequence = i.nextSequence
  drawn : Drawn w w' t.id

theorem Created.leads {source : Path} {t : Snapshot} (h : c.Created w i source t w') :
    c.Leads [t] w i w' := by
  obtain ⟨key, hkept⟩ := h.kept
  exact ⟨h.within, _, hkept, fun u hu => List.mem_append.mp (mem_of_mem_foldl_drop hu)⟩

theorem Kept.create (h : c.Kept w i) (htrue : c.Truthful w) (file : Path) :
    (c.store.create file).Ends w fun r w' =>
      match r with
      | .ok t => c.Created w i (w.identity file) t w'
      | .error _ => c.Drifts w i w' := by
  rw [SnapshotStore.create]
  refine Act.ends_look_bind (Act.ends_look_bind ?_)
  split
  · refine (h.record htrue).bind ?_ fun e w₁ h₁ => (h₁.2.leads h₁.1).drifts
    intro t w₁ h₁
    refine (h₁.kept.retain (w.identity file) c.store.kept).bind ?_ ?_
    · rintro _ w₂ ⟨hw, gone, rest, heq, hkept, hall⟩
      rw [hall _ rfl, List.append_nil, h₁.within.pinned] at heq
      rw [← heq] at hkept
      exact Act.ends_pure ⟨h₁.within.trans hw, ⟨_, hkept⟩, h₁.source, h₁.sequence,
        h₁.drawn.later hw.drawn⟩
    · intro e w₂ h₂
      obtain ⟨hw, j, hkept, hsub⟩ := h₂.leads
      exact ⟨[t] ++ [], h₁.within.trans hw, j, hkept,
        comesFrom_trans (fun u hu => List.mem_append.mp hu) hsub⟩
  · exact Act.ends_throw (h.leads (.refl w)).drifts

theorem Kept.ne_of_drawn (h : c.Kept w i) {id : Uid} (hid : Drawn w w' id) {t : Snapshot}
    {content : ByteArray} (ht : c.guarded t content) : t.id ≠ id := by
  obtain ⟨n, hn, -, rfl⟩ := hid
  exact (h.unused t content ht n hn).symm

/-! ## Sets -/

/-- Giving up the snapshots taken for a set. -/
theorem Kept.giveUp {taken : List Snapshot} (h : c.Kept w i)
    (htaken : ∀ u ∈ taken, ∀ t content, c.guarded t content → t.id ≠ u.id) :
    (taken.forM fun t => do
      let _ ← (c.store.delete t.id).outcome : Act SnapshotError Unit).Ends w fun _ w' =>
        c.Leads [] w i w' := by
  induction taken generalizing w i with
  | nil => exact Act.ends_pure (h.leads (.refl w))
  | cons u taken ih =>
    refine Act.Ends.bind (P := fun _ w' => c.Leads [] w i w') ?_ (fun _ w₁ h₁ => ?_)
      fun e w₁ h₁ => h₁
    · exact (h.delete (htaken u List.mem_cons_self)).outcome.bind
        (fun r w₁ h₁ => Act.ends_pure (Dropped.leads h₁)) fun e w₁ h₁ => h₁.elim
    · have hrest := h₁.andThen fun j hj => ih hj fun v hv => htaken v (List.mem_cons_of_mem u hv)
      exact hrest.mono fun r w₂ h₂ => h₂.1

/-- What was taken for some files: a new snapshot of each that was not seen before. -/
structure Taken (c : Custody) (w : World) (files seen : List Path) (new : List Snapshot)
    (w' : World) : Prop where
  drawn : ∀ t ∈ new, Drawn w w' t.id
  ordered : new.Pairwise fun a b => ∃ m n, w.drawn ≤ m ∧ m < n ∧ n < w'.drawn ∧
    a.id = w.ids m ∧ b.id = w.ids n
  covers : ∀ file ∈ files, ∃ w₁ key, Within c.Below w w₁ ∧ key.same (w₁.identity file) = true ∧
    (key ∈ seen ∨ ∃ t ∈ new, t.source = key)
  sources : ∀ t ∈ new, ∃ file ∈ files, ∃ w₁, Within c.Below w w₁ ∧ t.source = w₁.identity file

theorem Taken.later {files seen : List Path} {new : List Snapshot} {w₁ w₂ : World}
    (h : c.Taken w files seen new w₁) (hw : w₁.drawn ≤ w₂.drawn) :
    c.Taken w files seen new w₂ where
  drawn := fun t ht => (h.drawn t ht).later hw
  ordered := h.ordered.imp fun ⟨m, n, hm, hmn, hn, hids⟩ =>
    ⟨m, n, hm, hmn, Nat.lt_of_lt_of_le hn hw, hids⟩
  covers := h.covers
  sources := h.sources

theorem Taken.seen {files seen : List Path} {new : List Snapshot} {file : Path}
    (h : c.Taken w files seen new w')
    (hseen : seen.any (·.same (w.identity file)) = true) :
    c.Taken w (file :: files) seen new w' where
  drawn := h.drawn
  ordered := h.ordered
  covers := by
    intro other hother
    rcases List.mem_cons.mp hother with rfl | hother
    · obtain ⟨key, hkey, hsame⟩ := List.any_eq_true.mp hseen
      exact ⟨w, key, .refl w, hsame, Or.inl hkey⟩
    · exact h.covers other hother
  sources := by
    intro t ht
    obtain ⟨other, hother, hsource⟩ := h.sources t ht
    exact ⟨other, List.mem_cons_of_mem file hother, hsource⟩

theorem Taken.cons {files seen : List Path} {new : List Snapshot} {file : Path} {t : Snapshot}
    {w₁ : World} (h : c.Taken w₁ files (seen ++ [w.identity file]) new w')
    (hw : Within c.Below w w₁) (hw' : Within c.Below w₁ w')
    (hsource : t.source = w.identity file) (hdrawn : Drawn w w₁ t.id) :
    c.Taken w (file :: files) seen (t :: new) w' where
  drawn := by
    intro u hu
    rcases List.mem_cons.mp hu with rfl | hu
    · exact hdrawn.later hw'.drawn
    · exact (h.drawn u hu).earlier hw
  ordered := by
    refine List.pairwise_cons.mpr ⟨fun u hu => ?_, h.ordered.imp fun {a b} hab => ?_⟩
    · obtain ⟨m, hm, hlt, hid⟩ := hdrawn
      obtain ⟨n, hn, hlt', hid'⟩ := h.drawn u hu
      rw [hw.ids] at hid'
      exact ⟨m, n, hm, by omega, hlt', hid, hid'⟩
    · obtain ⟨m, n, hm, hmn, hn, hid, hid'⟩ := hab
      rw [hw.ids] at hid hid'
      exact ⟨m, n, Nat.le_trans hw.drawn hm, hmn, hn, hid, hid'⟩
  covers := by
    intro other hother
    rcases List.mem_cons.mp hother with rfl | hother
    · exact ⟨w, _, .refl w, beq_self_eq_true _, Or.inr ⟨t, List.mem_cons_self, hsource⟩⟩
    · obtain ⟨w₂, key, hw₂, hsame, hkey⟩ := h.covers other hother
      refine ⟨w₂, key, hw.trans hw₂, hsame, ?_⟩
      rcases hkey with hkey | ⟨u, hu, hu'⟩
      · rcases List.mem_append.mp hkey with hkey | hkey
        · exact Or.inl hkey
        · rw [List.mem_singleton.mp hkey]
          exact Or.inr ⟨t, List.mem_cons_self, hsource⟩
      · exact Or.inr ⟨u, List.mem_cons_of_mem t hu, hu'⟩
  sources := by
    intro u hu
    rcases List.mem_cons.mp hu with rfl | hu
    · exact ⟨file, List.mem_cons_self, w, .refl w, hsource⟩
    · obtain ⟨other, hother, w₂, hw₂, hu'⟩ := h.sources u hu
      exact ⟨other, List.mem_cons_of_mem file hother, w₂, hw.trans hw₂, hu'⟩

theorem Kept.createMembers {files seen : List Path} {taken : List Snapshot} (h : c.Kept w i)
    (htrue : c.Truthful w)
    (htaken : ∀ u ∈ taken, ∀ t content, c.guarded t content → t.id ≠ u.id) :
    (c.store.createMembers seen taken files).Ends w fun r w' =>
      match r with
      | .ok members => ∃ new, members = taken ++ new ∧ c.Leads new w i w' ∧
          c.Taken w files seen new w'
      | .error _ => c.Drifts w i w' := by
  induction files generalizing w i seen taken with
  | nil =>
    refine Act.ends_pure ⟨[], (List.append_nil _).symm, h.leads (.refl w), ?_⟩
    exact ⟨nofun, List.Pairwise.nil, nofun, nofun⟩
  | cons file files ih =>
    rw [SnapshotStore.createMembers]
    refine Act.ends_look_bind ?_
    split
    case isTrue hseen =>
      refine (ih h htrue htaken).mono ?_
      rintro (e | members) w' hw'
      · exact hw'
      · obtain ⟨new, heq, hleads, hnew⟩ := hw'
        exact ⟨new, heq, hleads, hnew.seen hseen⟩
    case isFalse hseen =>
      refine (h.create htrue file).outcome.bind (fun r w₁ h₁ => ?_) fun e w₁ h₁ => h₁.elim
      cases r with
      | ok t =>
        have hsource := h₁.source
        have hdrawn := h₁.drawn
        obtain ⟨hw, j, hkept, hsub⟩ := Created.leads h₁
        refine (ih hkept (htrue.within hw) fun u hu => ?_).mono ?_
        · rcases List.mem_append.mp hu with hu | hu
          · exact htaken u hu
          · rw [List.mem_singleton.mp hu]
            exact fun _ _ hg => h.ne_of_drawn hdrawn hg
        · rintro (e | members) w₂ h₂
          · obtain ⟨new, hw', k, hkept', hsub'⟩ := h₂
            exact ⟨t :: new, hw.trans hw', k, hkept', comesFrom_trans hsub hsub'⟩
          · obtain ⟨new, heq, ⟨hw', k, hkept', hsub'⟩, hnew⟩ := h₂
            refine ⟨t :: new, ?_, ⟨hw.trans hw', k, hkept', comesFrom_trans hsub hsub'⟩,
              hnew.cons hw hw' hsource hdrawn⟩
            rw [heq, List.append_assoc, List.singleton_append]
      | error e =>
        obtain ⟨new, h₁⟩ := h₁
        refine (h₁.andThen fun j hj => hj.giveUp htaken).bind (fun _ w₂ h₂ => ?_)
          fun e w₂ h₂ => h₂.1.drifts
        exact Act.ends_throw h₂.1.drifts

/-- A world that was led to from `w`, with some more identifiers pinned. -/
structure Pinned (c : Custody) (w : World) (ids : List Uid) (w' : World) : Prop where
  within : Within c.Below w { w' with pinned := w.pinned }
  pinned : w'.pinned = w.pinned ++ ids

/-- What the set of some files is when it has been taken: its members are new snapshots of them,
pinned, and it is the only set that has come into the index. -/
structure SetTaken (c : Custody) (w : World) (i : SnapshotIndex) (files : List Path)
    (set : SnapshotSet) (new : List Snapshot) (w' : World) (j : SnapshotIndex) : Prop where
  pinned : c.Pinned w set.members w'
  kept : (c.withSets fun u => c.setFact u ∨ u = set).Kept w' j
  comesFrom : ∀ t ∈ j.snapshots, t ∈ i.snapshots ∨ t ∈ new
  taken : c.Taken w files [] new w'
  members : set.members = new.map (·.id)
  drawn : Drawn w w' set.id

theorem Kept.createSet (h : c.Kept w i) (htrue : c.Truthful w) (files : List Path) :
    (c.store.createSet files).Ends w fun r w' =>
      match r with
      | .ok set => ∃ new j, c.SetTaken w i files set new w' j
      | .error _ => c.Drifts w i w' := by
  rw [SnapshotStore.createSet]
  refine (h.createMembers htrue fun u hu => absurd hu List.not_mem_nil).bind ?_ fun e w₁ h₁ => h₁
  rintro members w₁ ⟨new, hmembers, ⟨hw, j, hkept, hsub⟩, htaken⟩
  rw [List.nil_append] at hmembers
  subst hmembers
  refine World.ends_drawId_bind (World.ends_readClock_bind ?_)
  generalize hset : SnapshotSet.mk (w₁.ids w₁.drawn) (w₁.clock w₁.readings) _ = set
  have h₂ : Within (Region c.base) w₁
      { w₁ with drawn := w₁.drawn + 1, readings := w₁.readings + 1 } :=
    ⟨Frame.refl _, rfl, rfl, rfl, Nat.le_succ _, rfl⟩
  have hbelow {w₂ w₃ : World} (h : Within (Region c.base) w₂ w₃) : Within c.Below w₂ w₃ :=
    h.mono fun _ hl => hl.below
  refine ((hkept.within_region h₂).updateIndex (P := fun _ k _ => k = j.addSet set)
    fun w₃ h₃ => ?_).bind ?_ fun e w₃ h₃ => ?_
  · refine Act.ends_pure ⟨h₃, fun _ k heq => ?_⟩
    cases heq
    rfl
  · rintro _ w₃ ⟨_, w₄, rfl, h₄, hreindexed⟩
    have hlater : Within c.Below w₁ w₃ := (hbelow (h₂.trans h₄)).trans hreindexed.below
    have hcreated : set.createdAt.IsReading := by
      rw [← hset]
      exact hkept.clock _
    have hkept' : (c.withSets fun u => c.setFact u ∨ u = set).Kept w₄ j :=
      (hkept.within_region (h₂.trans h₄)).withSets fun u hu => Or.inl (hkept.sets u hu)
    have hadded := hkept'.addSet hreindexed hcreated (Or.inr rfl)
    have hdrawn : Drawn w w₃ set.id := by
      have hlt : w₁.drawn < w₃.drawn := Nat.lt_of_lt_of_le (Nat.lt_succ_self _)
        (Nat.le_trans h₄.drawn hreindexed.within.drawn)
      refine ⟨w₁.drawn, hw.drawn, hlt, ?_⟩
      rw [← hset, hw.ids]
    refine Act.ends_change_bind (Act.ends_pure ⟨members, _, ⟨?_, ?_⟩, hadded.repin fun t b ht => ?_,
      hsub, htaken.later hlater.drawn, ?_, hdrawn⟩)
    · exact { hw.trans hlater with pinned := rfl }
    · rw [hlater.pinned, hw.pinned]
    · exact List.mem_append_left _ (hadded.pinned t b ht)
    · rw [← hset]
  · exact ⟨members, hw.trans (hbelow (h₂.trans h₃)), j, hkept.within_region (h₂.trans h₃), hsub⟩

end Custody

end Amend
