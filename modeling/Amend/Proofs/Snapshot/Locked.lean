import Amend.Proofs.Snapshot.Contention
import Amend.Proofs.Snapshot.Naming
import Amend.Proofs.Snapshot.Protection
import Amend.Proofs.Snapshot.Restore

/-!
# A locked store is left alone

An operation of a store takes several locks, some of them under others and some of them again and
again.  Whichever of them it does not get, no lock is left behind, the lock files of others are what
they were, and nothing else has changed either: once the lock on the index has been taken and given
back, it can be had again, so that only the first attempt on it can fail, and a copy that cannot be
recorded for want of that lock is removed again.

This needs some order in the store.  A snapshot that is said to have its copy among the lock files
takes a lock file with it when it is dropped, and one whose file is a lock file puts that file back.
-/

namespace Amend

open Disk (Frame SameFile)
open FileLocks (Placed Region Released Spares Took)
open Amend.Path (IsName)
open SnapshotStore (IsFree lockLocation)
open World (SameMoment Within momentary_removeFile)

/-! ## Where the copies are -/

namespace World

variable {base : Location} {touched : Location → Prop} {w w' : World} {p : Path}

/-- No link is among the locations. -/
def Linkless (touched : Location → Prop) (w : World) : Prop :=
  ∀ l, touched l → ∀ target, w.disk.at? l ≠ some (.link target)

theorem linkless_nothing (w : World) : Linkless (fun _ => False) w := fun _ => False.elim

/-- A path that is apart from the lock files: as long as no link is changed it leads to one place
only, which is neither a lock file nor a link. -/
def Apart (base : Location) (w : World) (p : Path) : Prop :=
  ∃ l, ¬ Region base l ∧ (∀ target, w.disk.at? l ≠ some (.link target)) ∧
    ∀ touched d, Frame touched w.disk d → Linkless touched w →
      ∀ m, d.locate (w.absolute p) false = .ok m → m = l

theorem Apart.within (h : Apart base w p) (hw : Within touched w w')
    (hlinkless : Linkless touched w) : Apart base w' p := by
  obtain ⟨l, hl, hlink, honly⟩ := h
  have hlink' {m : Location} {target : Path} (hm : w.disk.at? m = some (.link target)) :
      w'.disk.at? m = some (.link target) :=
    hw.frame.eq_of_some (fun ht => hlinkless m ht target hm) hm
  refine ⟨l, hl, fun target hat => hlink target (hw.frame.link l target hat), ?_⟩
  intro more d hframe hmore m hm
  rw [hw.absolute] at hm
  have hall := (hw.frame.mono fun _ => Or.inl).trans (hframe.mono fun _ => Or.inr)
  refine honly (fun l => touched l ∨ more l) d hall ?_ m hm
  rintro k (hk | hk) target hat
  · exact hlinkless k hk target hat
  · exact hmore k hk target (hlink' hat)

/-- A path without links that does not lead to a lock file is apart from all of them. -/
theorem apart_of_plain {l : Location} (hplain : Disk.Plain w.disk (w.absolute p) l)
    (hl : ¬ Region base l) : Apart base w p := by
  refine ⟨l, hl, fun target => hplain.linkFree l List.nil_prefix (List.prefix_refl l) target, ?_⟩
  exact fun _ _ hframe _ _ hm => (hplain.frame hframe).eq_of_locate hm

end World

open World (Apart Linkless linkless_nothing)

namespace SnapshotIndex

variable {base : Location} {w w' : World} {i j : SnapshotIndex}

/-- Every snapshot of the index has its copy apart from the lock files. -/
def Shelves (base : Location) (w : World) (i : SnapshotIndex) : Prop :=
  ∀ t ∈ i.snapshots, Apart base w t.location

theorem shelves_empty : empty.Shelves base w := nofun

theorem Shelves.within {touched : Location → Prop} (h : i.Shelves base w)
    (hw : Within touched w w') (hlinkless : Linkless touched w) : i.Shelves base w' :=
  fun t ht => (h t ht).within hw hlinkless

theorem Shelves.drop (h : i.Shelves base w) (id : Uid) : (i.drop id).Shelves base w :=
  fun t ht => h t (List.mem_of_mem_eraseP ht)

theorem Shelves.add (h : i.Shelves base w) {t : Snapshot} (ht : Apart base w t.location) :
    (i.add t).Shelves base w := by
  intro u hu
  rcases List.mem_append.mp hu with hu | hu
  · exact h u hu
  · rwa [List.mem_singleton.mp hu]

theorem Shelves.of_encode (h : i.Shelves base w) (hj : decode? i.encode = some j) :
    j.Shelves base w := by
  intro t ht
  obtain ⟨s, hs, -, -, hlocation⟩ := exists_of_decode?_encode hj ht
  rw [hlocation]
  exact h s hs

end SnapshotIndex

namespace SnapshotStore

variable {α β : Type} {s : SnapshotStore} {base : Location} {w w' w'' : World}

theorem linkless_below (h : s.locks.Under s.dir base w) {touched : Location → Prop}
    (hbelow : ∀ l, touched l → base <+: l) : Linkless touched w :=
  fun l hl => h.tree.noLinks l (hbelow l hl)

/-- A name in the directory of a store is apart from its lock files. -/
theorem apart_of_name (h : s.locks.Under s.dir base w) {name : String} (hname : IsName name) :
    Apart base w (s.dir ++ name) := by
  refine ⟨base ++ [name], fun hl => ne_concat_of_region hl name rfl,
    h.tree.noLinks _ (List.prefix_append base [name]), fun touched d hframe hlinkless m hm => ?_⟩
  have hpath : w.absolute (s.dir ++ name) = (w.absolute s.dir).join ⟨name⟩ :=
    Path.join_join hname s.dir w.directory
  rw [hpath] at hm
  refine ((h.tree.frame hframe fun k hk ht => ?_).locate_name hname).mp hm |>.1
  obtain ⟨target, hlink⟩ := Disk.mem_linksTo hk
  exact hlinkless k ht target hlink

/-- A store whose directory has no links in it and whose index, as far as it can be read, tells of
copies apart from the lock files only. -/
structure Shelved (s : SnapshotStore) (base : Location) (w : World) : Prop where
  under : s.locks.Under s.dir base w
  shelves : ∀ content mode modified i,
    w.disk.at? (indexLocation base) = some (.file content mode modified) →
      SnapshotIndex.decode? content = some i → i.Shelves base w

namespace Shelved

theorem within {touched : Location → Prop} (h : s.Shelved base w) (hw : Within touched w w')
    (hbelow : ∀ l, touched l → base <+: l) (hindex : ¬ touched (indexLocation base)) :
    s.Shelved base w' where
  under := h.under.within hw hbelow
  shelves := fun content mode modified i hat hi =>
    (h.shelves content mode modified i (hw.frame.file_of_file hindex hat) hi).within hw
      (linkless_below h.under hbelow)

theorem region (h : s.Shelved base w) (hw : Within (Region base) w w') : s.Shelved base w' :=
  h.within hw (fun _ hl => hl.below) fun hl => ne_concat_of_region hl _ rfl

theorem nothing (h : s.Shelved base w) (hw : Within (fun _ => False) w w') : s.Shelved base w' :=
  h.region (hw.mono fun _ => False.elim)

/-! ### The index -/

theorem loadIndex (h : s.Shelved base w) : s.loadIndex.Ends w fun r w' =>
    Within (fun _ => False) w w' ∧ (∀ key, r ≠ .error (.locked key)) ∧
      ∀ i, r = .ok i → i.Shelves base w' := by
  rw [SnapshotStore.loadIndex]
  refine Act.ends_look_bind ?_
  split
  case isTrue =>
    refine (World.ends_readBytes fun _ => False).mapError.bind ?_ ?_
    · rintro bytes w₁ ⟨h₁, -, hread⟩
      cases hdecode : SnapshotIndex.decode? bytes with
      | none => exact Act.ends_throw ⟨h₁, by rintro _ ⟨⟩, by rintro _ ⟨⟩⟩
      | some i =>
        refine Act.ends_pure ⟨h₁, by rintro _ ⟨⟩, fun j hj => ?_⟩
        cases hj
        obtain ⟨l, mode, modified, hl, hat⟩ := Disk.read_eq_ok_iff.mp (hread bytes rfl)
        obtain ⟨rfl, -⟩ := (h.under.locate_name isName_index).mp hl
        exact (h.shelves bytes mode modified i hat hdecode).within h₁ (linkless_nothing w)
    · rintro e w₁ ⟨cause, rfl, h₁, -⟩
      exact ⟨h₁, by rintro _ ⟨⟩, by rintro _ ⟨⟩⟩
  case isFalse =>
    refine Act.ends_pure ⟨.refl w, by rintro _ ⟨⟩, fun i hi => ?_⟩
    cases hi
    exact SnapshotIndex.shelves_empty

/-- A written index tells of no other copies than the one that was to be written. -/
theorem written {i : SnapshotIndex} (h : s.Shelved base w) (hi : i.Shelves base w)
    (hw : w.Written s.indexFile i.encode w') :
    s.Shelved base w' ∧ Within (· = indexLocation base) w w' := by
  obtain ⟨l, mode, modified, hlead, hwithin, hat⟩ := hw
  obtain ⟨rfl, -⟩ := h.under.eq_of_mayLead isName_index hlead
  have hbelow : ∀ l, l = base ++ ["index.json"] → base <+: l := by
    rintro _ rfl
    exact List.prefix_append base _
  refine ⟨⟨h.under.within hwithin hbelow, fun content mode' modified' j hat' hdecode => ?_⟩,
    hwithin⟩
  rw [indexLocation, hat] at hat'
  cases hat'
  exact (hi.of_encode hdecode).within hwithin (linkless_below h.under hbelow)

end Shelved

/-- A store that is kept in order is orderly in this sense: its copies are right in its
directory. -/
theorem shelved_of_kept {c : Custody} {i : SnapshotIndex} (h : c.Kept w i) :
    c.store.Shelved c.base w where
  under := h.under
  shelves := by
    intro content mode modified j hat hj t ht
    have hisAt : j.IsAt c.base w.disk := Or.inl ⟨content, mode, modified, hat, hj⟩
    obtain rfl := hisAt.unique h.isAt
    obtain ⟨_, ⟨name, _, _, hname, -, hlocation, -⟩, -⟩ := h.copies t ht
    rw [hlocation]
    exact apart_of_name h.under hname.isName

/-! ## Steps of an operation -/

/-- The lock on the index can be had at once. -/
def IndexFree (s : SnapshotStore) (base : Location) (w : World) : Prop :=
  IsFree s.locks s.dir base s.indexFile w

/-- What is left by a step that takes its locks as it finds them.  If it does not get them, all
files but the lock files are as before, and if it succeeds, the lock on the index is free. -/
structure Begun (s : SnapshotStore) (base : Location) (w : World) (r : Except SnapshotError α)
    (w' : World) : Prop where
  shelved : s.Shelved base w'
  locksDir : w.disk.at? (base ++ ["locks"]) = some .directory →
    w'.disk.at? (base ++ ["locks"]) = some .directory
  spares : s.locks.Spares base (fun _ => False) w w'
  untouched : w.trouble = [] → ∀ key, r = .error (.locked key) →
    ∀ l, ¬ Region base l → SameFile w.disk w'.disk l
  free : w.trouble = [] → ∀ x, r = .ok x → s.IndexFree base w'

/-- What is left by a step that needs no lock but the one on the index, once that lock is free. -/
structure Continued (s : SnapshotStore) (base : Location) (w : World) (r : Except SnapshotError α)
    (w' : World) : Prop where
  shelved : s.Shelved base w'
  locksDir : w.disk.at? (base ++ ["locks"]) = some .directory →
    w'.disk.at? (base ++ ["locks"]) = some .directory
  spares : s.locks.Spares base (fun _ => False) w w'
  unlocked : s.IndexFree base w → ∀ key, r ≠ .error (.locked key)
  free : s.IndexFree base w → ∀ x, r = .ok x → s.IndexFree base w'

theorem Begun.andThen {x : α} {r : Except SnapshotError β}
    (h : s.Begun base w (.ok x : Except SnapshotError α) w') (h' : s.Continued base w' r w'') :
    s.Begun base w r w'' where
  shelved := h'.shelved
  locksDir := h'.locksDir ∘ h.locksDir
  spares := h.spares.trans h'.spares
  untouched := fun hquiet key hr => absurd hr (h'.unlocked (h.free hquiet x rfl) key)
  free := fun hquiet => h'.free (h.free hquiet x rfl)

theorem Begun.error {e : SnapshotError}
    (h : s.Begun base w (.error e : Except SnapshotError α) w') :
    s.Begun base w (.error e : Except SnapshotError β) w' where
  shelved := h.shelved
  locksDir := h.locksDir
  spares := h.spares
  untouched := fun hquiet key he => h.untouched hquiet key (by rw [Except.error.inj he])
  free := nofun

theorem Continued.andThen {x : α} {r : Except SnapshotError β}
    (h : s.Continued base w (.ok x : Except SnapshotError α) w')
    (h' : s.Continued base w' r w'') : s.Continued base w r w'' where
  shelved := h'.shelved
  locksDir := h'.locksDir ∘ h.locksDir
  spares := h.spares.trans h'.spares
  unlocked := fun hfree => h'.unlocked (h.free hfree x rfl)
  free := fun hfree => h'.free (h.free hfree x rfl)

theorem Continued.error {e : SnapshotError}
    (h : s.Continued base w (.error e : Except SnapshotError α) w') :
    s.Continued base w (.error e : Except SnapshotError β) w' where
  shelved := h.shelved
  locksDir := h.locksDir
  spares := h.spares
  unlocked := fun hfree key he => h.unlocked hfree key (by rw [Except.error.inj he])
  free := nofun

/-- What is left by a step that does not take any lock but that on the index. What it returns has
the property `R`. -/
structure Passed (s : SnapshotStore) (base : Location) (R : α → World → Prop) (w : World)
    (r : Except SnapshotError α) (w' : World) : Prop where
  begun : s.Begun base w r w'
  continued : s.Continued base w r w'
  value : ∀ x, r = .ok x → R x w'

section Bind

variable {a : Act SnapshotError α} {f : α → Act SnapshotError β} {R : α → World → Prop}

theorem continued_pure (h : s.Shelved base w) (x : α) :
    (pure x : Act SnapshotError α).Ends w (s.Continued base w) :=
  Act.ends_pure ⟨h, id, .memory w w.held (Nat.le_refl _), fun _ _ => nofun,
    fun hfree _ _ => hfree⟩

theorem continued_bind (h : a.Ends w (s.Continued base w))
    (hf : ∀ x w', s.Shelved base w' → (f x).Ends w' (s.Continued base w')) :
    (a >>= f).Ends w (s.Continued base w) :=
  h.bind (fun x w' hw' => (hf x w' hw'.shelved).mono fun _ _ hw'' => hw'.andThen hw'')
    fun _ _ hw' => hw'.error

theorem passed_bind (h : a.Ends w (s.Passed base R w))
    (hf : ∀ x w', R x w' → s.Shelved base w' → (f x).Ends w' (s.Continued base w')) :
    (a >>= f).Ends w (s.Passed base (fun _ _ => True) w) :=
  h.bind
    (fun x w' hw' => (hf x w' (hw'.value x rfl) hw'.begun.shelved).mono fun _ _ hw'' =>
      ⟨hw'.begun.andThen hw'', hw'.continued.andThen hw'', fun _ _ => trivial⟩)
    fun _ _ hw' => ⟨hw'.begun.error, hw'.continued.error, nofun⟩

end Bind

/-! ### Under the lock on the index -/

section Index

variable {R : α → World → Prop}

/-- What is done with the index alone needs no other lock than that on the index. -/
theorem Shelved.withIndex (h : s.Shelved base w) {a : Act SnapshotError α} (hmoment : a.Momentary)
    (hR : ∀ {x w w'}, s.locks.Under s.dir base w → Within (base <+: ·) w w' → R x w → R x w')
    (ha : ∀ w₁, s.Shelved base w₁ → a.Ends w₁ fun r w₂ =>
      s.Shelved base w₂ ∧ Within (· = indexLocation base) w₁ w₂ ∧
        (∀ key, r ≠ .error (.locked key)) ∧ ∀ x, r = .ok x → R x w₂) :
    (s.locks.withLock s.indexFile a).Ends w (s.Passed base R w) := by
  refine h.under.between (fun e w₁ hrefused hw₁ hspares => ?_) fun w₁ hw₁ htook => ?_
  · have hshelved := h.region hw₁
    have hdirectory := hw₁.frame.directory (base ++ ["locks"])
    exact ⟨⟨hshelved, hdirectory, hspares, fun _ _ _ l hl => hw₁.frame.sameFile hl,
      fun _ => nofun⟩, ⟨hshelved, hdirectory, hspares,
        fun hfree => absurd hrefused (FileLocks.acquire_ne_error hfree e w₁), fun _ => nofun⟩,
      nofun⟩
  · refine ((ha w₁ (h.region hw₁)).and (hmoment.ends w₁)).mono ?_
    rintro r w₂ ⟨⟨hshelved, hw₂, hunlocked, hvalue⟩, hsame⟩
    have hregion : ∀ l, l = indexLocation base → ¬ Region base l := by
      rintro _ rfl hl
      exact ne_concat_of_region hl _ rfl
    have hbetween : s.locks.Spares base (fun _ => False) w₁ w₂ := .of_within hw₂ hsame hregion
    have hbelow₂ : Within (base <+: ·) w₁ w₂ :=
      hw₂.mono fun l hl => hl ▸ List.prefix_append base _
    refine ⟨htook.placed.within hbelow₂, fun w₃ hreleased => ?_⟩
    have hspares := htook.release hbetween hreleased
    have hfile : ∃ content mode modified,
        w₂.disk.at? (lockLocation base s.indexFile) = some (.file content mode modified) := by
      obtain ⟨content, mode, modified, hat⟩ := htook.filed
      exact ⟨content, mode, modified, hw₂.frame.eq_of_some (ne_lockLocation _ _).symm hat⟩
    have hfree : w.trouble = [] → s.IndexFree base w₃ := fun hquiet =>
      hreleased.isFree (hsame.quiet (htook.spares.quiet hquiet)) hfile
    have hshelved₃ := hshelved.region hreleased.within
    have hdirectory (_ : w.disk.at? (base ++ ["locks"]) = some .directory) :=
      hreleased.placed.locksDir
    exact ⟨⟨hshelved₃, hdirectory, hspares, fun _ key hr => absurd hr (hunlocked key),
      fun hquiet _ _ => hfree hquiet⟩, ⟨hshelved₃, hdirectory, hspares, fun _ => hunlocked,
        fun hindex _ _ => hfree hindex.trouble⟩, fun x hr =>
          hR hshelved.under (hreleased.within.mono fun _ hl => hl.below) (hvalue x hr)⟩

theorem Shelved.index (h : s.Shelved base w) :
    s.index.Ends w (s.Passed base (fun _ _ => True) w) := by
  refine h.withIndex s.momentary_loadIndex (fun _ _ => id) fun w₁ h₁ => h₁.loadIndex.mono ?_
  rintro r w₂ ⟨hw₂, hunlocked, -⟩
  exact ⟨h₁.nothing hw₂, hw₂.mono fun _ => False.elim, hunlocked, fun _ _ => trivial⟩

/-- A change of the index that tells of no copy among the lock files. -/
structure Changes (s : SnapshotStore) (base : Location) (R : α → World → Prop)
    (f : SnapshotIndex → Act SnapshotError (α × SnapshotIndex)) : Prop where
  momentary : ∀ i, (f i).Momentary
  ends : ∀ i w, s.locks.Under s.dir base w → i.Shelves base w → (f i).Ends w fun r w' =>
    Within (fun _ => False) w w' ∧ (∀ key, r ≠ .error (.locked key)) ∧
      ∀ x j, r = .ok (x, j) → j.Shelves base w' ∧ R x w'

theorem Shelved.updateIndex (h : s.Shelved base w)
    {f : SnapshotIndex → Act SnapshotError (α × SnapshotIndex)} (hf : s.Changes base R f)
    (hR : ∀ {x w w'}, s.locks.Under s.dir base w → Within (base <+: ·) w w' → R x w → R x w') :
    (s.updateIndex f).Ends w (s.Passed base R w) := by
  refine h.withIndex ?_ hR fun w₁ h₁ => ?_
  · refine s.momentary_loadIndex.bind fun i => (hf.momentary i).bind fun x => ?_
    exact (momentary_writeFile _ _).mapError.bind fun _ => Act.momentary_pure _
  have hfailed {w₂ : World} (hw₂ : Within (fun _ => False) w₁ w₂) {e : SnapshotError}
      (he : ∀ key, (.error e : Except SnapshotError α) ≠ .error (.locked key)) :
      s.Shelved base w₂ ∧ Within (· = indexLocation base) w₁ w₂ ∧
        (∀ key, (.error e : Except SnapshotError α) ≠ .error (.locked key)) ∧
          ∀ x, (.error e : Except SnapshotError α) = .ok x → R x w₂ :=
    ⟨h₁.nothing hw₂, hw₂.mono fun _ => False.elim, he, nofun⟩
  refine h₁.loadIndex.bind ?_ ?_
  · rintro i w₂ ⟨hw₂, -, hi⟩
    refine (hf.ends i w₂ (h₁.nothing hw₂).under (hi i rfl)).bind ?_ ?_
    · rintro ⟨x, j⟩ w₃ ⟨hw₃, -, hj⟩
      obtain ⟨hshelves, hvalue⟩ := hj x j rfl
      have hw := hw₂.trans hw₃
      have h₃ := h₁.nothing hw
      refine World.ends_writeFile.mapError.bind ?_ ?_
      · rintro _ w₄ hwritten
        obtain ⟨hshelved, hw₄⟩ := h₃.written hshelves hwritten
        refine Act.ends_pure ⟨hshelved, (hw.mono fun _ => False.elim).trans hw₄, nofun, ?_⟩
        rintro _ ⟨⟩
        exact hR h₃.under (hw₄.mono fun l hl => hl ▸ List.prefix_append base _) hvalue
      · rintro e w₄ ⟨cause, rfl, hw₄⟩
        exact hfailed (hw.trans hw₄) nofun
    · rintro e w₃ ⟨hw₃, hunlocked, -⟩
      exact hfailed (hw₂.trans hw₃) fun key he => hunlocked key (by rw [Except.error.inj he])
  · rintro e w₂ ⟨hw₂, hunlocked, -⟩
    exact hfailed hw₂ fun key he => hunlocked key (by rw [Except.error.inj he])

end Index

/-! ### Dropping -/

/-- A file apart from the lock files is removed, or nothing changes. -/
theorem ends_removeApart {p : Path} (h : Apart base w p) :
    (World.removeFile p).Ends w fun r w' => ∃ trouble, match r with
      | .ok _ => ∃ l, ¬ Region base l ∧ l ≠ [] ∧ w.disk.at? l ≠ some .directory ∧
          Linkless (· = l) w ∧ w' = { w with trouble, disk := w.disk.erase l }
      | .error _ => w' = { w with trouble } := by
  obtain ⟨l, hl, hlink, honly⟩ := h
  refine World.ends_diskOperation (fun e trouble => ⟨trouble, rfl⟩) fun trouble d hd => ?_
  obtain ⟨m, e, hm, hat, hdirectory, rfl⟩ := Disk.remove_eq_ok hd
  obtain rfl := honly (fun _ => False) w.disk (Frame.refl _) (linkless_nothing w) m hm
  have hdirectory' : w.disk.at? m ≠ some .directory :=
    fun hat' => hdirectory (Option.some.inj (hat.symm.trans hat'))
  refine ⟨trouble, m, hl, ?_, hdirectory', fun k hk => hk ▸ hlink, rfl⟩
  rintro rfl
  exact hdirectory' rfl

/-- Removing a copy apart from the lock files does not disturb the locks. -/
theorem Shelved.removeCopy (h : s.Shelved base w) {p : Path} (hp : Apart base w p) :
    (removeCopy p).Ends w (s.Continued base w) := by
  have hremoved : (World.removeFile p).Ends w fun _ w' =>
      s.Shelved base w' ∧ (∀ l, w.disk.at? l = some .directory → w'.disk.at? l = some .directory) ∧
        s.locks.Spares base (fun _ => False) w w' ∧
          (s.IndexFree base w → s.IndexFree base w') := by
    refine ((ends_removeApart hp).and ((momentary_removeFile _).ends w)).mono ?_
    rintro (e | _) w' ⟨⟨trouble, hw'⟩, hsame⟩
    · rw [hw'] at hsame ⊢
      have hnothing : Within (fun _ => False) w { w with trouble } := .ofTrouble w trouble
      exact ⟨h.nothing hnothing, fun _ => id,
        .of_within hnothing hsame fun _ (hl : False) => hl.elim,
        fun hfree => ⟨h.under.within hnothing fun _ => False.elim, hfree.locksDir,
          hsame.quiet hfree.trouble, hfree.noFile, hfree.unheld⟩⟩
    · obtain ⟨l, hl, hne, hdirectory, hlinkless, hw'⟩ := hw'
      rw [hw'] at hsame ⊢
      have hframe := Frame.erase hne hdirectory
      have hwithin := Within.ofDisk hframe trouble
      have hunder : s.locks.Under s.dir base { w with trouble, disk := w.disk.erase l } := by
        refine ⟨h.under.tree.frame hframe fun m hm heq => ?_, h.under.dir_eq⟩
        obtain ⟨target, hlink⟩ := Disk.mem_linksTo hm
        exact hlinkless m heq target hlink
      refine ⟨⟨hunder, fun content mode modified i hat hi => ?_⟩, hframe.directory,
        .of_within hwithin hsame fun m hm => hm ▸ hl, fun hfree => ?_⟩
      · have hshelves := h.shelves content mode modified i (Disk.at?_of_erase hat) hi
        exact hshelves.within hwithin hlinkless
      · refine ⟨hunder, hframe.directory _ hfree.locksDir, hsame.quiet hfree.trouble, ?_,
          hfree.unheld⟩
        have hlock : lockLocation base s.indexFile ≠ l := by
          rintro rfl
          exact hl (FileLocks.region_lockLocation _)
        rw [Disk.at?_erase_of_ne w.disk hlock]
        exact hfree.noFile
  rw [SnapshotStore.removeCopy]
  refine hremoved.outcome.bind (fun r w' hw' => ?_) fun e w' hw' => hw'.elim
  obtain ⟨hshelved, hdirectory, hspares, hfree⟩ := hw'
  have hdone : s.Continued base w (.ok () : Except SnapshotError Unit) w' :=
    ⟨hshelved, hdirectory _, hspares, by rintro _ _ ⟨⟩, fun hindex _ _ => hfree hindex⟩
  split
  · exact Act.ends_pure hdone
  · exact Act.ends_pure hdone
  · exact Act.ends_throw ⟨hshelved, hdirectory _, hspares, by rintro _ _ ⟨⟩, by rintro _ _ ⟨⟩⟩

theorem Shelved.delete (h : s.Shelved base w) (id : Uid) :
    (s.delete id).Ends w (s.Passed base (fun _ _ => True) w) := by
  rw [SnapshotStore.delete]
  refine passed_bind (R := fun t w' => Apart base w' t.location) ?_
    fun t w₁ ht h₁ => h₁.removeCopy ht
  refine h.updateIndex ⟨fun i => ?_, fun i w₁ _ hi => ?_⟩ fun hunder hw ht =>
    ht.within hw (linkless_below hunder fun _ hl => hl)
  · split
    · exact Act.momentary_pure _
    · exact Act.momentary_throw _
  · cases hfound : i.find? id with
    | none => exact Act.ends_throw ⟨.refl w₁, by rintro _ ⟨⟩, by rintro _ _ ⟨⟩⟩
    | some t =>
      refine Act.ends_pure ⟨.refl w₁, by rintro _ ⟨⟩, ?_⟩
      rintro _ _ ⟨⟩
      exact ⟨hi.drop id, hi t (SnapshotIndex.mem_of_find? hfound).1⟩

theorem Shelved.deleteAll (h : s.Shelved base w) (ids : List Uid) :
    (ids.forM s.delete).Ends w (s.Continued base w) := by
  induction ids generalizing w with
  | nil => exact continued_pure h ()
  | cons id ids ih =>
    exact continued_bind ((h.delete id).mono fun _ _ hw' => hw'.continued) fun _ _ h₁ => ih h₁

theorem Shelved.retain (h : s.Shelved base w) (file : Path) (keep : Nat) :
    (s.retain file keep).Ends w (s.Passed base (fun _ _ => True) w) := by
  have hlist : (s.listFor file).Ends w (s.Passed base (fun _ _ => True) w) :=
    Act.ends_look_bind (passed_bind h.index fun _ _ _ h₁ => continued_pure h₁ _)
  exact Act.ends_look_bind (passed_bind hlist fun _ _ _ h₁ =>
    continued_bind (h₁.deleteAll _) fun _ _ h₂ => continued_pure h₂ _)

/-! ### Taking a snapshot -/

/-- What comes before may have been nothing but reading. -/
theorem Begun.after {r : Except SnapshotError α} (h : s.Begun base w' r w'')
    (hw : Within (fun _ => False) w w') (hsame : SameMoment w w') : s.Begun base w r w'' where
  shelved := h.shelved
  locksDir := h.locksDir ∘ hw.frame.directory _
  spares := (Spares.of_within hw hsame fun _ (hl : False) => hl.elim).trans h.spares
  untouched := fun hquiet key hr l hl =>
    (hw.frame.sameFile id).trans (h.untouched (hsame.quiet hquiet) key hr l hl)
  free := fun hquiet => h.free (hsame.quiet hquiet)

/-- A failure that is not the want of a lock. -/
theorem Shelved.begun_nothing (h : s.Shelved base w) (hw : Within (fun _ => False) w w')
    (hsame : SameMoment w w') {e : SnapshotError} (he : ∀ key, e ≠ .locked key) :
    s.Begun base w (.error e : Except SnapshotError α) w' where
  shelved := h.nothing hw
  locksDir := hw.frame.directory _
  spares := .of_within hw hsame fun _ (hl : False) => hl.elim
  untouched := fun _ key hr => absurd (Except.error.inj hr) (he key)
  free := fun _ => nofun

/-- What is done under a lock on something else than the index. -/
theorem Begun.released {key : Path} {r : Except SnapshotError α} {w₁ w₂ w₃ : World}
    (h : s.Begun base w₁ r w₂) (hw : Within (Region base) w w₁)
    (htook : s.locks.Took s.dir base key w w₁)
    (hreleased : s.locks.Released s.dir base key w₂ w₃) : s.Begun base w r w₃ where
  shelved := h.shelved.region hreleased.within
  locksDir := fun _ => hreleased.placed.locksDir
  spares := htook.release h.spares hreleased
  untouched := fun hquiet k hr l hl =>
    ((hw.frame.sameFile hl).trans (h.untouched (htook.spares.quiet hquiet) k hr l hl)).trans
      (hreleased.within.frame.sameFile hl)
  free := fun hquiet x hr => hreleased.isFree_other (h.free (htook.spares.quiet hquiet) x hr)

/-- A copy goes where it is to go or nowhere. -/
theorem ends_writeCopy (h : s.locks.Under s.dir base w) {name : String} (hname : IsName name)
    {bytes : ByteArray} : (writeFile (s.dir ++ name) bytes).Ends w fun r w' =>
      match r with
      | .ok _ => Fits name ∧ Within (· = base ++ [name]) w w' ∧ ∃ mode modified,
          w'.disk.at? (base ++ [name]) = some (.file bytes mode modified)
      | .error _ => Within (fun _ => False) w w' := by
  refine World.ends_writeFile.mono ?_
  rintro (e | _) w' hw'
  · exact hw'
  · obtain ⟨l, mode, modified, hlead, hwithin, hat⟩ := hw'
    obtain ⟨rfl, hfits⟩ := h.eq_of_mayLead hname hlead
    exact ⟨hfits, hwithin, mode, modified, hat⟩

/-- A copy that is there is removed if the system does not refuse it. -/
theorem ends_removeCopy_of_file (h : s.locks.Under s.dir base w) (hquiet : w.trouble = [])
    {name : String} (hname : IsName name) (hfits : Fits name) {bytes : ByteArray}
    {mode modified : Nat}
    (hfile : w.disk.at? (base ++ [name]) = some (.file bytes mode modified)) :
    (removeCopy (s.dir ++ name)).Ends w fun _ w' =>
      w'.disk = w.disk.erase (base ++ [name]) := by
  have hremove : (World.removeFile (s.dir ++ name)).Yields w fun _ w' =>
      w'.disk = w.disk.erase (base ++ [name]) :=
    World.yields_diskOperation hquiet
      (Disk.remove_of_file ((h.locate_name hname).mpr ⟨rfl, hfits⟩) hfile) rfl
  rw [SnapshotStore.removeCopy]
  refine Act.Yields.bind_ends hremove.outcome ?_
  rintro _ w' ⟨_, rfl, hw'⟩
  exact Act.ends_pure hw'

/-- A name that leads to nothing has no file. -/
theorem ne_file_of_free (h : s.locks.Under s.dir base w) {name : String} (hname : IsName name)
    (hfits : Fits name) (hfree : w.pathExists (s.dir ++ name) = false) {bytes : ByteArray}
    {mode modified : Nat} : w.disk.at? (base ++ [name]) ≠ some (.file bytes mode modified) := by
  intro hat
  have hstat : w.disk.stat (w.absolute (s.dir ++ name)) = .ok (.file bytes mode modified) :=
    Disk.stat_eq_ok_iff.mpr ⟨_, (h.locate_name hname).mpr ⟨rfl, hfits⟩, hat⟩
  rw [World.pathExists, Disk.pathExists, hstat] at hfree
  cases hfree

/-- A copy under a free name is written and recorded.  If it cannot be recorded, it is removed
again. -/
theorem Shelved.copy (h : s.Shelved base w) {name : String} (hname : IsCopyName name)
    (hfree : w.pathExists (s.dir ++ name) = false) {bytes : ByteArray}
    {f : SnapshotIndex → Act SnapshotError (Snapshot × SnapshotIndex)}
    (hf : s.Changes base (fun _ _ => True) f) :
    (do
      (writeFile (s.dir ++ name) bytes).mapError .write
      match ← (s.updateIndex f).outcome with
      | .ok t => return t
      | .error e =>
        let _ ← (SnapshotStore.removeCopy (s.dir ++ name)).outcome
        throw e : Act SnapshotError Snapshot).Ends w (s.Begun base w) := by
  refine ((ends_writeCopy h.under hname.isName).and
    ((momentary_writeFile _ _).ends w)).mapError.bind ?_ ?_
  · rintro _ w₁ ⟨⟨hfits, hw₁, mode, modified, hat⟩, hsame₁⟩
    have hbelow : ∀ l, l = base ++ [name] → base <+: l :=
      fun l hl => hl ▸ List.prefix_append base [name]
    have hindex : indexLocation base ≠ base ++ [name] := fun heq =>
      hname.ne_index (List.cons.inj (List.append_cancel_left heq)).1.symm
    have h₁ := h.within hw₁ hbelow hindex
    have hspares₁ : s.locks.Spares base (fun _ => False) w w₁ :=
      .of_within hw₁ hsame₁ fun l hl hregion => ne_concat_of_region hregion name hl
    refine (h₁.updateIndex hf fun _ _ => id).outcome.bind (fun r w₂ h₂ => ?_) fun e w₂ h₂ => h₂.elim
    have hdirectory₂ := h₂.begun.locksDir ∘ hw₁.frame.directory (base ++ ["locks"])
    have hspares₂ := hspares₁.trans h₂.begun.spares
    cases r with
    | ok t =>
      exact Act.ends_pure ⟨h₂.begun.shelved, hdirectory₂, hspares₂, fun _ _ => nofun,
        fun hquiet => h₂.begun.free (hsame₁.quiet hquiet)⟩
    | error e =>
      have hundone : (SnapshotStore.removeCopy (s.dir ++ name)).Ends w₂ fun _ w₃ =>
          (w.trouble = [] ∧ ∃ key, e = .locked key) →
            ∀ l, ¬ Region base l → SameFile w.disk w₃.disk l := by
        refine Act.ends_imp fun ⟨hquiet, key, he⟩ => ?_
        have hquiet₁ := hsame₁.quiet hquiet
        have hsame₂ := h₂.begun.untouched hquiet₁ key (by rw [he])
        have hregion : ¬ Region base (base ++ [name]) := fun hl => ne_concat_of_region hl name rfl
        refine (ends_removeCopy_of_file h₂.begun.shelved.under (h₂.begun.spares.quiet hquiet₁)
          hname.isName hfits ((hsame₂ _ hregion _ _ _).mpr hat)).mono fun _ w₃ herased l hl => ?_
        by_cases heq : l = base ++ [name]
        · intro content mode' modified'
          rw [heq, herased, Disk.at?_erase_self _ _ (by simp)]
          exact ⟨nofun, fun hat' => absurd hat' (ne_file_of_free h.under hname.isName hfits hfree)⟩
        · refine ((hw₁.frame.sameFile heq).trans (hsame₂ l hl)).trans (.of_eq ?_)
          rw [herased, Disk.at?_erase_of_ne _ heq]
      have hapart := apart_of_name h₂.begun.shelved.under hname.isName
      refine ((h₂.begun.shelved.removeCopy hapart).and hundone).outcome.bind
        (fun r w₃ h₃ => Act.ends_throw ?_) fun e w₃ h₃ => h₃.elim
      obtain ⟨hremoved, hsame₃⟩ := h₃
      exact ⟨hremoved.shelved, hremoved.locksDir ∘ hdirectory₂, hspares₂.trans hremoved.spares,
        fun hquiet key he => hsame₃ ⟨hquiet, key, Except.error.inj he⟩, fun _ => nofun⟩
  · rintro e w₁ ⟨cause, rfl, hw₁, hsame₁⟩
    exact h.begun_nothing hw₁ hsame₁ nofun

/-- A copy is recorded or, if it cannot be recorded, removed again. -/
theorem Shelved.record (h : s.Shelved base w) (source : Path) :
    (s.record source).Ends w (s.Begun base w) := by
  refine h.under.between (fun e w₁ _ hw₁ hspares => ?_) fun w₁ hw₁ htook => ?_
  · exact ⟨h.region hw₁, hw₁.frame.directory _, hspares,
      fun _ _ _ l hl => hw₁.frame.sameFile hl, fun _ => nofun⟩
  have h₁ := h.region hw₁
  have hbody : ∀ (r : Except SnapshotError Snapshot) w₂, s.Begun base w₁ r w₂ →
      Placed s.locks s.dir base w₂ ∧ ∀ w₃, Released s.locks s.dir base source w₂ w₃ →
        s.Begun base w r w₃ := fun r w₂ h₂ =>
    ⟨⟨h₂.shelved.under, h₂.locksDir htook.placed.locksDir⟩,
      fun w₃ hreleased => h₂.released hw₁ htook hreleased⟩
  refine Act.Ends.mono ?_ hbody
  refine ((World.ends_readBytes fun _ => False).and
    ((World.momentary_readBytes source).ends w₁)).mapError.bind ?_ ?_
  · rintro bytes w₂ ⟨⟨hw₂, -, -⟩, hsame₂⟩
    refine World.ends_readClock_bind (Act.ends_look_bind ?_)
    generalize hv : { w₂ with readings := w₂.readings + 1 } = v
    have hwv : Within (fun _ => False) w₁ v := by
      rw [← hv]
      exact hw₂.trans ⟨Frame.refl _, rfl, rfl, rfl, Nat.le_refl _, rfl⟩
    have hsamev : SameMoment w₁ v := by
      rw [← hv]
      exact ⟨hsame₂.now, hsame₂.held, hsame₂.quiet⟩
    have hshelved := h₁.nothing hwv
    obtain ⟨name, hname, hlocation, hfree⟩ :=
      locationFor_eq hshelved.under source (w₂.clock w₂.readings)
    rw [hlocation]
    refine (hshelved.copy hname hfree ⟨fun i => ?_, fun i w₃ hunder hi => ?_⟩).mono
      fun r w₃ h₃ => h₃.after hwv hsamev
    · exact World.momentary_drawId.bind fun id => Act.momentary_pure _
    · have hdrawn : Within (fun _ => False) w₃ { w₃ with drawn := w₃.drawn + 1 } :=
        ⟨Frame.refl _, rfl, rfl, rfl, Nat.le_succ _, rfl⟩
      refine World.ends_drawId_bind (Act.ends_pure ⟨hdrawn, nofun, ?_⟩)
      rintro _ _ ⟨⟩
      have hadded := hi.within hdrawn (linkless_nothing w₃)
      exact ⟨hadded.add (apart_of_name (hunder.within hdrawn fun _ => False.elim) hname.isName),
        trivial⟩
  · rintro e w₂ ⟨cause, rfl, ⟨hw₂, -, -⟩, hsame₂⟩
    exact h₁.begun_nothing hw₂ hsame₂ nofun

theorem Shelved.create (h : s.Shelved base w) (file : Path) :
    (s.create file).Ends w (s.Begun base w) := by
  refine Act.ends_look_bind (Act.ends_look_bind ?_)
  split
  · refine (h.record _).bind (fun t w₁ h₁ => ?_) fun e w₁ h₁ => h₁.error
    have hretained : (s.retain (w.identity file) s.kept).Ends w₁ (s.Continued base w₁) :=
      (h₁.shelved.retain _ _).mono fun _ _ hw' => hw'.continued
    refine (continued_bind hretained fun _ w₂ h₂ => continued_pure h₂ t).mono ?_
    exact fun _ _ hw' => h₁.andThen hw'
  · exact Act.ends_throw (h.begun_nothing (.refl w) (.refl w) nofun)

/-! ### Marking and putting back -/

theorem Shelved.markRestored (h : s.Shelved base w) (id : Uid) :
    (s.markRestored id).Ends w (s.Passed base (fun _ _ => True) w) := by
  refine h.updateIndex ⟨fun i => ?_, fun i w₁ _ hi => ?_⟩ fun _ _ _ => trivial
  · split
    · exact World.momentary_readClock.bind fun t => Act.momentary_pure _
    · exact Act.momentary_throw _
  · cases i.find? id with
    | none => exact Act.ends_throw ⟨.refl w₁, nofun, nofun⟩
    | some t =>
      have hread : Within (fun _ => False) w₁ { w₁ with readings := w₁.readings + 1 } :=
        ⟨Frame.refl _, rfl, rfl, rfl, Nat.le_refl _, rfl⟩
      refine World.ends_readClock_bind (Act.ends_pure ⟨hread, nofun, ?_⟩)
      rintro _ _ ⟨⟩
      exact ⟨hi.within hread (linkless_nothing w₁), trivial⟩

/-- A path that leads neither to a lock file nor to a link on the way to the store, whatever lock
files come and go and whatever directories are created. -/
def Avoids (s : SnapshotStore) (base : Location) (w : World) (p : Path) : Prop :=
  ∀ d l, Frame (Region base) w.disk d → d.locate (w.absolute p) false = .ok l →
    ¬ Region base l ∧ l ∉ w.disk.linksTo (w.absolute s.dir)

/-- A path that is apart from the lock files keeps clear of the way to the store too. -/
theorem avoids_of_apart (h : s.locks.Under s.dir base w) {p : Path} (hp : Apart base w p) :
    s.Avoids base w p := by
  obtain ⟨l, hl, hlink, honly⟩ := hp
  intro d m hframe hm
  obtain rfl := honly _ d hframe (linkless_below h fun _ hl => hl.below) m hm
  refine ⟨hl, fun hlinks => ?_⟩
  obtain ⟨target, hat⟩ := Disk.mem_linksTo hlinks
  exact hlink target hat

section Restore

variable {w₁ v : World} {p : Path}

/-- Where things stand under the lock on a file that is put back: the lock files since the lock was
taken, and that the failure is not the want of a lock. -/
structure Underway (s : SnapshotStore) (base : Location) (w₁ : World) (r : Except SnapshotError α)
    (v : World) : Prop where
  placed : Placed s.locks s.dir base v
  spares : s.locks.Spares base (fun _ => False) w₁ v
  unlocked : ∀ key, r ≠ .error (.locked key)

theorem Underway.nothing {x : α} {r : Except SnapshotError β}
    (h : s.Underway base w₁ (.ok x : Except SnapshotError α) v)
    (hw : Within (fun _ => False) v w') (hsame : SameMoment v w')
    (hr : ∀ key, r ≠ .error (.locked key)) : s.Underway base w₁ r w' :=
  ⟨h.placed.within (hw.mono fun _ => False.elim),
    h.spares.trans (.of_within hw hsame fun _ (hl : False) => hl.elim), hr⟩

/-- Reading a file. -/
theorem Underway.read {x : α} (h : s.Underway base w₁ (.ok x : Except SnapshotError α) v)
    (p : Path) : ((World.readBytes p).mapError (SnapshotError.io p)).Ends v fun r v' =>
      s.Underway base w₁ r v' ∧ Within (fun _ => False) v v' := by
  refine ((World.ends_readBytes fun _ => False).and
    ((World.momentary_readBytes p).ends v)).mapError.mono ?_
  rintro (e | bytes) v' hv'
  · obtain ⟨cause, rfl, ⟨hw, -, -⟩, hsame⟩ := hv'
    exact ⟨h.nothing hw hsame nofun, hw⟩
  · obtain ⟨⟨hw, -, -⟩, hsame⟩ := hv'
    exact ⟨h.nothing hw hsame nofun, hw⟩

/-- Writing the file over which a snapshot is put back. -/
theorem Underway.write {x : α} (h : s.Underway base w₁ (.ok x : Except SnapshotError α) v)
    (hunder : s.locks.Under s.dir base w) (havoids : s.Avoids base w p)
    (hw : Within (Region base) w v) (bytes : ByteArray) :
    ((writeFile p bytes).mapError SnapshotError.write).Ends v (s.Underway base w₁) := by
  refine (World.ends_writeFile.and ((momentary_writeFile _ _).ends v)).mapError.mono ?_
  rintro (e | _) v' hv'
  · obtain ⟨cause, rfl, hwritten, hsame⟩ := hv'
    exact h.nothing hwritten hsame nofun
  · obtain ⟨⟨l, mode, modified, ⟨d, hframe, hlocate⟩, hwritten, -⟩, hsame⟩ := hv'
    rw [hw.absolute] at hlocate
    obtain ⟨hregion, hlink⟩ :=
      havoids d l (hw.frame.trans (hframe.mono fun _ => False.elim)) hlocate
    rw [← hunder.linksTo_eq hw fun _ hl => hl.below] at hlink
    have hunder' : s.locks.Under s.dir base v' := by
      refine ⟨?_, hunder.dir_eq⟩
      rw [hwritten.absolute]
      exact h.placed.under.tree.frame hwritten.frame fun m hm heq => hlink (heq ▸ hm)
    exact ⟨⟨hunder', hwritten.frame.directory _ h.placed.locksDir⟩,
      h.spares.trans (.of_within hwritten hsame fun m hm hl => hregion (hm ▸ hl)), nofun⟩

end Restore

/-! ## Whole operations -/

/-- What an operation leaves of the lock files and, where it fails for want of a lock, of all other
files. -/
structure Unharmed (s : SnapshotStore) (base : Location) (w : World)
    (r : Except SnapshotError α) (w' : World) : Prop where
  /-- The lock files that are still fresh in the end are what they were. -/
  fresh : ∀ file content mode modified,
    w.disk.at? (base ++ ["locks", file]) = some (.file content mode modified) →
      w'.now ≤ modified + s.locks.staleMs →
        w'.disk.at? (base ++ ["locks", file]) = some (.file content mode modified)
  /-- There are no other lock files than before, if the system refuses nothing. -/
  old : w.trouble = [] → ∀ file content mode modified,
    w'.disk.at? (base ++ ["locks", file]) = some (.file content mode modified) →
      w.disk.at? (base ++ ["locks", file]) = some (.file content mode modified)
  untouched : w.trouble = [] → ∀ key, r = .error (.locked key) →
    ∀ l, ¬ Region base l → SameFile w.disk w'.disk l

theorem unharmed_of_spares {r : Except SnapshotError α}
    (h : s.locks.Spares base (fun _ => False) w w')
    (huntouched : w.trouble = [] → ∀ key, r = .error (.locked key) →
      ∀ l, ¬ Region base l → SameFile w.disk w'.disk l) : s.Unharmed base w r w' where
  fresh := fun file => h.fresh _ ⟨file, rfl⟩
  old := fun hquiet file => h.old hquiet _ ⟨file, rfl⟩ id
  untouched := huntouched

theorem Begun.unharmed {r : Except SnapshotError α} (h : s.Begun base w r w') :
    s.Unharmed base w r w' := unharmed_of_spares h.spares h.untouched

/-- Putting back fails for want of its one lock before anything is written. -/
theorem restore_unharmed (h : s.locks.Under s.dir base w) {t : Snapshot}
    (havoids : s.Avoids base w t.source) : (s.restore t).Ends w (s.Unharmed base w) := by
  refine h.between (fun e w₁ _ hw₁ hspares => ?_) fun w₁ hw₁ htook => ?_
  · exact unharmed_of_spares hspares fun _ _ _ l hl => hw₁.frame.sameFile hl
  refine Act.Ends.mono (P := s.Underway base w₁) ?_ fun r w₂ h₂ =>
    ⟨h₂.placed, fun w₃ hreleased => unharmed_of_spares (htook.release h₂.spares hreleased)
      fun _ key hr => absurd hr (h₂.unlocked key)⟩
  have h₁ : s.Underway base w₁ (.ok ()) w₁ :=
    ⟨htook.placed, .memory w₁ w₁.held (Nat.le_refl _), nofun⟩
  have hfailed {v : World} {x : ByteArray} {e : SnapshotError}
      (h : s.Underway base w₁ (.ok x) v) (he : ∀ key, e ≠ .locked key) :
      s.Underway base w₁ (.error e : Except SnapshotError Unit) v :=
    ⟨h.placed, h.spares, fun key hr => he key (Except.error.inj hr)⟩
  refine (h₁.read t.location).bind ?_ ?_
  · rintro bytes w₂ ⟨h₂, hw₂⟩
    refine Custody.ends_checked ?_ (hfailed h₂ nofun)
    refine (h₂.write h havoids (hw₁.trans (hw₂.mono fun _ => False.elim)) bytes).bind ?_ ?_
    · intro _ w₃ h₃
      refine (h₃.read t.source).bind ?_ ?_
      · rintro written w₄ ⟨h₄, -⟩
        have hdone : s.Underway base w₁ (.ok ()) w₄ := ⟨h₄.placed, h₄.spares, nofun⟩
        dsimp only
        split
        · exact Custody.ends_mismatch hdone (hfailed h₄ nofun)
        · exact Act.ends_pure hdone
      · rintro e w₄ ⟨h₄, -⟩
        exact ⟨h₄.placed, h₄.spares, fun key hr => h₄.unlocked key (by rw [Except.error.inj hr])⟩
    · intro e w₃ h₃
      exact h₃
  · rintro e w₂ ⟨h₂, -⟩
    exact ⟨h₂.placed, h₂.spares, fun key hr => h₂.unlocked key (by rw [Except.error.inj hr])⟩

/-- What a store may be asked to do with one file under locks. -/
inductive Request where
  | create (file : Path)
  | delete (id : Uid)
  | restore (t : Snapshot)
  | retain (file : Path) (keep : Nat)
  | markRestored (id : Uid)

namespace Request

/-- The operation that is asked for. What it returns if it succeeds does not matter. -/
def act (s : SnapshotStore) : Request → Act SnapshotError Unit
  | .create file => do let _ ← s.create file
  | .delete id => s.delete id
  | .restore t => s.restore t
  | .retain file keep => do let _ ← s.retain file keep
  | .markRestored id => s.markRestored id

/-- What is put back, if anything, keeps clear of the lock files and of the way to the store. -/
def Avoids (s : SnapshotStore) (base : Location) (w : World) : Request → Prop
  | .restore t => s.Avoids base w t.source
  | _ => True

theorem balanced_act (s : SnapshotStore) (q : Request) : (q.act s).Balanced := by
  cases q with
  | create file => exact (s.balanced_create file).bind fun _ => Act.balanced_pure _
  | delete id => exact s.balanced_delete id
  | restore t => exact s.balanced_restore t
  | retain file keep => exact (s.balanced_retain file keep).bind fun _ => Act.balanced_pure _
  | markRestored id => exact s.balanced_markRestored id

end Request

theorem Shelved.unharmed (h : s.Shelved base w) {q : Request} (hq : q.Avoids s base w) :
    (q.act s).Ends w (s.Unharmed base w) := by
  have hdiscard {α : Type} {a : Act SnapshotError α} (ha : a.Ends w (s.Begun base w)) :
      (do let _ ← a : Act SnapshotError Unit).Ends w (s.Unharmed base w) := by
    refine ha.bind (fun x w' hw' => Act.ends_pure ?_) fun e w' hw' => hw'.error.unharmed
    exact unharmed_of_spares hw'.spares fun _ _ => nofun
  cases q with
  | create file => exact hdiscard (h.create file)
  | delete id => exact (h.delete id).mono fun _ _ hw' => hw'.begun.unharmed
  | restore t => exact restore_unharmed h.under hq
  | retain file keep => exact hdiscard ((h.retain file keep).mono fun _ _ hw' => hw'.begun)
  | markRestored id => exact (h.markRestored id).mono fun _ _ hw' => hw'.begun.unharmed

/-- The lock file of a key whose name has been worked out. -/
theorem fileOf_of_lockName {key : Path} {name : String} (h : lockName key = name) (l : FileLocks) :
    l.fileOf key = l.dir.join ⟨name⟩ := by
  rw [← h]
  rfl

/-- The attempts on the lock file of a key whose name has been worked out: a run of them does not
work out the digest again. -/
theorem takeFile_of_lockName {key : Path} {name : String} (h : lockName key = name) (l : FileLocks)
    (deadline fuel : Nat) :
    l.takeFile key deadline fuel = fuel.rec (motive := fun _ => Act SnapshotError Unit)
      (throw (.locked key)) fun _ again => l.attempt (l.dir.join ⟨name⟩) >>= fun tried =>
        tried.casesOn (motive := fun _ => Act SnapshotError Unit) (pure ()) again
          (Act.look (fun w => decide (w.now ≥ deadline)) >>= fun late =>
            if late then throw (.locked key)
            else World.sleep FileLocks.retryMs >>= fun _ => again)
          fun e => throw (.io (l.dir.join ⟨name⟩) e) := by
  induction fuel with
  | zero => rfl
  | succ fuel ih =>
    rw [FileLocks.takeFile, ih, fileOf_of_lockName h]
    refine congrArg (l.attempt (l.dir.join ⟨name⟩) >>= ·) (funext fun tried => ?_)
    cases tried with
    | taken | broken | busy | failed e => rfl

/-- A store that does not wait for locks. -/
def hastyStore : SnapshotStore where
  dir := ⟨"/s"⟩
  kept := 1
  policy := .advisory
  locks := { dir := ⟨"/s/locks"⟩, staleMs := 1000, waitMs := 0 }

/-- The world of that store with some more entries. -/
def hastyWorld (entries : List (Location × Entry)) : World where
  disk := ⟨(["s"], .directory) :: (["s", "locks"], .directory) :: entries⟩
  directory := ⟨"/"⟩
  clock := fun _ => stoppedTime
  ids := .ofNat

/-- The file to which nothing was written yet. -/
def emptyFile : Entry := .file "".toUTF8 0o644 0

/-- A world in which another process holds the lock on the index. -/
def contestedWorld : World :=
  hastyWorld [(["A"], emptyFile), (["s", "locks", lockName hastyStore.indexFile], emptyFile)]

/-- A snapshot of an empty file. -/
def emptySnapshot (source location : Path) : Snapshot :=
  { id := .ofNat 0, source, location, checksum := "", createdAt := stoppedTime, size := 0
    sequence := 0 }

theorem noLinks_contestedWorld (l : Location) (target : Path) :
    contestedWorld.disk.at? l ≠ some (.link target) := by
  refine Disk.noLinks_of_entries (fun p hp target => ?_) l target
  simp only [contestedWorld, hastyWorld, List.mem_cons, List.not_mem_nil, or_false] at hp
  rcases hp with rfl | rfl | rfl | rfl <;> exact nofun

theorem shelved_contestedWorld : hastyStore.Shelved ["s"] contestedWorld where
  under := ⟨⟨rfl, rfl, rfl, fun l _ => noLinks_contestedWorld l⟩, rfl⟩
  shelves := by
    intro content mode modified i hat
    have hnone : contestedWorld.disk.at? (indexLocation ["s"]) = none := by
      simp [contestedWorld, hastyWorld, indexLocation, Disk.at?, List.lookup_cons]
    rw [hnone] at hat
    cases hat

theorem avoids_contestedWorld : hastyStore.Avoids ["s"] contestedWorld ⟨"/A"⟩ :=
  avoids_of_apart shelved_contestedWorld.under
    (World.apart_of_plain ⟨by decide, fun m _ _ => noLinks_contestedWorld m⟩
      fun hl => absurd hl.below (show ¬ ["s"] <+: ["A"] by decide))

/-- A world in which a copy is there and no lock file. -/
def strayWorld : World := hastyWorld [(["s", "c"], emptyFile)]

/-- The file of an index that has a snapshot with that copy. -/
def indexNaming (location : String) : Entry :=
  let snapshot := "\"id\":\"00000000-0000-0000-0000-000000000000\",\"original\":\"\"," ++
    "\"location\":\"" ++ location ++ "\",\"checksum\":\"\",\"size\":0,\"sequence\":0," ++
    "\"created_at\":\"2024-05-06T07:08:09Z\""
  .file ("\x7b\"snapshots\":[\x7b" ++ snapshot ++ "\x7d]\x7d").toUTF8 0o644 0

/-- A world in which the fresh lock file of another process is said to be a copy. -/
def forgedWorld : World :=
  hastyWorld [(["s", "locks", "a"], emptyFile), (["s", "index.json"], indexNaming "/s/locks/a")]

/-- A world in which the lock files are reached through a link that is said to be a copy. -/
def shortcutWorld : World :=
  { hastyWorld [] with
    disk := ⟨[(["s"], .directory), (["s", "locks"], .link ⟨"/s/c"⟩), (["s", "c"], .link ⟨"/r"⟩),
      (["r"], .directory), (["r", "a"], emptyFile), (["s", "index.json"], indexNaming "/s/c")]⟩ }

/-- A store that is reached through a link. -/
def detourStore : SnapshotStore :=
  { hastyStore with
    dir := ⟨"/l/s"⟩
    locks := { hastyStore.locks with dir := ⟨"/l/s/locks"⟩ } }

/-- The world of that store, with a copy in it. -/
def detourWorld : World :=
  { hastyWorld [] with
    disk := ⟨[(["l"], .link ⟨"/r"⟩), (["r"], .directory), (["r", "s"], .directory),
      (["r", "s", "locks"], .directory), (["r", "s", "c"], emptyFile)]⟩ }

/-- A world in which the system refuses to remove a lock file after it was created. -/
def refusingWorld : World :=
  { hastyWorld [] with trouble := [none, none, some .permissionDenied] }

end SnapshotStore

end Amend
