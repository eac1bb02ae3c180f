import Mathlib.Data.List.Nodup
import Amend.Proofs.Plan
import Amend.Proofs.Snapshot.Protection
import Amend.Proofs.Workflow.File
import Amend.Workflow.Run

/-!
# What a backup secures

Before a run writes anything it takes a snapshot of every file that it may write.  From then on the
store has the bytes that each of these files had at the start, whatever the run does to the files.
A backup that fails has changed nothing outside the directory of the store.
-/

namespace Amend

open Disk (Frame Plain)
open World (Within)
open FileLocks (Region)

/-! ## Changes -/

namespace World

variable {touched more : Location → Prop} {w w' w'' : World} {p : Path} {l : Location}

/-- A world after changes at no more than the given locations.  None of them made a link. -/
structure Changed (touched : Location → Prop) (w w' : World) : Prop where
  directory : w'.directory = w.directory
  link : ∀ l target, w'.disk.at? l = some (.link target) → w.disk.at? l = some (.link target)
  same : ∀ l, ¬ touched l → w'.disk.at? l = w.disk.at? l ∨
    w.disk.at? l = none ∧ w'.disk.at? l = some .directory

theorem Within.changed (h : Within touched w w') : Changed touched w w' :=
  ⟨h.directory, h.frame.link, h.frame.same⟩

namespace Changed

theorem refl (w : World) : Changed touched w w := (Within.refl w).changed

theorem trans (h : Changed touched w w') (h' : Changed touched w' w'') : Changed touched w w'' where
  directory := h'.directory.trans h.directory
  link := fun l target hl => h.link l target (h'.link l target hl)
  same := by
    intro l hl
    rcases h'.same l hl with heq | ⟨hnone, hdirectory⟩
    · rw [heq]
      exact h.same l hl
    · rcases h.same l hl with heq | ⟨-, hdir⟩
      · exact Or.inr ⟨heq.symm.trans hnone, hdirectory⟩
      · rw [hnone] at hdir
        cases hdir

theorem mono (h : Changed touched w w') (hsub : ∀ l, touched l → more l) : Changed more w w' :=
  { h with same := fun l hl => h.same l fun ht => hl (hsub l ht) }

theorem absolute (h : Changed touched w w') (p : Path) : w'.absolute p = w.absolute p := by
  rw [World.absolute, h.directory, World.absolute]

/-- Without new links a plain path stays plain. -/
theorem plain (h : Changed touched w w') (hp : Plain w.disk (w.absolute p) l) :
    Plain w'.disk (w'.absolute p) l := by
  rw [h.absolute]
  exact ⟨hp.components, fun m hbase hm target ht => hp.linkFree m hbase hm target (h.link m _ ht)⟩

theorem plain_path (h : Changed touched w w') (hp : Plain w.disk l.path l) :
    Plain w'.disk l.path l := by
  have hthere := h.plain (p := l.path) (l := l)
  rw [absolute_path, absolute_path] at hthere
  exact hthere hp

theorem file_of_file (h : Changed touched w w') (hl : ¬ touched l) {content : ByteArray}
    {mode modified : Nat} (hat : w'.disk.at? l = some (.file content mode modified)) :
    w.disk.at? l = some (.file content mode modified) := by
  rcases h.same l hl with heq | ⟨-, hdirectory⟩
  · rw [← heq, hat]
  · rw [hdirectory] at hat
    cases hat

end Changed

/-- What a plain path to a place outside a directory led to is a file with that content. -/
def HasBytes (w : World) (base : Location) (p : Path) (content : ByteArray) : Prop :=
  ∀ l, Plain w.disk (w.absolute p) l → ¬ base <+: l →
    ∃ mode modified, w.disk.at? l = some (.file content mode modified)

/-- The identifiers to come are new to an index. -/
structure DrawsNew (w : World) (i : SnapshotIndex) : Prop where
  snapshots : ∀ n, w.drawn ≤ n → ∀ t ∈ i.snapshots, t.id ≠ w.ids n
  sets : ∀ n, w.drawn ≤ n → ∀ u ∈ i.sets, u.id ≠ w.ids n

/-- None of the identifiers that are drawn next, up to a given number, is ever drawn again. -/
def DrawsOnce (w : World) (last : Nat) : Prop :=
  ∀ m n, w.drawn ≤ m → m < last → m < n → w.ids m ≠ w.ids n

theorem DrawsOnce.mono {m n : Nat} (h : w.DrawsOnce n) (hmn : m ≤ n) : w.DrawsOnce m :=
  fun k l hk hlt hkl => h k l hk (Nat.lt_of_lt_of_le hlt hmn) hkl

end World

/-- A location that an action of a plan may write. -/
def Plan.MayWrite (p : Plan) (w : World) (l : Location) : Prop :=
  ∃ a ∈ p.actions, a.advisory = false ∧ Plain w.disk (w.absolute a.defect.file) l

/-- A plan whose actions are on files outside a directory, each reached without links. -/
def Plan.Reaches (p : Plan) (base : Location) (w : World) : Prop :=
  ∀ a ∈ p.actions, ∃ l content, Plain w.disk (w.absolute a.defect.file) l ∧ ¬ base <+: l ∧
    w.disk.read (w.absolute a.defect.file) = .ok content

/-! ## Custody while a backup is taken and after it -/

namespace Custody

variable {c : Custody} {w w' : World} {i : SnapshotIndex}

/-- The snapshot of that name. -/
theorem Kept.get (h : c.Kept w i) (id : Uid) : (c.store.get id).Ends w fun r w' =>
    Within (Region c.base) w w' ∧ ∀ t, r = .ok t → i.find? id = some t := by
  rw [SnapshotStore.get]
  refine h.ask (fun w₁ h₁ => ?_) fun e w₁ h₁ => ⟨h₁, nofun⟩
  cases ht : i.find? id with
  | none => exact Act.ends_throw ⟨h₁, nofun⟩
  | some t => exact Act.ends_pure ⟨h₁, fun u hu => congrArg some (Except.ok.inj hu)⟩

/-- The snapshots of some names. -/
theorem Kept.membersOf (h : c.Kept w i) (ids : List Uid) :
    (Workbench.membersOf c.store ids).Ends w fun r w' => Within (Region c.base) w w' ∧
      ∀ ts, r = .ok ts → ts.map (·.id) = ids ∧ ∀ t ∈ ts, i.find? t.id = some t := by
  induction ids generalizing w with
  | nil =>
    refine Act.ends_pure ⟨.refl w, fun ts hts => ?_⟩
    cases hts
    exact ⟨rfl, nofun⟩
  | cons id ids ih =>
    rw [Workbench.membersOf]
    refine (h.get id).bind ?_ fun e w₁ h₁ => ⟨h₁.1, nofun⟩
    rintro t w₁ ⟨h₁, ht⟩
    have hfound := ht t rfl
    have hid : t.id = id := (SnapshotIndex.mem_of_find? hfound).2
    refine (ih (h.within_region h₁)).bind ?_ fun e w₂ h₂ => ⟨h₁.trans h₂.1, nofun⟩
    rintro ts w₂ ⟨h₂, hts⟩
    obtain ⟨hids, hall⟩ := hts ts rfl
    refine Act.ends_pure ⟨h₁.trans h₂, fun us hus => ?_⟩
    cases hus
    refine ⟨by rw [List.map_cons, hid, hids], fun u hu => ?_⟩
    rcases List.mem_cons.mp hu with rfl | hu
    · rw [hid]
      exact hfound
    · exact hall u hu

end Custody

namespace SnapshotStore

variable {s : SnapshotStore} {base : Location} {w w' : World} {i j : SnapshotIndex}
  {files : List Path} {set : SnapshotSet} {new : List Snapshot}

/-- The custody while a backup is taken.  A snapshot with an identifier that is drawn from then on
has the bytes that its file had at the start. -/
def takingCustody (s : SnapshotStore) (base : Location) (w : World) : Custody :=
  { s.custody base with
    fact := fun t content =>
      (∃ n, w.drawn ≤ n ∧ t.id = w.ids n) → w.HasBytes base t.source content
    setFact := fun u => ∀ n, w.drawn ≤ n → u.id ≠ w.ids n }

/-- The custody after a backup.  Its members are guarded with the bytes that their files had at the
start, and no other set has the name of their set. -/
def securedCustody (s : SnapshotStore) (base : Location) (w : World) (set : Option SnapshotSet)
    (members : List Snapshot) : Custody :=
  { s.custody base with
    fact := fun _ _ => True
    setFact := fun u => ∀ v, set = some v → u.id = v.id → u = v
    guarded := fun t content => t ∈ members ∧ ∃ l mode modified,
      Plain w.disk (w.absolute t.source) l ∧ ¬ base <+: l ∧
        w.disk.at? l = some (.file content mode modified) }

theorem kept_taking (h : s.InOrder base w i) (hnew : w.DrawsNew i) :
    (s.takingCustody base w).Kept w i := by
  refine Custody.Kept.demand h (fun t ht content _ => ?_) (fun u hu n hn => ?_) nofun nofun nofun
    nofun
  · rintro ⟨n, hn, hid⟩
    exact absurd hid (hnew.snapshots n hn t ht)
  · exact hnew.sets n hn u hu

theorem truthful_taking (s : SnapshotStore) (base : Location) (w : World) :
    (s.takingCustody base w).Truthful w := by
  intro t content d _ hrecorded hread _ l hplain hout
  obtain ⟨m, mode, modified, hm, hat⟩ := Disk.read_eq_ok_iff.mp hread
  obtain rfl := (hplain.frame hrecorded.frame).eq_of_locate hm
  exact ⟨mode, modified, hrecorded.frame.file_of_file hout hat⟩

/-- The snapshots that are taken for one set have different names. -/
theorem nodup_taken {c : Custody} {seen : List Path} (htaken : c.Taken w files seen new w')
    (honce : w.DrawsOnce w'.drawn) : (new.map (·.id)).Nodup := by
  rw [List.Nodup, List.pairwise_map]
  refine htaken.ordered.imp ?_
  rintro a b ⟨m, n, hm, hmn, hlast, ha, hb⟩
  rw [ha, hb]
  exact honce m n hm (Nat.lt_trans hmn hlast) hmn

/-- The members that the index has of a set that was taken are the snapshots taken for it. -/
theorem members_taken (hnew : w.DrawsNew i)
    (htaken : (s.takingCustody base w).SetTaken w i files set new w' j)
    (honce : w.DrawsOnce w'.drawn) {ts : List Snapshot}
    (hids : ts.map (·.id) = set.members) (hfound : ∀ t ∈ ts, j.find? t.id = some t) :
    ∀ t, t ∈ ts ↔ t ∈ new := by
  have hinj := List.inj_on_of_nodup_map (nodup_taken htaken.taken honce)
  have hforward : ∀ t ∈ ts, t ∈ new := by
    intro t ht
    have hmem : t.id ∈ new.map (·.id) := by
      rw [← htaken.members, ← hids]
      exact List.mem_map_of_mem ht
    obtain ⟨u, hu, hid⟩ := List.mem_map.mp hmem
    obtain ⟨n, hn, -, hdrawn⟩ := htaken.taken.drawn u hu
    refine (htaken.comesFrom t (SnapshotIndex.mem_of_find? (hfound t ht)).1).resolve_left ?_
    intro hold
    exact hnew.snapshots n hn t hold (hid.symm.trans hdrawn)
  refine fun t => ⟨hforward t, fun ht => ?_⟩
  have hmem : t.id ∈ ts.map (·.id) := by
    rw [hids, htaken.members]
    exact List.mem_map_of_mem ht
  obtain ⟨u, hu, hid⟩ := List.mem_map.mp hmem
  rwa [← hinj (hforward u hu) ht hid]

end SnapshotStore

/-! ## Backups -/

namespace Workbench

variable {b : Workbench} {base : Location} {w v : World} {r : Run} {i j : SnapshotIndex}

/-- A run whose backup secures all files that its plan may write. -/
structure Secured (b : Workbench) (base : Location) (w : World) (r : Run) (v : World)
    (j : SnapshotIndex) : Prop where
  kept : (b.store.securedCustody base w r.set r.members).Kept v j
  sources : ∀ t ∈ r.members, ∃ l, r.plan.MayWrite w l ∧ ¬ base <+: l ∧ t.source = l.path
  covers : ∀ a ∈ r.plan.actions, a.advisory = false →
    ∃ t ∈ r.members, t.source = w.identity a.defect.file
  ids : ∀ set, r.set = some set → set.members = r.members.map (·.id)

/-- A plan that may write nothing needs no backup. -/
theorem secured_of_nothing (h : b.store.InOrder base w i) (hset : r.set = none)
    (hmembers : r.members = []) (hnothing : r.plan.mutatingFiles w.identity = []) :
    Secured b base w r w i where
  kept := by
    rw [hset, hmembers]
    refine Custody.Kept.demand h (fun _ _ _ _ => trivial) (fun _ _ => nofun) ?_ ?_ ?_ ?_
    all_goals
      rintro t content ⟨ht, -⟩
      cases ht
  sources := by
    rw [hmembers]
    exact nofun
  covers := by
    intro a ha hadvisory
    obtain ⟨f, hf, -⟩ : ∃ f ∈ r.plan.mutatingFiles w.identity,
        w.identity f = w.identity a.defect.file := Plan.exists_mem_mutatingFiles ha hadvisory
    rw [hnothing] at hf
    cases hf
  ids := by
    rw [hset]
    exact nofun

/-- The snapshots of a set secure the files that it was taken for. -/
theorem secured_of_taken (hnew : w.DrawsNew i)
    (hreach : r.plan.Reaches base w) {set : SnapshotSet} {new : List Snapshot}
    (htaken : (b.store.takingCustody base w).SetTaken w i (r.plan.mutatingFiles w.identity) set new
      v j) {v' : World} (hv : Within (Region base) v v') (honce : w.DrawsOnce v'.drawn)
    {ts : List Snapshot}
    (hids : ts.map (·.id) = set.members) (hfound : ∀ t ∈ ts, j.find? t.id = some t) :
    Secured b base w { r with set := some set, members := ts } v' j := by
  have hmem := SnapshotStore.members_taken hnew htaken (honce.mono hv.drawn) hids hfound
  have hwithin := htaken.pinned.within
  have hplaces : ∀ f ∈ r.plan.mutatingFiles w.identity, ∃ l content mode modified,
      r.plan.MayWrite w l ∧ Plain w.disk (w.absolute f) l ∧ ¬ base <+: l ∧
        w.disk.at? l = some (.file content mode modified) := by
    intro f hf
    obtain ⟨a, ha, hadvisory, rfl⟩ := Plan.exists_of_mem_mutatingFiles hf
    obtain ⟨l, content, hplain, hout, hread⟩ := hreach a ha
    obtain ⟨m, mode, modified, hm, hat⟩ := Disk.read_eq_ok_iff.mp hread
    obtain rfl := hplain.eq_of_locate hm
    exact ⟨m, content, mode, modified, ⟨a, ha, hadvisory, hplain⟩, hplain, hout, hat⟩
  have hsources : ∀ t ∈ new, ∃ l content mode modified, r.plan.MayWrite w l ∧
      Plain w.disk (w.absolute t.source) l ∧ ¬ base <+: l ∧
      w.disk.at? l = some (.file content mode modified) ∧ t.source = l.path := by
    intro t ht
    obtain ⟨f, hf, w₁, hw₁, hsource⟩ := htaken.taken.sources t ht
    obtain ⟨l, content, mode, modified, hwrite, hplain, hout, hat⟩ := hplaces f hf
    rw [hw₁.identity_of_plain hplain] at hsource
    refine ⟨l, content, mode, modified, hwrite, ?_, hout, hat, hsource⟩
    rw [hsource]
    exact World.plain_absolute_path hplain
  have hkept := htaken.kept.within_region hv
  have hwids : v'.ids = w.ids := hv.ids.trans hwithin.ids
  have hdrawn : ∀ t ∈ ts, ∃ n, w.drawn ≤ n ∧ n < v'.drawn ∧ t.id = w.ids n := by
    intro t ht
    obtain ⟨n, hn, hlt, hid⟩ := htaken.taken.drawn t ((hmem t).mp ht)
    exact ⟨n, hn, Nat.lt_of_lt_of_le hlt hv.drawn, hid⟩
  constructor
  · refine Custody.Kept.demand hkept (fun _ _ _ _ => trivial) (fun u hu => ?_)
      (fun t content ht => hfound t ht.1) ?_ ?_ ?_
    · rintro _ heq hid
      cases heq
      rcases hkept.sets u hu with hold | rfl
      · obtain ⟨n, hn, -, hset⟩ := htaken.drawn
        exact absurd (hid.trans hset) (hold n hn)
      · rfl
    · rintro t content ⟨ht, l, mode, modified, hplain, hout, hat⟩
      obtain ⟨content', hcopy, hfact⟩ :=
        hkept.copies t (SnapshotIndex.mem_of_find? (hfound t ht)).1
      obtain ⟨n, hn, -, hid⟩ := hdrawn t ht
      obtain ⟨mode', modified', hat'⟩ := hfact ⟨n, hn, hid⟩ l hplain hout
      rw [hat] at hat'
      cases hat'
      exact hcopy
    · rintro t content ⟨ht, -⟩
      rw [hv.pinned, htaken.pinned.pinned, ← hids]
      exact List.mem_append_right _ (List.mem_map_of_mem ht)
    · rintro t content ⟨ht, -⟩ n hn heq
      obtain ⟨m, hm, hlt, hid⟩ := hdrawn t ht
      rw [hwids, hid] at heq
      exact honce m n hm hlt (Nat.lt_of_lt_of_le hlt hn) heq.symm
  · intro t ht
    obtain ⟨l, -, -, -, hwrite, -, hout, -, hsource⟩ := hsources t ((hmem t).mp ht)
    exact ⟨l, hwrite, hout, hsource⟩
  · intro a ha hadvisory
    obtain ⟨f, hf, hidentity⟩ : ∃ f ∈ r.plan.mutatingFiles w.identity,
        w.identity f = w.identity a.defect.file := Plan.exists_mem_mutatingFiles ha hadvisory
    obtain ⟨l, -, -, -, -, hplain, -⟩ := hplaces f hf
    obtain ⟨w₁, key, hw₁, hsame, hkey⟩ := htaken.taken.covers f hf
    obtain ⟨t, ht, rfl⟩ := hkey.resolve_left List.not_mem_nil
    obtain ⟨m, -, -, -, -, hplain', -, -, hsource⟩ := hsources t ht
    refine ⟨t, (hmem t).mpr ht, ?_⟩
    rw [hw₁.identity_of_plain hplain, hsource] at hsame
    rw [hsource] at hplain'
    rw [World.absolute_path] at hplain'
    obtain rfl := World.location_of_same hplain' hplain.path hsame
    rw [hsource, ← hidentity, World.identity_of_plain hplain]
  · rintro _ heq
    cases heq
    exact hids.symm

/-- A backup secures all files that the plan may write, or fails with nothing written outside the
directory of the store. -/
theorem backUp_ends (h : b.store.InOrder base w i) (hnew : w.DrawsNew i)
    (hreach : r.plan.Reaches base w) (hset : r.set = none) (hmembers : r.members = []) :
    (b.backUp r).Ends w fun res v =>
      match res with
      | .ok r' => (w.DrawsOnce v.drawn → ∃ j, Secured b base w r' v j) ∧
          World.Changed (base <+: ·) w v ∧ r' = { r with set := r'.set, members := r'.members }
      | .error e => e.dirty = false ∧ e.run.set = none ∧ World.Changed (base <+: ·) w v := by
  rw [backUp]
  refine Act.ends_look_bind ?_
  split
  case isTrue hnothing =>
    refine Act.ends_pure ⟨fun _ => ⟨i, ?_⟩, .refl w, rfl⟩
    exact secured_of_nothing h hset hmembers (List.isEmpty_iff.mp hnothing)
  case isFalse =>
    have hkept := SnapshotStore.kept_taking h hnew
    have htake : (do
        let set ← b.store.createSet (r.plan.mutatingFiles w.identity)
        return (set, ← membersOf b.store set.members) :
        Act SnapshotError (SnapshotSet × List Snapshot)).Ends w fun res v =>
          World.Changed (base <+: ·) w v ∧ ∀ set ts, res = .ok (set, ts) → w.DrawsOnce v.drawn →
            ∃ j, Secured b base w { r with set := some set, members := ts } v j := by
      refine (hkept.createSet (SnapshotStore.truthful_taking b.store base w)
        (r.plan.mutatingFiles w.identity)).bind ?_ ?_
      · rintro set v ⟨new, j, htaken⟩
        have hchanged : World.Changed (base <+: ·) w v :=
          ⟨htaken.pinned.within.directory, htaken.pinned.within.frame.link,
            htaken.pinned.within.frame.same⟩
        have hbelow {v' : World} (hv : Within (Region base) v v') :
            World.Changed (base <+: ·) w v' :=
          hchanged.trans (hv.mono fun _ hl => hl.below).changed
        refine (htaken.kept.membersOf set.members).bind ?_ fun e v' hv => ⟨hbelow hv.1, nofun⟩
        rintro ts v' ⟨hv, hts⟩
        obtain ⟨hids, hfound⟩ := hts ts rfl
        refine Act.ends_pure ⟨hbelow hv, fun _ _ heq honce => ?_⟩
        cases heq
        exact ⟨j, secured_of_taken hnew hreach htaken hv honce hids hfound⟩
      · rintro e v ⟨new, hw, -⟩
        exact ⟨hw.changed, nofun⟩
    refine htake.mapError.bind ?_ ?_
    · rintro ⟨set, ts⟩ v ⟨hchanged, hsecured⟩
      exact Act.ends_pure ⟨hsecured set ts rfl, hchanged, rfl⟩
    · rintro _ v ⟨e, rfl, hchanged, -⟩
      exact ⟨rfl, hset, hchanged⟩

end Workbench

end Amend
