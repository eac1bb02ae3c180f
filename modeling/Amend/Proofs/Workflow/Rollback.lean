import Amend.Proofs.Workflow.Apply

/-!
# Putting the files of a run back

Every member of the backup is found in the index with the bytes that its file had at the start.
So each member that is put back without a failure gives its file these bytes, and no other member
takes them away again.
-/

namespace Amend

open Disk (Frame Plain)
open World (Within Changed)
open FileLocks (Region)

namespace World

variable {w v v' : World} {l : Location} {touched : Location → Prop}

/-- What is read at a location are the bytes of the file that was there before. -/
def SameBytes (w v : World) (l : Location) : Prop :=
  ∃ content mode modified, w.disk.at? l = some (.file content mode modified) ∧
    v.disk.read l.path = .ok content

theorem SameBytes.within (h : SameBytes w v l) (hplain : Plain v.disk l.path l)
    (hw : Within touched v v') (hl : ¬ touched l)
    (hlinks : ∀ m, touched m → ∀ target, v.disk.at? m ≠ some (.link target)) :
    SameBytes w v' l := by
  obtain ⟨content, mode, modified, hat, hread⟩ := h
  refine ⟨content, mode, modified, hat, ?_⟩
  have hthere : v.disk.read (v.absolute l.path) = .ok content := by
    rwa [absolute_path]
  have hread' : v'.disk.read (v'.absolute l.path) = .ok content := by
    refine hw.read hthere (fun m hm => ?_) fun m hm htouched => ?_
    · rw [absolute_path] at hm
      rwa [hplain.eq_of_locate hm]
    · obtain ⟨target, hlink⟩ := Disk.mem_linksTo hm
      exact hlinks m htouched target hlink
  rwa [absolute_path] at hread'

/-- A file with its old bytes is read as before by every plain path to it. -/
theorem SameBytes.read (h : SameBytes w v l) (hdirectory : v.directory = w.directory) {f : Path}
    (hf : Plain w.disk (w.absolute f) l) (hthere : Plain v.disk l.path l) {content : ByteArray}
    (hread : w.disk.read (w.absolute f) = .ok content) :
    v.disk.read (v.absolute f) = .ok content := by
  obtain ⟨bytes, mode, modified, hat, hback⟩ := h
  obtain ⟨m, mode₁, modified₁, hm, hat₁⟩ := Disk.read_eq_ok_iff.mp hread
  obtain rfl := hf.eq_of_locate hm
  rw [hat] at hat₁
  cases hat₁
  obtain ⟨k, mode₂, modified₂, hk, hat₂⟩ := Disk.read_eq_ok_iff.mp hback
  obtain rfl := hthere.eq_of_locate hk
  rw [World.absolute, hdirectory]
  refine Disk.read_eq_ok_iff.mpr ⟨k, mode₂, modified₂, ?_, hat₂⟩
  exact Plain.locate_of_components hk (components_of_plain hf).symm hm
    (Disk.meansDirectory_of_file hm hat) (Disk.meansDirectory_of_file hk hat₂)

/-- Each file outside a directory that had its old bytes, or that one of some snapshots was taken
of, has its old bytes now. -/
def Restores (w : World) (base : Location) (ts : List Snapshot) (v v' : World) : Prop :=
  ∀ l : Location, ¬ base <+: l → Plain w.disk l.path l →
    SameBytes w v l ∨ (∃ t ∈ ts, t.source = l.path) →
    SameBytes w v' l

variable {base : Location} {ts us : List Snapshot} {w v v' v'' : World}

theorem Restores.append (h : Restores w base ts v v') (h' : Restores w base us v' v'') :
    Restores w base (ts ++ us) v v'' := by
  intro l hout hplain hl
  refine h' l hout hplain ?_
  rcases hl with hsame | ⟨t, ht, hsource⟩
  · exact Or.inl (h l hout hplain (Or.inl hsame))
  · rcases List.mem_append.mp ht with ht | ht
    · exact Or.inl (h l hout hplain (Or.inr ⟨t, ht, hsource⟩))
    · exact Or.inr ⟨t, ht, hsource⟩

end World

open World (SameBytes Restores)

namespace Workbench

variable {b : Workbench} {base : Location} {theirs : Location → Prop} {w v v' : World} {r : Run}
  {s : Snapshot}

namespace Underway

/-- Nothing outside the directory of the store is touched. -/
theorem restores_nil (h : Underway b base theirs w r v) (hw : Within (base <+: ·) v v') :
    Restores w base [] v v' := by
  intro l hout hplain hl
  obtain ⟨j, hsecured⟩ := h.secured
  have hsame : SameBytes w v l := hl.resolve_right fun ⟨_, ht, _⟩ => absurd ht List.not_mem_nil
  exact hsame.within (h.changed.plain_path hplain) hw hout fun m hm =>
    hsecured.kept.under.tree.noLinks m hm

/-- A member of the backup is a snapshot of a file that the plan may write, and is guarded with the
bytes that the file had at the start. -/
theorem member (h : Underway b base theirs w r v) (hreach : r.plan.Reaches base w)
    (hs : s ∈ r.members) : ∃ l content mode modified, r.plan.MayWrite w l ∧
      Plain w.disk (w.absolute s.source) l ∧ ¬ base <+: l ∧ s.source = l.path ∧
      w.disk.at? l = some (.file content mode modified) ∧
      (b.store.securedCustody base w r.set r.members).guarded s content := by
  obtain ⟨j, hsecured⟩ := h.secured
  obtain ⟨l, hwrite, hout, hsource⟩ := hsecured.sources s hs
  obtain ⟨a, ha, hadvisory, hplain⟩ := hwrite
  obtain ⟨l', content, hplain', -, hread⟩ := hreach a ha
  obtain ⟨m, mode, modified, hm, hat⟩ := Disk.read_eq_ok_iff.mp hread
  obtain rfl := hplain.eq_of_locate hm
  have hplain'' : Plain w.disk (w.absolute s.source) m := by
    rw [hsource]
    exact World.plain_absolute_path hplain
  exact ⟨m, content, mode, modified, ⟨a, ha, hadvisory, hplain⟩, hplain'', hout, hsource, hat, hs,
    m, mode, modified, hplain'', hout, hat⟩

/-- A member that was put back gives its file the bytes that it had at the start. -/
theorem sameBytes_of_putBack {j : SnapshotIndex} (hsecured : Secured b base w r v j)
    (hchanged : Changed (r.plan.Touches base theirs w) w v) {l : Location} {content : ByteArray}
    {mode modified : Nat} (hplain : Plain w.disk l.path l) (hout : ¬ base <+: l)
    (hsource : s.source = l.path) (hat : w.disk.at? l = some (.file content mode modified))
    (hguard : (b.store.securedCustody base w r.set r.members).guarded s content)
    (hback : (b.store.securedCustody base w r.set r.members).PutBack v j s (.ok ()) v') :
    SameBytes w v' l := by
  have hthere := hchanged.plain_path hplain
  have hsthere : Plain v.disk (v.absolute s.source) l := by
    rw [hsource, World.absolute_path]
    exact hthere
  obtain ⟨k, mode₁, modified₁, htarget, hat₁⟩ :=
    hback.content content rfl (hsecured.kept.guards s content hguard)
  obtain rfl := htarget.eq_of_plain hsthere
  obtain ⟨content', hread⟩ := hback.read _ hsthere hout rfl
  rw [hsource, World.absolute_path] at hread
  obtain ⟨k', mode₂, modified₂, hk', hat₂⟩ := Disk.read_eq_ok_iff.mp hread
  obtain rfl := (hthere.frame hback.within.frame).eq_of_locate hk'
  rw [hat₁] at hat₂
  cases hat₂
  exact ⟨content, mode, modified, hat, hread⟩

/-- A member that was put back leaves the bytes of other files alone. -/
theorem sameBytes_of_putBack_ne {j : SnapshotIndex} (hsecured : Secured b base w r v j)
    (hchanged : Changed (r.plan.Touches base theirs w) w v) {l m : Location}
    (hplain : Plain w.disk (w.absolute s.source) l) (hm : Plain w.disk m.path m)
    (hout : ¬ base <+: m) (hne : m ≠ l) {res : Except SnapshotError Unit}
    (hback : (b.store.securedCustody base w r.set r.members).PutBack v j s res v')
    (hsame : SameBytes w v m) : SameBytes w v' m := by
  have hthere := hchanged.plain hplain
  refine hsame.within (hchanged.plain_path hm) hback.within ?_ ?_
  · rintro (hregion | htarget)
    · exact hout hregion.below
    · exact hne (htarget.eq_of_plain hthere)
  · rintro k (hregion | htarget) target hlink
    · exact hsecured.kept.under.tree.noLinks k hregion.below target hlink
    · obtain rfl := htarget.eq_of_plain hthere
      exact hthere.linkFree k List.nil_prefix (List.prefix_refl _) target hlink

/-- A member of the backup is put back. -/
theorem restore_ends (h : Underway b base theirs w r v) (hreach : r.plan.Reaches base w)
    (hs : s ∈ r.members) : (b.store.restore s).Ends v fun res v' =>
      Underway b base theirs w r v' ∧ (res = .ok () → Restores w base [s] v v') := by
  obtain ⟨l, content, mode, modified, hwrite, hplain, hout, hsource, hat, hguard⟩ :=
    h.member hreach hs
  obtain ⟨j, hsecured⟩ := h.secured
  have hclear := Custody.clear_of_plain (c := b.store.securedCustody base w r.set r.members)
    (h.changed.plain hplain) hout
  refine (hsecured.kept.restore hclear).mono fun res v' hback => ?_
  refine ⟨of_putBack hsecured h.changed hplain hwrite hback, ?_⟩
  rintro rfl m hbeside hm hsame
  rw [hsource, World.absolute_path] at hplain
  by_cases heq : m = l
  · rw [heq]
    exact sameBytes_of_putBack hsecured h.changed hplain hout hsource hat hguard hback
  · have hplain' : Plain w.disk (w.absolute s.source) l := by
      rw [hsource, World.absolute_path]
      exact hplain
    refine sameBytes_of_putBack_ne hsecured h.changed hplain' hm hbeside heq hback ?_
    refine hsame.resolve_right ?_
    rintro ⟨u, hu, husource⟩
    rw [List.mem_singleton.mp hu, hsource] at husource
    refine heq (World.location_of_same hm hplain ?_)
    rw [husource]
    exact beq_self_eq_true _

/-- The member of that name is put back. -/
theorem rollbackId_ends (h : Underway b base theirs w r v) (hreach : r.plan.Reaches base w)
    (hs : s ∈ r.members) : (b.store.rollbackId s.id true).Ends v fun res v' =>
      Underway b base theirs w r v' ∧ ∀ report, res = .ok report → Restores w base [s] v v' := by
  have hregion {v₁ v₂ : World} (h₁ : Underway b base theirs w r v₁)
      (h₂ : Within (Region base) v₁ v₂) :
      Underway b base theirs w r v₂ ∧ Restores w base [] v₁ v₂ :=
    ⟨h₁.region h₂, h₁.restores_nil (h₂.mono fun _ hl => hl.below)⟩
  obtain ⟨-, content, -, -, -, -, -, -, -, hguard⟩ := h.member hreach hs
  obtain ⟨j, hsecured⟩ := h.secured
  rw [SnapshotStore.rollbackId]
  refine (hsecured.kept.get s.id).outcome.bind (fun found v₁ hfound => ?_) fun e _ he => he.elim
  obtain ⟨hv₁, hfound⟩ := hfound
  obtain ⟨h₁, hrestores₁⟩ := hregion h hv₁
  cases found with
  | error e =>
    cases e <;> exact Act.ends_throw ⟨h₁, nofun⟩
  | ok u =>
    have hu := hfound u rfl
    rw [hsecured.kept.found s content hguard] at hu
    cases hu
    obtain ⟨j₁, hsecured₁⟩ := h₁.secured
    have hasked : (b.store.restoredAt s.id).Ends v₁ fun _ v' => Within (Region base) v₁ v' :=
      hsecured₁.kept.ask (fun v₂ h₂ => Act.ends_pure h₂) fun e v₂ h₂ => h₂
    dsimp only
    rw [SnapshotStore.rollbackSnapshot]
    refine hasked.mapError.bind ?_ ?_
    · intro before v₂ hv₂
      obtain ⟨h₂, hrestores₂⟩ := hregion h₁ hv₂
      rw [Bool.not_true, Bool.and_false, if_neg Bool.false_ne_true]
      refine (h₂.restore_ends hreach hs).mapError.bind ?_ ?_
      · rintro _ v₃ ⟨h₃, hrestores₃⟩
        obtain ⟨j₃, hsecured₃⟩ := h₃.secured
        refine (hsecured₃.kept.markRestored s.id).mapError.bind ?_ ?_
        · rintro _ v₄ ⟨hv₄, k, hkept, -⟩
          refine Act.ends_pure ⟨h₃.below hv₄ hkept, fun _ _ => ?_⟩
          exact ((hrestores₁.append hrestores₂).append (hrestores₃ rfl)).append
            (h₃.restores_nil hv₄)
        · rintro _ v₄ ⟨_, -, hv₄, k, hkept, -⟩
          exact ⟨h₃.below hv₄ hkept, nofun⟩
      · rintro _ v₃ ⟨_, -, h₃, -⟩
        exact ⟨h₃, nofun⟩
    · rintro _ v₂ ⟨_, -, hv₂⟩
      exact ⟨h₁.region hv₂, nofun⟩

/-- Members of the backup are put back, whatever becomes of those before. -/
theorem rollbackAll_ends (h : Underway b base theirs w r v) (hreach : r.plan.Reaches base w)
    {ss : List Snapshot} (hss : ∀ s ∈ ss, s ∈ r.members) :
    (b.store.rollbackAll true (ss.map (·.id))).Ends v fun res v' =>
      Underway b base theirs w r v' ∧ ∀ results, res = .ok results →
        (∀ x ∈ results, ∃ report, x = .ok report) → Restores w base ss v v' := by
  induction ss generalizing v with
  | nil => exact Act.ends_pure ⟨h, fun _ _ _ => h.restores_nil (.refl v)⟩
  | cons s ss ih =>
    rw [List.map_cons, SnapshotStore.rollbackAll]
    refine (h.rollbackId_ends hreach (hss s List.mem_cons_self)).outcome.bind
      (fun first v₁ h₁ => ?_) fun e _ he => he.elim
    obtain ⟨h₁, hfirst⟩ := h₁
    refine (ih h₁ fun u hu => hss u (List.mem_cons_of_mem s hu)).bind ?_ fun e v₂ h₂ => ⟨h₂.1, nofun⟩
    rintro rest v₂ ⟨h₂, hrest⟩
    refine Act.ends_pure ⟨h₂, fun results heq hall => ?_⟩
    cases heq
    obtain ⟨report, hreport⟩ := hall first List.mem_cons_self
    exact (hfirst report hreport).append
      (hrest rest rfl fun x hx => hall x (List.mem_cons_of_mem first hx))

/-- Putting the backup of a run back.  When it succeeds, all its files have the bytes that they had
at the start. -/
theorem rollbackSet_ends (h : Underway b base theirs w r v) (hreach : r.plan.Reaches base w)
    {set : SnapshotSet} (hset : r.set = some set) :
    (b.store.rollbackSet set.id true).Ends v fun res v' =>
      Underway b base theirs w r v' ∧ ∀ reports, res = .ok reports →
        Restores w base r.members v v' := by
  obtain ⟨j, hsecured⟩ := h.secured
  rw [SnapshotStore.rollbackSet]
  refine (hsecured.kept.getSet set.id).outcome.bind (fun found v₁ hfound => ?_)
    fun e _ he => he.elim
  obtain ⟨hv₁, hfound⟩ := hfound
  have h₁ := h.region hv₁
  cases found with
  | error e =>
    cases e <;> exact Act.ends_throw ⟨h₁, nofun⟩
  | ok u =>
    have hu := hfound u rfl
    have hid : u.id = set.id := by simpa using List.find?_some hu
    obtain rfl : u = set := hsecured.kept.sets u (List.mem_of_find?_eq_some hu) set hset hid
    dsimp only
    rw [hsecured.ids u hset]
    refine (h₁.rollbackAll_ends hreach fun _ hs => hs).bind ?_ fun e v₂ h₂ => ⟨h₂.1, nofun⟩
    rintro results v₂ ⟨h₂, hresults⟩
    refine (ends_gather results v₂).mono ?_
    rintro res _ ⟨rfl, hgathers⟩
    refine ⟨h₂, ?_⟩
    rintro reports rfl
    exact (h.restores_nil (hv₁.mono fun _ hl => hl.below)).append
      (hresults results rfl hgathers.forall_ok)

end Underway

end Workbench

end Amend
