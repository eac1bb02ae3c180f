import Amend.Proofs.Workflow.Foresight

/-!
# What one action can do to the files

An action of a run writes the file of its defect, if it is not advisory, and puts back files that
the backup secures.  The programs that it calls may do what they like outside the directory of the
store.  The store stays as it has to be for putting everything back.
-/

namespace Amend

open Disk (Frame Plain)
open World (Within Changed)
open FileLocks (Region)

/-- What a program does to the world that leaves a store alone.  It may change some locations, and
it makes no links. -/
structure SnapshotStore.LeftAlone (s : SnapshotStore) (base : Location) (theirs : Location → Prop)
    (f : World → World) : Prop where
  elsewhere : ∀ w, w.disk.locate (w.absolute s.dir) = .ok base → s.Elsewhere base w (f w)
  link : ∀ w l target, (f w).disk.at? l = some (.link target) →
    w.disk.at? l = some (.link target)
  same : ∀ w l, ¬ theirs l → (f w).disk.at? l = w.disk.at? l

/-- The locations that a run may touch: those of the store, those that its plan may write, and
those of the programs that it calls. -/
def Plan.Touches (p : Plan) (base : Location) (theirs : Location → Prop) (w : World)
    (l : Location) : Prop :=
  base <+: l ∨ p.MayWrite w l ∨ theirs l

namespace Refactoring

/-- What looking at a file that may be refactored comes to. -/
def checked (parse : Syntax.Parser) (file : Path) (source : String) :
    Except RefactoringError Unit :=
  match parse.verify source with
  | .ok _ => .ok ()
  | .error cause => .error (.badTarget file (.unparsable cause))

/-- Looking at the target of a refactoring changes nothing.  A Java file that may be written is
refused only if it cannot be read or does not parse. -/
theorem ends_checkTarget {parse : Syntax.Parser} {file : Path} {w : World} :
    (checkTarget parse file).Ends w fun res w' => (∃ trouble, w' = { w with trouble }) ∧
      ∀ content mode time, file.isJava = true → w.stat file = .ok (.file content mode time) →
        isReadOnly mode = false → (∃ cause, res = .error (.io file cause)) ∨
          ∃ source, w.disk.readText (w.absolute file) = .ok source ∧
            res = checked parse file source := by
  have hsame : ∃ trouble, w = { w with trouble } := ⟨w.trouble, rfl⟩
  rw [checkTarget]
  split
  case isTrue hjava =>
    refine Act.ends_throw ⟨hsame, fun _ _ _ hisJava => ?_⟩
    rw [hisJava] at hjava
    cases hjava
  case isFalse =>
    refine Act.ends_look_bind ?_
    split
    · rename_i hstat
      refine Act.ends_throw ⟨hsame, fun _ _ _ _ hthere => ?_⟩
      rw [hstat] at hthere
      cases hthere
    · rename_i hstat
      split
      case isTrue hreadOnly =>
        refine Act.ends_throw ⟨hsame, fun _ _ _ _ hthere hwritable => ?_⟩
        rw [hstat] at hthere
        cases hthere
        rw [hwritable] at hreadOnly
        cases hreadOnly
      case isFalse =>
        dsimp only
        rw [readTarget]
        refine World.ends_readText.mapError.bind ?_ ?_
        · rintro source _ ⟨⟨trouble, rfl⟩, hread⟩
          have hsource := hread source rfl
          split
          · rename_i hverify
            refine Act.ends_pure ⟨⟨trouble, rfl⟩, fun _ _ _ _ _ _ => Or.inr ⟨source, hsource, ?_⟩⟩
            rw [checked, hverify]
          · rename_i hverify
            refine Act.ends_throw ⟨⟨trouble, rfl⟩, fun _ _ _ _ _ _ => Or.inr ⟨source, hsource, ?_⟩⟩
            rw [checked, hverify]
        · rintro _ _ ⟨cause, rfl, ⟨trouble, rfl⟩, -⟩
          exact ⟨⟨trouble, rfl⟩, fun _ _ _ _ _ _ => Or.inl ⟨cause, rfl⟩⟩
    · rename_i hnofile hstat
      refine Act.ends_throw ⟨hsame, fun content mode time _ hthere => ?_⟩
      rw [hstat] at hthere
      exact absurd (Except.ok.inj hthere) (hnofile content mode time)

end Refactoring

namespace Workbench

/-- A workbench whose programs leave its store alone. -/
structure Undisturbed (b : Workbench) (base : Location) (theirs : Location → Prop) : Prop where
  check : ∀ file, b.store.LeftAlone base theirs fun w => (b.check file w).2
  build : b.store.LeftAlone base theirs fun w => (b.build.apply w).2
  test : b.store.LeftAlone base theirs fun w => (b.test.apply w).2

/-- A world in the midst of a run: its files are secured, and no more has changed since the start
than a run may touch. -/
structure Underway (b : Workbench) (base : Location) (theirs : Location → Prop) (w : World)
    (r : Run) (v : World) : Prop where
  secured : ∃ j, Secured b base w r v j
  changed : Changed (r.plan.Touches base theirs w) w v

namespace Underway

variable {b : Workbench} {base : Location} {theirs : Location → Prop} {w v v' : World} {r : Run}

theorem below (h : Underway b base theirs w r v) {j : SnapshotIndex}
    (hw : Within (base <+: ·) v v')
    (hkept : (b.store.securedCustody base w r.set r.members).Kept v' j) :
    Underway b base theirs w r v' where
  secured := by
    obtain ⟨i, hsecured⟩ := h.secured
    exact ⟨j, { hsecured with kept := hkept }⟩
  changed := h.changed.trans (hw.mono fun _ => Or.inl).changed

theorem region (h : Underway b base theirs w r v) (hw : Within (Region base) v v') :
    Underway b base theirs w r v' := by
  obtain ⟨j, hsecured⟩ := h.secured
  exact h.below (hw.mono fun _ hl => hl.below) (hsecured.kept.within_region hw)

theorem trouble (h : Underway b base theirs w r v) (trouble : List (Option SystemError)) :
    Underway b base theirs w r { v with trouble } := h.region (.ofTrouble v trouble)

/-- A program that leaves the store alone is called. -/
theorem leftAlone (h : Underway b base theirs w r v) {f : World → World}
    (hf : b.store.LeftAlone base theirs f) : Underway b base theirs w r (f v) := by
  obtain ⟨j, hsecured⟩ := h.secured
  have helse := hf.elsewhere v hsecured.kept.under.tree.located
  have hchanged : Changed theirs v (f v) :=
    ⟨helse.directory, hf.link v, fun l hl => Or.inl (hf.same v l hl)⟩
  exact ⟨⟨j, { hsecured with kept := hsecured.kept.elsewhere helse }⟩,
    h.changed.trans (hchanged.mono fun l hl => Or.inr (Or.inr hl))⟩

/-- A file that the plan may write is written. -/
theorem written (h : Underway b base theirs w r v) {f : Path} {l : Location}
    (hplain : Plain w.disk (w.absolute f) l) (hout : ¬ base <+: l) (hwrite : r.plan.MayWrite w l)
    {content : ByteArray} (hw : v.Written f content v') : Underway b base theirs w r v' := by
  obtain ⟨j, hsecured⟩ := h.secured
  obtain ⟨m, mode, modified, ⟨d, hframe, hlocate⟩, hwithin, -⟩ := hw
  have hplain' := h.changed.plain hplain
  obtain rfl := (hplain'.frame hframe).eq_of_locate hlocate
  have hnolink : m ∉ v.disk.linksTo (v.absolute b.store.dir) := by
    intro hmem
    obtain ⟨target, hlink⟩ := Disk.mem_linksTo hmem
    exact hplain'.linkFree m List.nil_prefix (List.prefix_refl _) target hlink
  refine ⟨⟨j, { hsecured with kept := hsecured.kept.within_clear hout hnolink hwithin }⟩, ?_⟩
  exact h.changed.trans (hwithin.mono fun l hl => hl ▸ Or.inr (Or.inl hwrite)).changed

/-- A snapshot of a file that the plan may write was put back, or was to be. -/
theorem of_putBack {j : SnapshotIndex} (hsecured : Secured b base w r v j)
    (hchanged : Changed (r.plan.Touches base theirs w) w v) {t : Snapshot} {l : Location}
    (hplain : Plain w.disk (w.absolute t.source) l) (hwrite : r.plan.MayWrite w l)
    {res : Except SnapshotError Unit}
    (hback : (b.store.securedCustody base w r.set r.members).PutBack v j t res v') :
    Underway b base theirs w r v' := by
  refine ⟨⟨j, { hsecured with kept := hback.kept }⟩, hchanged.trans ?_⟩
  refine (hback.within.mono fun m hm => ?_).changed
  rcases hm with hm | hm
  · exact Or.inl hm.below
  · rw [hm.eq_of_plain (hchanged.plain hplain)]
    exact Or.inr (Or.inl hwrite)

/-- A snapshot of a file that the plan may write is put back. -/
theorem putBack (h : Underway b base theirs w r v) {t : Snapshot} {l : Location}
    (hplain : Plain w.disk (w.absolute t.source) l) (hout : ¬ base <+: l)
    (hwrite : r.plan.MayWrite w l) :
    (b.store.restore t).Ends v fun _ v' => Underway b base theirs w r v' := by
  obtain ⟨j, hsecured⟩ := h.secured
  have hclear : (b.store.securedCustody base w r.set r.members).Clear v t.source :=
    Custody.clear_of_plain (h.changed.plain hplain) hout
  exact (hsecured.kept.restore hclear).mono fun _ _ hback =>
    of_putBack hsecured h.changed hplain hwrite hback

end Underway

section Apply

variable {b : Workbench} {base : Location} {theirs : Location → Prop} {w v : World} {r : Run}
  {rf : Refactoring} {d : Defect} {member : Option Snapshot} {l : Location}

/-- The snapshot to put back is one of a file that the plan may write. -/
theorem snapshotFor_ends (h : Underway b base theirs w r v)
    (hplain : Plain w.disk (w.absolute d.file) l) (hmember : ∀ t, member = some t → t ∈ r.members)
    (hwrite : r.plan.MayWrite w l) (hout : ¬ base <+: l) (current : String) :
    (b.snapshotFor d.file current member).Ends v fun res v' => Underway b base theirs w r v' ∧
      Within (base <+: ·) v v' ∧ ∀ t, res = .ok t → ∃ m, Plain w.disk (w.absolute t.source) m ∧
        ¬ base <+: m ∧ r.plan.MayWrite w m := by
  obtain ⟨j, hsecured⟩ := h.secured
  rw [snapshotFor]
  split
  · rename_i t ht
    have hmem := hmember t (Option.filter_eq_some_iff.mp ht).1
    obtain ⟨m, hmay, hbeside, hsource⟩ := hsecured.sources t hmem
    refine Act.ends_pure ⟨h, .refl v, fun u hu => ?_⟩
    cases hu
    refine ⟨m, ?_, hbeside, hmay⟩
    obtain ⟨a, -, -, hm⟩ := hmay
    rw [hsource]
    exact World.plain_absolute_path hm
  · refine (hsecured.kept.create (fun _ _ _ _ _ _ => trivial) d.file).mono ?_
    rintro (e | t) v' hv
    · obtain ⟨new, hw, k, hk, -⟩ := hv
      exact ⟨h.below hw hk, hw, nofun⟩
    · obtain ⟨hw, k, hk, -⟩ := hv.leads
      refine ⟨h.below hw hk, hw, fun u hu => ?_⟩
      cases hu
      rw [hv.source, World.identity_of_plain (h.changed.plain hplain)]
      exact ⟨l, World.plain_absolute_path hplain, hout, hwrite⟩

/-- An action leaves its run underway, whatever comes of it.  Only a refactoring that asks for an
edit writes, and only a file that the plan may write. -/
theorem apply_ends (h : Underway b base theirs w r v)
    (hcheck : ∀ file, b.store.LeftAlone base theirs fun w => (b.check file w).2)
    (hplain : Plain w.disk (w.absolute d.file) l) (hout : ¬ base <+: l)
    (hmember : ∀ t, member = some t → t ∈ r.members)
    (hedit : r.plan.MayWrite w l ∨ ∀ source content shifts description,
      rf.compute b.parse d source ≠ .ok (.edit content shifts description)) :
    (b.apply rf d member).Ends v fun _ v' => Underway b base theirs w r v' := by
  rw [apply]
  refine Refactoring.ends_checkTarget.mapError.bind ?_ ?_
  · rintro _ _ ⟨⟨trouble, rfl⟩, -⟩
    refine World.ends_readText.mapError.bind ?_ ?_
    · rintro original _ ⟨⟨trouble', rfl⟩, -⟩
      have h₁ := (h.trouble trouble).trouble trouble'
      refine rewrite_ends.bind ?_ ?_
      · rintro rewrite _ ⟨rfl, hcompute⟩
        cases rewrite with
        | advice description notes => exact Act.ends_pure h₁
        | edit content shifts description =>
          have hwrite : r.plan.MayWrite w l := hedit.resolve_right fun hnever =>
            hnever original content shifts description hcompute
          dsimp only
          refine (snapshotFor_ends h₁ hplain hmember hwrite hout original).mapError.bind ?_ ?_
          · rintro t v₂ ⟨h₂, -, ht⟩
            obtain ⟨m, hm, hbeside, hmay⟩ := ht t rfl
            refine World.ends_writeFile.mapError.bind ?_ ?_
            · intro _ v₃ hwritten
              have h₃ := h₂.written hplain hout hwrite hwritten
              refine Act.Ends.bind (Act.ends_always (Q := fun _ v' => Underway b base theirs w r v')
                (h₃.leftAlone (hcheck d.file))) ?_ fun _ _ h₄ => h₄
              intro verdict v₄ h₄
              split
              · refine (h₄.putBack hm hbeside hmay).mapError.bind ?_ ?_
                · exact fun _ v₅ h₅ => Act.ends_pure h₅
                · rintro _ v₅ ⟨_, -, h₅⟩
                  exact h₅
              · exact Act.ends_pure h₄
            · rintro _ v₃ ⟨_, -, hnothing⟩
              exact h₂.region (hnothing.mono fun _ => False.elim)
          · rintro _ v₂ ⟨_, -, h₂, -⟩
            exact h₂
      · rintro _ _ ⟨rfl, -⟩
        exact h₁
    · rintro _ _ ⟨_, -, ⟨trouble', rfl⟩, -⟩
      exact (h.trouble trouble).trouble trouble'
  · rintro _ _ ⟨_, -, ⟨trouble, rfl⟩, -⟩
    exact h.trouble trouble

end Apply

end Workbench

end Amend
