import Mathlib.Data.List.Forall2
import Amend.Proofs.Workflow.Loss
import Amend.Proofs.Workflow.Run

/-!
# Trials and live runs in step

As long as no operation fails and every written file passes its check, a live run does to the disk
what a trial does to its overlay, action by action, and reports the same.
-/

namespace Amend

open Disk (Plain)
open World (Within Changed)
open Act (Settles)

/-- A plan whose files are Java files that may be written.  Each is reached without links, is
outside the directory of the store, and is not in the way of other programs. -/
def Plan.Writable (p : Plan) (base : Location) (theirs : Location → Prop) (w : World) : Prop :=
  ∀ a ∈ p.actions, a.defect.file.isJava = true ∧ ∃ l content mode modified,
    Plain w.disk (w.absolute a.defect.file) l ∧ ¬ base <+: l ∧ (∀ m, m <+: l → ¬ theirs m) ∧
      w.stat a.defect.file = .ok (.file content mode modified) ∧ isReadOnly mode = false

namespace Plan.Writable

variable {p : Plan} {base : Location} {theirs : Location → Prop} {w : World}

theorem reaches (h : p.Writable base theirs w) : p.Reaches base w := by
  intro a ha
  obtain ⟨-, l, content, mode, modified, hplain, hout, -, hstat, -⟩ := h a ha
  obtain ⟨m, hm, hat⟩ := Disk.stat_eq_ok_iff.mp hstat
  exact ⟨l, content, hplain, hout, Disk.read_eq_ok_iff.mpr ⟨m, mode, modified, hm, hat⟩⟩

end Plan.Writable

namespace Workbench

variable {b : Workbench} {base : Location} {theirs : Location → Prop} {w v v' : World} {r r' : Run}
  {overlay : Overlay} {a : PlannedAction} {l : Location}

/-- A live run in step with a trial: each file that is reached without links has the content that
the overlay has of it, or else its old one, and the planned files may still be written. -/
structure InStep (b : Workbench) (base : Location) (theirs : Location → Prop) (w : World)
    (overlay : Overlay) (r : Run) (v : World) : Prop where
  underway : Underway b base theirs w r v
  contents : ∀ l : Location, Plain w.disk l.path l → ¬ base <+: l → ¬ theirs l →
    Overlay.Shows overlay w v l
  modes : ∀ a ∈ r.plan.actions, ∀ l, Plain w.disk (w.absolute a.defect.file) l →
    ∃ content mode modified, v.disk.at? l = some (.file content mode modified) ∧
      isReadOnly mode = false

namespace InStep

theorem goesOn (h : InStep b base theirs w overlay r v) (hr : r.GoesOn r') :
    InStep b base theirs w overlay r' v where
  underway := h.underway.goesOn hr
  contents := h.contents
  modes := by
    rw [hr.plan]
    exact h.modes

/-- A program that leaves the store and the planned files alone is called. -/
theorem leftAlone (h : InStep b base theirs w overlay r v) {f : World → World}
    (hf : b.store.LeftAlone base theirs f) (hplan : r.plan.Writable base theirs w) :
    InStep b base theirs w overlay r (f v) where
  underway := h.underway.leftAlone hf
  contents := by
    intro l hplain hout htheirs
    rw [Overlay.Shows, hf.same v l htheirs]
    exact h.contents l hplain hout htheirs
  modes := by
    intro a ha l hplain
    obtain ⟨-, m, -, -, -, hplain', -, htheirs, -⟩ := hplan a ha
    obtain rfl := World.location_unique hplain' hplain
    rw [hf.same v m (htheirs m (List.prefix_refl m))]
    exact h.modes a ha m hplain

/-- A planned file is found where it was. -/
theorem stat (h : InStep b base theirs w overlay r v) (hplan : r.plan.Writable base theirs w)
    (ha : a ∈ r.plan.actions) : ∃ l content mode modified,
      Plain w.disk (w.absolute a.defect.file) l ∧ ¬ base <+: l ∧ ¬ theirs l ∧
      v.disk.locate (v.absolute a.defect.file) = .ok l ∧
      v.disk.at? l = some (.file content mode modified) ∧ isReadOnly mode = false := by
  obtain ⟨-, l, old, oldMode, time, hplain, hout, htheirs, hstat, -⟩ := hplan a ha
  obtain ⟨m, hm, hat⟩ := Disk.stat_eq_ok_iff.mp hstat
  obtain rfl := hplain.eq_of_locate hm
  obtain ⟨content, mode, modified, hat', hwritable⟩ := h.modes a ha m hplain
  have hthere := h.underway.changed.plain hplain
  rw [h.underway.changed.absolute] at hthere ⊢
  refine ⟨m, content, mode, modified, hplain, hout, htheirs m (List.prefix_refl m), ?_, hat',
    hwritable⟩
  refine hplain.locate_of_same hm hthere (fun k hk _ hdirectory => ?_)
    (Disk.meansDirectory_of_file hm hat)
  have huntouched : ¬ r.plan.Touches base theirs w k := by
    rintro (hbelow | ⟨a', ha', -, hplain'⟩ | hk')
    · exact hout (hbelow.trans hk)
    · obtain ⟨-, n, _, _, _, -, -, -, hstat', -⟩ := hplan a' ha'
      obtain ⟨n', hn', hat''⟩ := Disk.stat_eq_ok_iff.mp hstat'
      obtain rfl := hplain'.eq_of_locate hn'
      rw [hdirectory] at hat''
      cases hat''
    · exact htheirs k hk hk'
  rcases h.underway.changed.same k huntouched with heq | ⟨-, hdir⟩
  · rw [heq, hdirectory]
  · exact hdir

/-- What is read live of a planned file is its content on trial. -/
theorem has (h : InStep b base theirs w overlay r v) (hplan : r.plan.Writable base theirs w)
    (ha : a ∈ r.plan.actions) (hplain : Plain w.disk (w.absolute a.defect.file) l)
    {source : String} (hread : v.disk.readText (v.absolute a.defect.file) = .ok source) :
    Overlay.Has overlay w a.defect.file l source := by
  obtain ⟨m, content, mode, modified, hplain', hout, htheirs, hm, hat, -⟩ := h.stat hplan ha
  obtain rfl := World.location_unique hplain' hplain
  have hpath := World.plain_absolute_path hplain
  rw [World.absolute_path] at hpath
  have hcontents := h.contents m hpath hout htheirs
  rw [Overlay.Shows] at hcontents
  rw [Overlay.Has]
  split
  · rename_i text htext
    rw [htext] at hcontents
    obtain ⟨mode', modified', hat'⟩ := hcontents
    have htext' := Disk.readText_of_toUTF8 (Disk.read_eq_ok_iff.mpr ⟨m, mode', modified', hm, hat'⟩)
    rw [htext'] at hread
    exact (Except.ok.inj hread).symm
  · rename_i hnone
    rw [hnone] at hcontents
    rcases hcontents with heq | ⟨-, hdirectory⟩
    · obtain ⟨-, k, old, oldMode, time, hk, -, -, hstat, -⟩ := hplan a ha
      obtain ⟨k', hk', hat'⟩ := Disk.stat_eq_ok_iff.mp hstat
      obtain rfl := hplain.eq_of_locate hk'
      rw [hat, hat'] at heq
      cases heq
      have hnow := Disk.read_eq_ok_iff.mpr ⟨k', _, _, hm, hat⟩
      have hthen := Disk.read_eq_ok_iff.mpr ⟨k', _, _, hk', hat'⟩
      rw [← hread]
      exact Disk.readText_congr (hthen.trans hnow.symm)
    · rw [hat] at hdirectory
      cases hdirectory

/-- What is not touched outside the directory of the store still is as the overlay has it. -/
theorem contents_of_same (h : InStep b base theirs w overlay r v) {touched : Location → Prop}
    (hv : Within touched v v') {k : Location} (hk : ¬ touched k) (hplain : Plain w.disk k.path k)
    (hout : ¬ base <+: k) (htheirs : ¬ theirs k) : Overlay.Shows overlay w v' k := by
  have hold := h.contents k hplain hout htheirs
  rw [Overlay.Shows] at hold ⊢
  split at hold
  · obtain ⟨mode, modified, hat⟩ := hold
    exact ⟨mode, modified, hv.frame.eq_of_some hk hat⟩
  · rcases hv.frame.same k hk with heq | ⟨hnone, hdirectory⟩
    · rw [heq]
      exact hold
    · rcases hold with heq | ⟨-, hdir⟩
      · exact Or.inr ⟨heq.symm.trans hnone, hdirectory⟩
      · rw [hnone] at hdir
        cases hdir

/-- Changes in the directory of the store do not matter. -/
theorem below (h : InStep b base theirs w overlay r v) (hunder : Underway b base theirs w r v')
    (hv : Within (base <+: ·) v v') (hplan : r.plan.Writable base theirs w) :
    InStep b base theirs w overlay r v' where
  underway := hunder
  contents := fun _ hplain hout htheirs => h.contents_of_same hv hout hplain hout htheirs
  modes := by
    intro a ha l hplain
    obtain ⟨-, m, -, -, -, hplain', hout, -⟩ := hplan a ha
    obtain rfl := World.location_unique hplain' hplain
    obtain ⟨content, mode, modified, hat, hwritable⟩ := h.modes a ha m hplain
    exact ⟨content, mode, modified, hv.frame.eq_of_some hout hat, hwritable⟩

/-- A planned file is written, with its permission bits kept, while the trial writes to its
overlay. -/
theorem written (h : InStep b base theirs w overlay r v) (hplan : r.plan.Writable base theirs w)
    (ha : a ∈ r.plan.actions) (hadvisory : a.advisory = false)
    (hplain : Plain w.disk (w.absolute a.defect.file) l) {text : String} {m : Location}
    {mode modified : Nat} (hlead : v.MayLead a.defect.file m) (hv : Within (· = m) v v')
    (hat : v'.disk.at? m = some (.file text.toUTF8 mode modified))
    (hmode : ∀ old oldMode time, v.stat a.defect.file = .ok (.file old oldMode time) →
      mode = oldMode) : InStep b base theirs w ((l.path, text) :: overlay) r v' := by
  obtain ⟨k, content, oldMode, time, hplain', hout, -, hk, hat', hwritable⟩ := h.stat hplan ha
  obtain rfl := World.location_unique hplain hplain'
  obtain ⟨d, hframe, hlocate⟩ := hlead
  obtain rfl := ((h.underway.changed.plain hplain).frame hframe).eq_of_locate hlocate
  have hstat : v.stat a.defect.file = .ok (.file content oldMode time) :=
    Disk.stat_eq_ok_iff.mpr ⟨m, hk, hat'⟩
  constructor
  · exact h.underway.written hplain hout ⟨a, ha, hadvisory, hplain⟩
      ⟨m, mode, modified, ⟨d, hframe, hlocate⟩, hv, hat⟩
  · intro n hn hbeside htheirs
    by_cases heq : n = m
    · rw [heq, Overlay.Shows, List.lookup_cons_self]
      exact ⟨mode, modified, hat⟩
    · have hpath := World.plain_absolute_path hplain
      rw [World.absolute_path] at hpath
      have hne : n.path ≠ m.path := by
        intro hpaths
        rw [hpaths] at hn
        exact heq (World.location_unique hn hpath)
      rw [Overlay.Shows, List.lookup_cons, beq_eq_false_iff_ne.mpr hne]
      exact h.contents_of_same hv heq hn hbeside htheirs
  · intro a' ha' n hn
    by_cases heq : n = m
    · rw [heq]
      refine ⟨_, mode, modified, hat, ?_⟩
      rw [hmode content oldMode time hstat]
      exact hwritable
    · obtain ⟨old, mode', modified', hat'', hwritable'⟩ := h.modes a' ha' n hn
      exact ⟨old, mode', modified', hv.frame.eq_of_some heq hat'', hwritable'⟩

end InStep

/-! ## One action -/

section Apply

variable {rf : Refactoring} {d : Defect} {member : Option Snapshot}

theorem foreseen_of_unparsable {source : String} {cause : Syntax.ParseError}
    (h : b.parse.verify source = .error cause) :
    b.foreseen rf d source =
      (.error (.refactoring (.rewrite (.unparsable d.file cause))), none) := by
  rw [foreseen, Refactoring.compute, h]
  rfl

/-- A written file that passes its check is reported as foreseen. -/
theorem agrees_settled {verdict : Verdict} (hpasses : verdict.success = true) {detail : ApplyDetail}
    {snapshot : Uid} {shifts : List LineShift} {merged : String} {mode : MergeMode}
    (hstatus : detail.status = .success) :
    (ActionOutcome.ofDetail (settled { detail with merge := some mode, snapshot := some snapshot }
      shifts merged verdict)).Agrees (.ofDetail { detail with
        linesAfter := Text.lineCount merged, shifts, merge := some mode }) := by
  have hdry : ActionOutcome.ofDetail { detail with
      linesAfter := Text.lineCount merged, shifts, merge := some mode } = .applied { detail with
        linesAfter := Text.lineCount merged, shifts, merge := some mode } := by
    rw [ActionOutcome.ofDetail, hstatus]
  rw [hdry, settled, if_pos hpasses]
  split
  all_goals exact .applied ⟨rfl, rfl, rfl, rfl, rfl, rfl, rfl, rfl⟩

/-- An action does to its file what a trial does to the overlay, unless an operation fails. -/
theorem apply_inStep (h : InStep b base theirs w overlay r v)
    (hplan : r.plan.Writable base theirs w)
    (hcheck : ∀ file, b.store.LeftAlone base theirs fun w => (b.check file w).2)
    (hpasses : ∀ file w, (b.check file w).1.success = true) (ha : a ∈ r.plan.actions)
    (hfile : d.file = a.defect.file) (hplain : Plain w.disk (w.absolute d.file) l)
    (hmember : ∀ t, member = some t → t ∈ r.members)
    (hedit : a.advisory = false ∨ ∀ source content shifts description,
      rf.compute b.parse d source ≠ .ok (.edit content shifts description)) :
    (b.apply rf d member).Ends v fun res v' => (∃ e, res = .error e ∧ e.OfSystem) ∨
      Foreseen b w rf d l overlay fun dry overlay' =>
        (ActionOutcome.ofResult res).Agrees dry ∧ InStep b base theirs w overlay' r v' := by
  have htrouble (trouble : List (Option SystemError)) :
      InStep b base theirs w overlay r { v with trouble } :=
    h.below (h.underway.trouble trouble) (.ofTrouble v trouble) hplan
  have hhas {source : String} (hread : v.disk.readText (v.absolute d.file) = .ok source) :
      Overlay.Has overlay w d.file l source := by
    rw [hfile] at hplain hread ⊢
    exact h.has hplan ha hplain hread
  obtain ⟨k, old, oldMode, time, hplain', hout, -, hk, hat, hwritable⟩ := h.stat hplan ha
  rw [hfile] at hplain
  obtain rfl := World.location_unique hplain hplain'
  have hstat : v.stat d.file = .ok (.file old oldMode time) := by
    rw [hfile]
    exact Disk.stat_eq_ok_iff.mpr ⟨l, hk, hat⟩
  have hjava : d.file.isJava = true := by
    rw [hfile]
    exact (hplan a ha).1
  rw [apply]
  refine Refactoring.ends_checkTarget.mapError.bind ?_ ?_
  · rintro _ _ ⟨⟨trouble, rfl⟩, -⟩
    refine World.ends_readText.mapError.bind ?_ ?_
    · rintro source _ ⟨⟨trouble', rfl⟩, hread⟩
      have hsource := hhas (hread source rfl)
      refine rewrite_ends.bind ?_ ?_
      · rintro (⟨content, shifts, description⟩ | ⟨description, notes⟩) _ ⟨rfl, hcompute⟩
        · have hadvisory : a.advisory = false := hedit.resolve_right fun hnever =>
            hnever source content shifts description hcompute
          have hwrite : r.plan.MayWrite w l := ⟨a, ha, hadvisory, hplain⟩
          have hplaind : Plain w.disk (w.absolute d.file) l := by
            rw [hfile]
            exact hplain
          have h₁ := htrouble trouble'
          dsimp only
          refine (snapshotFor_ends h₁.underway hplaind hmember hwrite hout source).mapError.bind
            ?_ ?_
          · rintro t v₂ ⟨hunder₂, hv₂, -⟩
            have h₂ := h₁.below hunder₂ hv₂ hplan
            refine World.ends_writeFile_keepsMode.mapError.bind ?_ ?_
            · rintro _ v₃ ⟨m, mode, modified, hlead, hv₃, hat₃, hmode⟩
              rw [hfile] at hlead hmode
              have h₃ := (h₂.written hplan ha hadvisory hplain hlead hv₃ hat₃ hmode).leftAlone
                (hcheck d.file) hplan
              refine Act.Ends.bind (P := fun res v₄ => res = .ok (b.check d.file v₃).1 ∧
                v₄ = (b.check d.file v₃).2) (Act.ends_always ⟨rfl, rfl⟩) ?_ ?_
              · rintro verdict v₄ ⟨hverdict, rfl⟩
                have hsuccess : verdict.success = true := by
                  rw [Except.ok.inj hverdict]
                  exact hpasses d.file v₃
                rw [hsuccess, Bool.not_true, if_neg Bool.false_ne_true]
                refine Act.ends_pure (Or.inr ⟨source, hsource, ?_, ?_⟩)
                · rw [foreseen, hcompute]
                  exact agrees_settled hsuccess rfl
                · rw [foreseen, hcompute]
                  exact h₃
              · rintro e v₄ ⟨he, -⟩
                cases he
            · rintro _ v₃ ⟨e, rfl, -⟩
              exact Or.inl ⟨_, rfl, trivial⟩
          · rintro _ v₂ ⟨e, rfl, -⟩
            exact Or.inl ⟨_, rfl, trivial⟩
        · refine Act.ends_pure (Or.inr ⟨source, hsource, ?_, ?_⟩)
          · rw [foreseen, hcompute]
            exact .advised (.refl _)
          · rw [foreseen, hcompute]
            exact htrouble trouble'
      · rintro _ _ ⟨rfl, cause, rfl, hcompute⟩
        refine Or.inr ⟨source, hsource, ?_, ?_⟩
        · rw [foreseen, hcompute]
          exact .failed rfl
        · rw [foreseen, hcompute]
          exact htrouble trouble'
    · rintro _ _ ⟨e, rfl, -⟩
      exact Or.inl ⟨_, rfl, trivial⟩
  · rintro _ _ ⟨e, rfl, ⟨trouble, rfl⟩, hchecked⟩
    rcases hchecked old oldMode time hjava hstat hwritable with ⟨cause, he⟩ | ⟨source, hread, he⟩
    · cases he
      exact Or.inl ⟨_, rfl, trivial⟩
    · rw [Refactoring.checked] at he
      split at he
      · cases he
      · rename_i cause hverify
        cases he
        refine Or.inr ⟨source, hhas hread, ?_, ?_⟩
        · rw [foreseen_of_unparsable hverify]
          exact .failed rfl
        · rw [foreseen_of_unparsable hverify]
          exact htrouble trouble

end Apply

/-! ## Actions in step -/

section Actions

variable {rf : Refactoring} {d : Defect} {member : Option Snapshot} {t : Tuning}
  {defects : List Defect} {u : World}

/-- Where every check passes, no file has to be put back, so that no failure is unrecoverable. -/
theorem apply_recoverable (hpasses : ∀ file w, (b.check file w).1.success = true) :
    (b.apply rf d member).Ends v fun res _ => ∀ e, res = .error e → e.isUnrecoverable = false := by
  have hfails {e : ApplyError} (he : e.isUnrecoverable = false) :
      ∀ e', (Except.error e : Except ApplyError ApplyDetail) = .error e' →
        e'.isUnrecoverable = false := by
    rintro _ ⟨⟩
    exact he
  rw [apply]
  refine Act.ends_trivial.mapError.bind ?_ ?_
  · intro _ v₁ _
    refine Act.ends_trivial.mapError.bind ?_ ?_
    · intro source v₂ _
      refine rewrite_ends.bind ?_ ?_
      · rintro (⟨content, shifts, description⟩ | ⟨description, notes⟩) v₃ -
        · refine Act.ends_trivial.mapError.bind ?_ ?_
          · intro t v₄ _
            refine Act.ends_trivial.mapError.bind ?_ ?_
            · intro _ v₅ _
              refine Act.Ends.bind (P := fun res _ => res = .ok (b.check d.file v₅).1)
                (Act.ends_always rfl) ?_ ?_
              · intro verdict v₆ hverdict
                rw [Except.ok.inj hverdict, hpasses, Bool.not_true, if_neg Bool.false_ne_true]
                refine Act.ends_pure ?_
                rintro _ ⟨⟩
              · rintro _ _ ⟨⟩
            · rintro _ v₅ ⟨e, rfl, -⟩
              exact hfails rfl
          · rintro _ v₄ ⟨e, rfl, -⟩
            exact hfails rfl
        · refine Act.ends_pure ?_
          rintro _ ⟨⟩
      · rintro _ v₃ ⟨-, cause, rfl, -⟩
        exact hfails (rewriteFailure_recoverable rf d cause)
    · rintro _ v₂ ⟨e, rfl, -⟩
      exact hfails rfl
  · rintro _ v₁ ⟨e, rfl, -⟩
    exact hfails rfl

/-- A live action reports what is foreseen of the content on trial, and stays in step. -/
theorem applyAction_inStep (h : Underway b base theirs w r v)
    (hplan : r.plan.Writable base theirs w)
    (hcheck : ∀ file, b.store.LeftAlone base theirs fun w => (b.check file w).2)
    (hpasses : ∀ file w, (b.check file w).1.success = true) (ha : a ∈ r.plan.actions)
    (hfile : d.file = a.defect.file) (hplain : Plain w.disk (w.absolute d.file) l)
    (hfound : b.catalog.find? a.refactoring = some rf)
    (hedit : a.advisory = false ∨ ∀ d source content shifts description,
      rf.compute b.parse d source ≠ .ok (.edit content shifts description)) :
    (b.applyAction r a d).Ends v fun res v' => ∃ outcome, res = .ok outcome ∧
      Underway b base theirs w r v' ∧ (InStep b base theirs w overlay r v → outcome.OfSystem ∨
        Foreseen b w rf d l overlay fun dry overlay' =>
          outcome.Agrees dry ∧ InStep b base theirs w overlay' r v') := by
  have hmember : ∀ t, r.member? (v.identity d.file) = some t → t ∈ r.members :=
    fun _ => List.mem_of_find?_eq_some
  obtain ⟨l', -, hplain', hout, -⟩ := hplan.reaches a ha
  rw [← hfile] at hplain'
  obtain rfl := World.location_unique hplain' hplain
  have hunder := apply_ends h hcheck hplain hout hmember
    (hedit.imp (fun hadvisory => ⟨a, ha, hadvisory, hfile ▸ hplain⟩) fun hnever => hnever d)
  have hstep : (b.apply rf d (r.member? (v.identity d.file))).Ends v fun res v' =>
      InStep b base theirs w overlay r v → (∃ e, res = .error e ∧ e.OfSystem) ∨
        Foreseen b w rf d l' overlay fun dry overlay' =>
          (ActionOutcome.ofResult res).Agrees dry ∧ InStep b base theirs w overlay' r v' := by
    by_cases hin : InStep b base theirs w overlay r v
    · exact (apply_inStep hin hplan hcheck hpasses ha hfile hplain hmember
        (hedit.imp_right fun hnever => hnever d)).mono fun _ _ hres _ => hres
    · exact Act.ends_trivial.mono fun _ _ _ h => absurd h hin
  refine applyAction_of_apply h hplan.reaches ha hfile hfound
    (hunder.and (hstep.and (apply_recoverable hpasses))) ?_ ?_ ?_
  · rintro detail v' ⟨h', hres, -⟩
    refine ⟨_, rfl, h', fun hin => (hres hin).imp_left ?_⟩
    rintro ⟨_, heq, -⟩
    cases heq
  · rintro e v' ⟨-, -, hrecoverable⟩ hunrecoverable
    rw [hrecoverable e rfl] at hunrecoverable
    cases hunrecoverable
  · rintro e v' ⟨h', hres, -⟩ -
    refine ⟨_, rfl, h', fun hin => (hres hin).imp_left ?_⟩
    rintro ⟨_, heq, he⟩
    cases heq
    exact he

theorem foreseen_of_error {source : String} {e : ApplyError}
    (h : (b.foreseen rf d source).1 = .error e) : (b.foreseen rf d source).2 = none := by
  unfold foreseen at h ⊢
  split
  · rfl
  · rfl
  · rename_i hcompute
    rw [hcompute] at h
    cases h

/-- A trial reports what is foreseen of the content on trial, and changes nothing. -/
theorem tryAction_settles (hplain : Plain w.disk (w.absolute d.file) l)
    (hfound : b.catalog.find? a.refactoring = some rf) :
    Settles (b.tryAction a d overlay) w fun x w' => (∃ trouble, w' = { w with trouble }) ∧
      (x.1.OfSystem ∨ Foreseen b w rf d l overlay fun dry overlay' =>
        x.1 = dry ∧ x.2 = overlay') := by
  rw [tryAction, hfound]
  refine (trial_ends hplain).settle.bind ?_
  rintro res w' ⟨hw', hres⟩
  rcases hres with ⟨e, rfl, he⟩ | ⟨source, hhas, rfl⟩
  · exact Act.settles_pure ⟨hw', Or.inl he⟩
  · cases hforeseen : (b.foreseen rf d source).1 with
    | ok detail =>
      refine Act.settles_pure ⟨hw', Or.inr ⟨source, hhas, ?_, rfl⟩⟩
      rw [hforeseen]
      rfl
    | error e =>
      refine Act.settles_pure ⟨hw', Or.inr ⟨source, hhas, ?_, ?_⟩⟩
      · rw [hforeseen]
        rfl
      · rw [foreseen_of_error hforeseen]
        rfl

/-- Two runs one of which reports an operation that failed. -/
def Spoiled (r r' : Run) : Prop :=
  (∃ x ∈ r.actions, x.outcome.OfSystem) ∨ ∃ x ∈ r'.actions, x.outcome.OfSystem

/-- A live run in step with a trial, with the same reports so far. -/
structure Together (b : Workbench) (base : Location) (theirs : Location → Prop) (w : World)
    (overlay : Overlay) (r : Run) (v : World) (r' : Run) : Prop where
  reports : List.Forall₂ ActionReport.Agrees r.actions r'.actions
  step : InStep b base theirs w overlay r v

theorem Spoiled.report (h : Spoiled r r') (x y : ActionReport) :
    Spoiled { r with actions := r.actions ++ [x] } { r' with actions := r'.actions ++ [y] } :=
  h.imp (fun ⟨z, hz, hsystem⟩ => ⟨z, List.mem_append_left _ hz, hsystem⟩)
    fun ⟨z, hz, hsystem⟩ => ⟨z, List.mem_append_left _ hz, hsystem⟩

/-- What comes of one action keeps a live run and a trial together, with the same lines. -/
theorem together_report {lines lines' : LineMap} (index : Nat)
    (htogether : Spoiled r r' ∨ lines = lines' ∧ Together b base theirs w overlay r v r')
    {outcome dry : ActionOutcome} {overlay' : Overlay}
    (hlive : InStep b base theirs w overlay r v → outcome.OfSystem ∨
      Foreseen b w rf (lines.remapDefect l.path a.defect) l overlay fun o written =>
        outcome.Agrees o ∧ InStep b base theirs w written r v')
    (hdry : dry.OfSystem ∨ Foreseen b w rf (lines'.remapDefect l.path a.defect) l overlay
      fun o written => dry = o ∧ overlay' = written) :
    Spoiled (r.report index a.refactoring (lines.remapDefect l.path a.defect) outcome)
        (r'.report index a.refactoring (lines'.remapDefect l.path a.defect) dry) ∨
      lines.record l.path outcome.shifts = lines'.record l.path dry.shifts ∧
        Together b base theirs w overlay'
          (r.report index a.refactoring (lines.remapDefect l.path a.defect) outcome) v'
          (r'.report index a.refactoring (lines'.remapDefect l.path a.defect) dry) := by
  rcases htogether with hspoiled | ⟨rfl, htogether⟩
  · exact Or.inl (hspoiled.report _ _)
  · rcases hlive htogether.step with hsystem | ⟨source, hsource, hagrees, hstep⟩
    · exact Or.inl (Or.inl ⟨_, List.mem_append_right _ (List.mem_singleton_self _), hsystem⟩)
    · rcases hdry with hsystem | ⟨source', hsource', rfl, rfl⟩
      · exact Or.inl (Or.inr ⟨_, List.mem_append_right _ (List.mem_singleton_self _), hsystem⟩)
      · obtain rfl := hsource.unique hsource'
        refine Or.inr ⟨congrArg _ hagrees.shifts, ?_, hstep.goesOn (.report r index _ _ _)⟩
        exact List.rel_append htogether.reports
          (.cons ⟨rfl, rfl, rfl, hagrees⟩ .nil)

/-- All actions of a live run and of a trial go in step, unless an operation fails. -/
theorem actions_in_step (h : Underway b base theirs w r v) (hcatalog : b.catalog = .standard t)
    (hbuild : r.plan = Plan.build b.root b.catalog defects)
    (hplan : r.plan.Writable base theirs w)
    (hcheck : ∀ file, b.store.LeftAlone base theirs fun w => (b.check file w).2)
    (hpasses : ∀ file w, (b.check file w).1.success = true)
    (hgoesOn : b.settings.stopsOnFailure = false) {lines lines' : LineMap}
    (htogether : Spoiled r r' ∨ lines = lines' ∧ Together b base theirs w overlay r v r')
    {actions : List PlannedAction} (hactions : ∀ a ∈ actions, a ∈ r.plan.actions) (index : Nat)
    (hu : ∃ trouble, u = { w with trouble }) :
    (b.applyActions r lines index actions).Ends v fun res v' => ∃ r₁, res = .ok r₁ ∧
      Settles (b.tryActions r' lines' overlay index actions) u fun x u' =>
        (∃ trouble, u' = { w with trouble }) ∧
          (Spoiled r₁ x.1 ∨ Together b base theirs w x.2 r₁ v' x.1) := by
  induction actions generalizing r v r' lines lines' overlay index u with
  | nil => exact Act.ends_pure ⟨r, rfl, Act.settles_pure ⟨hu, htogether.imp_right (·.2)⟩⟩
  | cons a actions ih =>
    obtain ⟨trouble, rfl⟩ := hu
    have ha := hactions a List.mem_cons_self
    obtain ⟨rf, hfound, hedit⟩ := exists_refactoring hcatalog hbuild ha
    obtain ⟨l, -, hplain, -⟩ := hplan.reaches a ha
    have hidentity : World.identity { w with trouble } a.defect.file = l.path :=
      World.identity_of_plain hplain
    have hidentity' {v' : World} (h' : Underway b base theirs w r v') :
        v'.identity a.defect.file = l.path := World.identity_of_plain (h'.changed.plain hplain)
    rw [applyActions]
    refine Act.ends_look_bind ?_
    rw [hidentity' h]
    have hfile (m : LineMap) : (m.remapDefect l.path a.defect).file = a.defect.file := rfl
    have hlive : (b.applyAction r a (lines.remapDefect l.path a.defect)).Ends v fun res v' =>
        ∃ outcome, res = .ok outcome ∧ Underway b base theirs w r v' ∧
          (InStep b base theirs w overlay r v → outcome.OfSystem ∨
            Foreseen b w rf (lines.remapDefect l.path a.defect) l overlay fun dry overlay' =>
              outcome.Agrees dry ∧ InStep b base theirs w overlay' r v') :=
      applyAction_inStep h hplan hcheck hpasses ha (hfile lines) hplain hfound hedit
    have htry : Settles (b.tryAction a (lines'.remapDefect l.path a.defect) overlay)
        { w with trouble } fun x w' => (∃ trouble, w' = { w with trouble }) ∧ (x.1.OfSystem ∨
          Foreseen b w rf (lines'.remapDefect l.path a.defect) l overlay fun dry overlay' =>
            x.1 = dry ∧ x.2 = overlay') :=
      tryAction_settles hplain hfound
    obtain ⟨⟨trouble', hw'⟩, hdry⟩ := Act.settles_iff.mp htry
    rcases hrun : b.tryAction a (lines'.remapDefect l.path a.defect) overlay { w with trouble }
      with ⟨⟨dry, overlay'⟩, u'⟩
    rw [hrun] at hw' hdry
    refine hlive.bind ?_ ?_
    · rintro outcome v₁ ⟨_, heq, h₁, hstep⟩
      cases heq
      refine Act.ends_look_bind ?_
      dsimp only
      rw [hgoesOn, Bool.and_false, if_neg Bool.false_ne_true, hfile lines, hidentity' h₁]
      have hr := Run.GoesOn.report r index a.refactoring (lines.remapDefect l.path a.defect) outcome
      have hnext := together_report index htogether hstep hdry
      refine (ih (h₁.goesOn hr) hbuild hplan hnext
        (fun a' ha' => hactions a' (List.mem_cons_of_mem a ha')) (index + 1)
        ⟨trouble', hw'⟩).mono ?_
      rintro res v' ⟨r₁, hres, hrest⟩
      refine ⟨r₁, hres, ?_⟩
      rw [tryActions]
      refine Act.settles_get_bind (.of_value ?_)
      rw [hidentity, hrun]
      refine Act.settles_get_bind ?_
      dsimp only
      have hidentity₁ : u'.identity a.defect.file = l.path := by
        have hthere : Plain u'.disk (u'.absolute a.defect.file) l := by
          rw [show u' = { w with trouble := trouble' } from hw']
          exact hplain
        exact World.identity_of_plain hthere
      rw [hfile lines', hidentity₁]
      exact hrest
    · rintro e v₁ ⟨_, heq, -⟩
      cases heq

end Actions

/-! ## Whole runs -/

section Runs

variable {t : Tuning} {defects : List Defect} {i : SnapshotIndex}

/-- Once the backup is there, nothing has been written yet and nothing reported. -/
theorem together_of_secured {j : SnapshotIndex} (hsecured : Secured b base w r v j)
    (hchanged : Changed (base <+: ·) w v) (hplan : r.plan.Writable base theirs w)
    (hr : r.actions = []) (hr' : r'.actions = []) :
    Together b base theirs w [] r v r' where
  reports := by
    rw [hr, hr']
    exact .nil
  step := by
    refine ⟨⟨⟨j, hsecured⟩, hchanged.mono fun _ => Or.inl⟩, ?_, ?_⟩
    · intro l _ hout _
      exact hchanged.same l hout
    · intro a ha l hplain
      obtain ⟨-, m, content, mode, modified, hplain', hout, -, hstat, hwritable⟩ := hplan a ha
      obtain ⟨k, hk, hat⟩ := Disk.stat_eq_ok_iff.mp hstat
      obtain rfl := hplain'.eq_of_locate hk
      obtain rfl := World.location_unique hplain' hplain
      refine ⟨content, mode, modified, ?_, hwritable⟩
      rcases hchanged.same k hout with heq | ⟨hnone, -⟩
      · rw [heq, hat]
      · rw [hat] at hnone
        cases hnone

/-- A trial keeps what the run has of a backup. -/
theorem tryActions_goesOn (lines : LineMap) (overlay : Overlay) (index : Nat)
    (actions : List PlannedAction) :
    Settles (b.tryActions r lines overlay index actions) w fun x _ => r.GoesOn x.1 := by
  induction actions generalizing r lines overlay index w with
  | nil => exact Act.settles_pure (.refl r)
  | cons a actions ih =>
    rw [tryActions]
    refine Act.settles_get_bind (.of_value (Act.settles_get_bind ?_))
    exact (ih _ _ _).mono fun _ _ h => (Run.GoesOn.report r index _ _ _).trans h

/-- A trial run reports what the trial of its actions does, and leaves the same world. -/
theorem dryRun_settles (hset : r.set = none) :
    Settles (b.dryRun r) w fun o w' =>
      o.actions = (b.tryActions r .empty [] 0 r.plan.actions w).1.1.actions ∧
        w' = (b.tryActions r .empty [] 0 r.plan.actions w).2 := by
  have hgoesOn := Act.settles_iff.mp
    (tryActions_goesOn (b := b) (r := r) (w := w) .empty [] 0 r.plan.actions)
  rw [dryRun]
  refine .of_value ?_
  dsimp only
  rw [finish, hgoesOn.set, hset]
  exact Act.settles_pure ⟨rfl, rfl⟩

end Runs

theorem writable_sample (i : SnapshotIndex) :
    (Plan.build sampleBench.root sampleBench.catalog [sampleDefect]).Writable ["s"]
      (fun _ => False) (sampleWorld i) := by
  intro a ha
  rw [plan_sample] at ha
  rw [List.mem_singleton.mp ha]
  exact ⟨by decide +kernel, ["B.java"], "class B {}".toUTF8, 0o644, 0, plain_sample i, by decide,
    fun _ _ => id, Disk.stat_eq_ok_iff.mpr ⟨_, locate_sample i, rfl⟩, by decide⟩

end Workbench

end Amend
