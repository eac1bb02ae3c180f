import Amend.Proofs.Snapshot.Capture
import Amend.Proofs.Workflow.Loss

/-!
# An action leaves its file whole

An action writes its file in one step and undoes that step if the check fails.  Whichever of its
steps is refused, the file then has all of its old bytes or all of the new ones, and the outcome
tells which; only where the file could not be put back does the outcome say nothing about it.

The snapshot to put back was either taken before, and its checksum is that of the content, or it is
taken just before the write.
-/

namespace Amend

open Disk (Frame Plain)
open Amend.Path (Component IsName)
open World (Within)
open FileLocks (Region Under)

/-! ## Regular files -/

namespace Disk

variable {d : Disk} {p : Path} {l : Location}

/-- What is reached without following the last name is reached by following it too, unless it is a
link. -/
theorem walkFrom_followed (hl : ∀ target, d.at? l ≠ some (.link target))
    {follow follow' : List String → List Component → Except SystemError Location}
    (hfollow : ∀ done todo, follow done todo = .ok l → follow' done todo = .ok l)
    {todo : List Component} : ∀ {done : List String},
    d.walkFrom false follow done todo = .ok l → d.walkFrom true follow' done todo = .ok l := by
  induction todo with
  | nil => exact fun h => h
  | cons c rest ih =>
    intro done h
    cases c with
    | root => exact ih h
    | current => exact ih h
    | parent => exact ih h
    | normal name =>
      rw [walkFrom] at h ⊢
      split at h
      · cases h
      rename_i hsize
      rw [if_neg hsize]
      cases hat : d.at? (name :: done).reverse with
      | none =>
        simp only [hat] at h ⊢
        exact h
      | some e =>
        cases e with
        | directory =>
          simp only [hat] at h ⊢
          exact ih h
        | file content mode modified =>
          simp only [hat] at h ⊢
          exact h
        | link target =>
          simp only [hat, Bool.not_false, Bool.and_true, Bool.not_true, Bool.and_false,
            Bool.false_eq_true, if_false] at h ⊢
          split at h
          · cases h
            exact absurd hat (hl target)
          · exact hfollow _ _ h

theorem locate_followed (hl : ∀ target, d.at? l ≠ some (.link target))
    (h : d.locate p false = .ok l) : d.locate p = .ok l := by
  obtain ⟨hempty, hzero, hwalk, hkind⟩ := locate_eq_ok_iff.mp h
  refine locate_eq_ok_iff.mpr ⟨hempty, hzero, ?_, hkind⟩
  cases hmeans : meansDirectory p with
  | true =>
    rw [hmeans] at hwalk
    exact hwalk
  | false =>
    rw [hmeans] at hwalk
    have hon (n : Nat) : ∀ done todo, d.walk false n done todo = .ok l →
        d.walk true n done todo = .ok l := by
      induction n with
      | zero => exact fun _ _ => walkFrom_followed hl fun _ _ h => by cases h
      | succ n ih => exact fun _ _ => walkFrom_followed hl ih
    exact hon 40 [] p.components hwalk

/-- A path that ends in a slash can only mean a directory. -/
theorem meansDirectory_of_glue (h : p.text ≠ "") (hglue : p.glue = "") :
    meansDirectory p = true := by
  rw [Path.glue] at hglue
  split at hglue
  case isTrue hlast =>
    obtain ⟨front, hfront⟩ := List.getLast?_eq_some_iff.mp (hlast.resolve_left h)
    rw [meansDirectory, hfront, List.reverse_append]
    rfl
  case isFalse => exact absurd hglue (by decide)

end Disk

namespace World

variable {w w' : World} {base l : Location} {p : Path} {content : ByteArray} {s : SnapshotStore}
  {touched : Location → Prop}

/-- The file at a location has some content. -/
def Holds (w : World) (l : Location) (content : ByteArray) : Prop :=
  ∃ mode modified, w.disk.at? l = some (.file content mode modified)

/-- A path to a regular file, which is not a link to one.  There may be links on the way. -/
structure NamesFile (w : World) (p : Path) (l : Location) (content : ByteArray) : Prop where
  located : w.disk.locate (w.absolute p) false = .ok l
  holds : w.Holds l content

namespace NamesFile

theorem noLink (h : NamesFile w p l content) (target : Path) :
    w.disk.at? l ≠ some (.link target) := by
  obtain ⟨mode, modified, hat⟩ := h.holds
  rw [hat]
  exact nofun

theorem followed (h : NamesFile w p l content) : w.disk.locate (w.absolute p) = .ok l :=
  Disk.locate_followed h.noLink h.located

theorem kind (h : NamesFile w p l content) : Disk.meansDirectory (w.absolute p) = false := by
  obtain ⟨mode, modified, hat⟩ := h.holds
  exact Disk.meansDirectory_of_file h.followed hat

theorem text_ne_empty (h : NamesFile w p l content) : p.text ≠ "" := by
  intro hempty
  have habsolute : w.absolute p = ⟨w.directory.text ++ w.directory.glue⟩ := by
    have hrelative : p.isAbsolute = false := by
      rw [Path.isAbsolute, hempty]
      rfl
    rw [World.absolute, Path.join_of_relative _ hrelative, hempty, String.append_empty]
  have hkind := h.kind
  have hnonempty := (Disk.locate_eq_ok_iff.mp h.located).1
  rw [habsolute] at hkind hnonempty
  rw [Disk.meansDirectory_of_glue hnonempty (Path.glue_glue w.directory)] at hkind
  cases hkind

theorem identity (h : NamesFile w p l content) : w.identity p = l.path := by
  obtain ⟨mode, modified, hat⟩ := h.holds
  exact identity_of_entry h.text_ne_empty h.followed hat

/-- The path of the file free of links is plain, whatever links were on the way. -/
theorem plain (h : NamesFile w p l content) : Plain w.disk l.path l := by
  obtain ⟨mode, modified, hat⟩ := h.holds
  obtain ⟨m, e, hm, -, -, hplain⟩ :=
    Disk.plain_of_canonical (Disk.canonical_of_entry h.followed hat)
  rw [h.followed] at hm
  cases hm
  exact hplain

/-- Changes in the directory of a store leave a file elsewhere where it was. -/
theorem below (h : NamesFile w p l content) (hunder : s.locks.Under s.dir base w)
    (hout : ¬ base <+: l) (hw : Within (base <+: ·) w w') : NamesFile w' p l content where
  located := by
    rw [hw.absolute]
    refine (hw.frame.locate h.located (fun m hm hbelow => ?_) (Or.inl h.kind)).1
    obtain ⟨target, hlink⟩ := Disk.mem_linksTo hm
    exact hunder.tree.noLinks m hbelow target hlink
  holds := by
    obtain ⟨mode, modified, hat⟩ := h.holds
    exact ⟨mode, modified, hw.frame.eq_of_some hout hat⟩

/-- What is written to the file is found there. -/
theorem writeFile (h : NamesFile w p l content) {new : ByteArray} :
    (Amend.writeFile p new).Ends w fun r w' =>
      match r with
      | .ok _ => Within (· = l) w w' ∧ w'.Holds l new
      | .error _ => Within (fun _ => False) w w' := by
  refine ends_writeFile.mono ?_
  rintro (e | _) w' hw'
  · exact hw'
  · obtain ⟨m, mode, modified, ⟨d, hframe, hm⟩, hwithin, hat⟩ := hw'
    rw [(hframe.locate h.located (fun _ _ => id) (Or.inl h.kind)).1] at hm
    cases hm
    exact ⟨hwithin, mode, modified, hat⟩

end NamesFile

theorem Holds.within (h : w.Holds l content) (hw : Within touched w w') (hl : ¬ touched l) :
    w'.Holds l content := by
  obtain ⟨mode, modified, hat⟩ := h
  exact ⟨mode, modified, hw.frame.eq_of_some hl hat⟩

end World

/-! ## Snapshots that undo an action -/

namespace SnapshotStore

variable {s : SnapshotStore} {base l : Location} {w w' : World} {t : Snapshot}
  {old : ByteArray}

/-- A snapshot of the file at a location, whose copy is right in the directory of the store. -/
structure IsOf (s : SnapshotStore) (l : Location) (t : Snapshot) : Prop where
  source : t.source.same l.path = true
  named : ∃ name, IsName name ∧ t.location = s.dir ++ name

/-- A snapshot of a file that brings its old bytes back: nothing else with the recorded checksum is
found where its copy was made. -/
structure Undoes (s : SnapshotStore) (l : Location) (old : ByteArray) (w : World) (t : Snapshot) :
    Prop where
  isOf : s.IsOf l t
  bytes : ∀ bytes, w.disk.read (w.absolute t.location) = .ok bytes →
    Digest.blake3 bytes = t.checksum → bytes = old

/-- It stays one as long as no copy is written. -/
theorem Undoes.later (h : s.Undoes l old w t) (hunder : s.locks.Under s.dir base w)
    (hunder' : s.locks.Under s.dir base w')
    (hfiles : ∀ m, base <+: m → ∀ content mode modified,
      w'.disk.at? m = some (.file content mode modified) →
      w.disk.at? m = some (.file content mode modified)) : s.Undoes l old w' t where
  isOf := h.isOf
  bytes := by
    intro bytes hread hchecksum
    obtain ⟨name, hname, hlocation⟩ := h.isOf.named
    refine h.bytes bytes ?_ hchecksum
    rw [hlocation] at hread ⊢
    obtain ⟨m, mode, modified, hm, hat⟩ := Disk.read_eq_ok_iff.mp hread
    obtain ⟨rfl, hfits⟩ := (hunder'.locate_name hname).mp hm
    exact Disk.read_eq_ok_iff.mpr ⟨_, mode, modified, (hunder.locate_name hname).mpr ⟨rfl, hfits⟩,
      hfiles _ (List.prefix_append base [name]) _ _ _ hat⟩

/-- The file of a snapshot is reached without links where its location is. -/
theorem IsOf.plain (h : s.IsOf l t) (hplain : Plain w.disk l.path l) :
    Plain w.disk (w.absolute t.source) l := by
  have hcomponents : t.source.components = l.path.components := beq_iff_eq.mp h.source
  have habsolute : w.absolute t.source = t.source := by
    refine Path.join_of_absolute w.directory (Path.isAbsolute_of_root ?_)
    rw [hcomponents, hplain.components]
    exact List.mem_cons_self
  rw [habsolute]
  exact hplain.of_same_components hcomponents

/-- Putting back a snapshot that undoes gives the file its old bytes, if it succeeds. -/
theorem Undoes.restore (h : s.Undoes l old w t) (hstrict : s.policy = .strict)
    (hunder : s.locks.Under s.dir base w) (hplain : Plain w.disk l.path l) (hout : ¬ base <+: l) :
    (s.restore t).Ends w fun r w' => r = .ok () → w'.Holds l old := by
  obtain ⟨name, hname, hlocation⟩ := h.isOf.named
  have hclear : (s.custody base).Clear w t.source :=
    Custody.clear_of_plain (h.isOf.plain hplain) hout
  refine (restore_puts_back hunder hclear hname hlocation).mono fun r w' hback hr => ?_
  obtain ⟨bytes, hread, hchecksum, houtside⟩ := hback.content hr
  obtain ⟨m, mode, modified, hm, -, hat⟩ := houtside.found
  obtain rfl := (h.isOf.plain (hplain.frame hback.within.frame)).eq_of_locate hm
  obtain rfl := h.bytes bytes hread (hchecksum hstrict)
  exact ⟨mode, modified, hat⟩

end SnapshotStore

/-! ## One action -/

namespace Workbench

variable {b : Workbench} {base l : Location} {theirs : Location → Prop} {w : World}
  {rf : Refactoring} {d : Defect} {member : Option Snapshot} {old : ByteArray}

/-- What an action leaves of the old content of its file: the new text, where the outcome tells of
a success; the old bytes, where it tells of anything but that they could not be put back. -/
structure LeavesWhole (b : Workbench) (rf : Refactoring) (d : Defect) (l : Location)
    (old : ByteArray) (res : Except ApplyError ApplyDetail) (w' : World) : Prop where
  written : ∀ detail, res = .ok detail →
    detail.status = .success ∨ detail.status = .successWithWarnings →
    ∃ source content shifts description, source.toUTF8 = old ∧
      rf.compute b.parse d source = .ok (.edit content shifts description) ∧
      w'.Holds l (merge b.parse source content).1.toUTF8
  advised : ∀ detail, res = .ok detail → detail.status = .advisory → w'.Holds l old
  putBack : ∀ detail, res = .ok detail → detail.status = .compilationFailed →
    detail.restored = true ∧ w'.Holds l old
  failed : ∀ e, res = .error e → (∀ cause, e ≠ .rollback cause) → w'.Holds l old

theorem leavesWhole_of_failed {e : ApplyError} {w' : World}
    (h : (∀ cause, e ≠ .rollback cause) → w'.Holds l old) :
    b.LeavesWhole rf d l old (.error e) w' where
  written := by rintro _ ⟨⟩
  advised := by rintro _ ⟨⟩
  putBack := by rintro _ ⟨⟩
  failed := by
    rintro _ ⟨⟩
    exact h

/-- The outcome of an action whose file passed the check. -/
theorem leavesWhole_of_passed {source content description : String} {shifts shifts' : List LineShift}
    {detail : ApplyDetail} {merged : String} {verdict : Verdict} {w' : World}
    (hpasses : verdict.success = true) (htext : source.toUTF8 = old)
    (hcompute : rf.compute b.parse d source = .ok (.edit content shifts description))
    (hnew : w'.Holds l (merge b.parse source content).1.toUTF8) :
    b.LeavesWhole rf d l old (.ok (settled detail shifts' merged verdict)) w' := by
  rw [settled, if_pos hpasses]
  refine ⟨fun _ _ _ => ⟨source, content, shifts, description, htext, hcompute, hnew⟩, ?_, ?_, nofun⟩
  all_goals
    rintro _ ⟨⟩ hstatus
    dsimp only at hstatus
    split at hstatus <;> cases hstatus

/-- The outcome of an action whose file did not pass the check and was put back. -/
theorem leavesWhole_of_putBack {shifts : List LineShift} {detail : ApplyDetail} {merged : String}
    {verdict : Verdict} {w' : World} (hfails : verdict.success = false) (hold : w'.Holds l old) :
    b.LeavesWhole rf d l old (.ok (settled detail shifts merged verdict)) w' := by
  rw [settled, hfails, if_neg Bool.false_ne_true]
  refine ⟨?_, ?_, ?_, nofun⟩
  · rintro _ ⟨⟩ (hstatus | hstatus) <;> cases hstatus
  · rintro _ ⟨⟩ hstatus
    cases hstatus
  · rintro _ ⟨⟩ _
    exact ⟨rfl, hold⟩

/-- The outcome of an action that only reports findings. -/
theorem leavesWhole_of_advice {description source : String} {notes : List String} {w' : World}
    (hold : w'.Holds l old) :
    b.LeavesWhole rf d l old (.ok (.advice rf d description notes source)) w' := by
  refine ⟨?_, fun _ _ _ => hold, ?_, nofun⟩
  · rintro _ ⟨⟩ (hstatus | hstatus) <;> cases hstatus
  · rintro _ ⟨⟩ hstatus
    cases hstatus

/-- What an action starts from: a store in order, a file outside of its directory and, if the file
was secured before, a snapshot of it.  What is found where that was copied is the content of the
file if it has its checksum. -/
structure Begins (b : Workbench) (base : Location) (d : Defect) (member : Option Snapshot)
    (l : Location) (old : ByteArray) (w : World) : Prop where
  store : ∃ i, b.store.InOrder base w i
  file : w.NamesFile d.file l old
  out : ¬ base <+: l
  secured : ∀ t, member = some t → b.store.IsOf l t
  unmistaken : ∀ t, member = some t → ∀ bytes, w.disk.read (w.absolute t.location) = .ok bytes →
    Digest.blake3 bytes = Digest.blake3 old → bytes = old

/-- What the system says to operations does not matter. -/
theorem Begins.trouble (h : b.Begins base d member l old w) {w' : World}
    (hw : ∃ trouble, w' = { w with trouble }) : b.Begins base d member l old w' := by
  obtain ⟨trouble, rfl⟩ := hw
  obtain ⟨i, hi⟩ := h.store
  exact ⟨⟨i, hi.within_region (.ofTrouble w trouble)⟩, ⟨h.file.located, h.file.holds⟩, h.out,
    h.secured, h.unmistaken⟩

/-- The text that was read from the file is its content. -/
theorem Begins.toUTF8 (h : b.Begins base d member l old w) {source : String}
    (hread : w.disk.readText (w.absolute d.file) = .ok source) : source.toUTF8 = old := by
  obtain ⟨mode, modified, hat⟩ := h.file.holds
  have hbytes : w.disk.read (w.absolute d.file) = .ok old :=
    Disk.read_eq_ok_iff.mpr ⟨l, mode, modified, h.file.followed, hat⟩
  rw [Disk.readText, hbytes] at hread
  simp only [bind, Except.bind] at hread
  split at hread
  · rename_i text htext
    cases hread
    rw [String.fromUTF8?] at htext
    split at htext
    · cases htext
      rfl
    · cases htext
  · cases hread

/-- The snapshot to put back brings the old bytes back, whether it was taken before or is taken
now. -/
theorem Begins.snapshotFor (h : b.Begins base d member l old w) {source : String}
    (htext : source.toUTF8 = old) :
    (b.snapshotFor d.file source member).Ends w fun r w' => Within (base <+: ·) w w' ∧
      b.store.locks.Under b.store.dir base w' ∧
      ∀ t, r = .ok t → b.store.Undoes l old w' t := by
  obtain ⟨i, hi⟩ := h.store
  rw [Workbench.snapshotFor]
  split
  · rename_i t ht
    obtain ⟨hsome, hsame⟩ := Option.filter_eq_some_iff.mp ht
    refine Act.ends_pure ⟨.refl w, hi.under, fun u hu => ?_⟩
    cases hu
    refine ⟨h.secured t hsome, fun bytes hread hchecksum => h.unmistaken t hsome bytes hread ?_⟩
    rw [hchecksum, ← htext]
    exact (of_decide_eq_true hsame).symm
  · obtain ⟨mode, modified, hat⟩ := h.file.holds
    have hidentity := h.file.identity
    have hplain : Plain w.disk (w.absolute (w.identity d.file)) l := by
      rw [hidentity, World.absolute_path]
      exact h.file.plain
    refine (SnapshotStore.create_captures hi hplain h.out hat).mono ?_
    rintro r w' ⟨hw', hunder, hcaptured⟩
    refine ⟨hw', hunder, fun t ht => ?_⟩
    obtain ⟨hsource, ⟨name, hname, hlocation⟩, hbytes⟩ := hcaptured t ht
    refine ⟨⟨?_, name, hname.isName, hlocation⟩, fun bytes hread _ => hbytes bytes hread⟩
    rw [hsource, hidentity]
    exact beq_self_eq_true _

/-- A file in the midst of an action: it has been written, and a snapshot undoes that. -/
structure Midway (b : Workbench) (base l : Location) (old new : ByteArray) (t : Snapshot)
    (w : World) : Prop where
  under : b.store.locks.Under b.store.dir base w
  undoes : b.store.Undoes l old w t
  plain : Plain w.disk l.path l
  holds : w.Holds l new

variable {new : ByteArray} {t : Snapshot} {w' : World}

/-- The file is written once the snapshot is there. -/
theorem midway_of_written (hfile : w.NamesFile d.file l old) (hout : ¬ base <+: l)
    (hunder : b.store.locks.Under b.store.dir base w) (ht : b.store.Undoes l old w t)
    (hw : Within (· = l) w w') (hnew : w'.Holds l new) : b.Midway base l old new t w' := by
  have hunder' : b.store.locks.Under b.store.dir base w' := by
    refine ⟨?_, hunder.dir_eq⟩
    rw [hw.absolute]
    refine hunder.tree.frame hw.frame ?_
    rintro m hm rfl
    obtain ⟨target, hlink⟩ := Disk.mem_linksTo hm
    exact hfile.noLink target hlink
  refine ⟨hunder', ht.later hunder hunder' (fun m hm content mode modified hat => ?_),
    hfile.plain.frame hw.frame, hnew⟩
  refine hw.frame.file_of_file ?_ hat
  rintro rfl
  exact hout hm

/-- The check leaves the file and the store alone. -/
theorem Midway.leftAlone (h : b.Midway base l old new t w) {f : World → World}
    (hf : b.store.LeftAlone base theirs f) (hl : ¬ theirs l) :
    b.Midway base l old new t (f w) := by
  have helse := hf.elsewhere w h.under.tree.located
  have hunder := helse.under h.under
  refine ⟨hunder, h.undoes.later h.under hunder fun m hm content mode modified hat => ?_,
    ⟨h.plain.components, fun m hbase hm target hlink => ?_⟩, ?_⟩
  · rwa [helse.below m hm] at hat
  · exact h.plain.linkFree m hbase hm target (hf.link w m target hlink)
  · obtain ⟨mode, modified, hat⟩ := h.holds
    exact ⟨mode, modified, (hf.same w l hl).trans hat⟩

/-- An action leaves its file whole, whatever the refactoring makes of the text, whichever steps
are refused and whatever the check says. -/
theorem apply_leaves_file_whole (h : b.Begins base d member l old w)
    (hstrict : b.store.policy = .strict)
    (hcheck : b.store.LeftAlone base theirs fun w => (b.check d.file w).2) (htheirs : ¬ theirs l) :
    (b.apply rf d member).Ends w (b.LeavesWhole rf d l old) := by
  rw [apply]
  refine Refactoring.ends_checkTarget.mapError.bind ?_ ?_
  · rintro _ w₁ ⟨hw₁, -⟩
    have h₁ := h.trouble hw₁
    refine World.ends_readText.mapError.bind ?_ ?_
    · rintro source w₂ ⟨hw₂, hread⟩
      have h₂ := h₁.trouble hw₂
      have htext := h₁.toUTF8 (hread source rfl)
      refine rewrite_ends.bind ?_ ?_
      · rintro (⟨content, shifts, description⟩ | ⟨description, notes⟩) _ ⟨rfl, hcompute⟩
        · obtain ⟨i, hi⟩ := h₂.store
          dsimp only
          refine (h₂.snapshotFor htext).mapError.bind ?_ ?_
          · rintro t w₃ ⟨hw₃, hunder, ht⟩
            have hfile := h₂.file.below hi.under h₂.out hw₃
            refine hfile.writeFile.mapError.bind ?_ ?_
            · rintro _ w₄ ⟨hw₄, hnew⟩
              have h₄ := midway_of_written hfile h.out hunder (ht t rfl) hw₄ hnew
              refine Act.Yields.bind_ends (P := fun _ w' => b.Midway base l old _ t w')
                (Act.ends_always ⟨_, rfl, h₄.leftAlone hcheck htheirs⟩) fun verdict w₅ h₅ => ?_
              cases hverdict : verdict.success with
              | false =>
                rw [Bool.not_false, if_pos rfl]
                refine (h₅.undoes.restore hstrict h₅.under h₅.plain h.out).mapError.bind ?_ ?_
                · exact fun _ w₆ hback => Act.ends_pure (leavesWhole_of_putBack hverdict (hback rfl))
                · rintro _ w₆ ⟨cause, rfl, -⟩
                  exact leavesWhole_of_failed fun hnever => absurd rfl (hnever _)
              | true =>
                rw [Bool.not_true, if_neg Bool.false_ne_true]
                exact Act.ends_pure (leavesWhole_of_passed hverdict htext hcompute h₅.holds)
            · rintro _ w₄ ⟨_, rfl, hw₄⟩
              exact leavesWhole_of_failed fun _ => hfile.holds.within hw₄ id
          · rintro _ w₃ ⟨_, rfl, hw₃, -⟩
            exact leavesWhole_of_failed fun _ => h₂.file.holds.within hw₃ h.out
        · exact Act.ends_pure (leavesWhole_of_advice h₂.file.holds)
      · rintro _ _ ⟨rfl, -⟩
        exact leavesWhole_of_failed fun _ => h₂.file.holds
    · rintro _ w₂ ⟨_, rfl, hw₂, -⟩
      exact leavesWhole_of_failed fun _ => (h₁.trouble hw₂).file.holds
  · rintro _ w₁ ⟨_, rfl, hw₁, -⟩
    exact leavesWhole_of_failed fun _ => (h.trouble hw₁).file.holds

/-- A Java file that may be written, is read and parses. -/
structure Parsable (b : Workbench) (w : World) (file : Path) (source : String) : Prop where
  trouble : w.trouble = []
  java : file.isJava = true
  stat : ∃ content mode modified, w.stat file = .ok (.file content mode modified) ∧
    isReadOnly mode = false
  read : w.disk.readText (w.absolute file) = .ok source
  verify : ∃ tree, b.parse.verify source = .ok tree

/-- An action on a file that parses fails as the snapshot does that it has to take. -/
theorem apply_of_create_fails {source : String} (h : Parsable b w d.file source)
    (hcompute : ∃ content shifts description,
      rf.compute b.parse d source = .ok (.edit content shifts description))
    {P : World → Prop}
    (hcreate : (b.store.create d.file).Ends w fun r w' => (∃ e, r = .error e) ∧ P w') :
    ∃ e w', (b.apply rf d none).apply w = (.error (.snapshot e), w') ∧ P w' := by
  obtain ⟨content, mode, modified, hstat, hwritable⟩ := h.stat
  obtain ⟨tree, hverify⟩ := h.verify
  obtain ⟨new, shifts, description, hcompute⟩ := hcompute
  have hcheck : (Refactoring.checkTarget b.parse d.file).Yields w fun _ w' => w' = w := by
    rw [Refactoring.checkTarget, h.java, Bool.not_true, if_neg Bool.false_ne_true]
    refine Act.ends_look_bind ?_
    rw [hstat]
    dsimp only
    rw [hwritable, if_neg Bool.false_ne_true, Refactoring.readTarget]
    refine (World.yields_readText h.trouble h.read).mapError.bind ?_
    rintro _ w₁ ⟨rfl, rfl⟩
    rw [hverify]
    exact Act.yields_pure rfl
  have happly : (b.apply rf d none).Ends w fun r w' => (∃ e, r = .error (.snapshot e)) ∧ P w' := by
    rw [apply]
    refine Act.Yields.bind_ends hcheck.mapError ?_
    rintro _ w₁ rfl
    refine Act.Yields.bind_ends (World.yields_readText h.trouble h.read).mapError ?_
    rintro _ w₁ ⟨rfl, rfl⟩
    refine rewrite_ends.bind ?_ ?_
    · rintro rewrite w₁ ⟨rfl, hok⟩
      rw [hcompute] at hok
      cases hok
      refine hcreate.mapError.bind ?_ ?_
      · rintro _ w₂ ⟨⟨e, he⟩, -⟩
        cases he
      · rintro _ w₂ ⟨e, rfl, -, hP⟩
        exact ⟨⟨e, rfl⟩, hP⟩
    · rintro _ w₁ ⟨-, cause, -, herror⟩
      rw [hcompute] at herror
      cases herror
  obtain ⟨⟨e, he⟩, hP⟩ := Act.ends_iff.mp happly
  exact ⟨e, _, Prod.ext he rfl, hP⟩

/-- A refactoring that adds an empty line. -/
def addLine : Refactoring where
  name := "add-line"
  categories := []
  rewrite := fun _ _ source _ => .ok (.edit (source ++ "\n") [] "")

/-- The workbench on which every text parses. -/
def lineBench : Workbench :=
  { sampleBench with parse := fun _ => some ⟨.program, none, false, 0, 0, []⟩ }

theorem namesFile_sample (i : SnapshotIndex) :
    (sampleWorld i).NamesFile sampleDefect.file ["B.java"] "class B {}".toUTF8 where
  located := by
    rw [show sampleDefect.file = ⟨"/B.java"⟩ from rfl, absolute_sample i rfl]
    rfl
  holds := ⟨0o644, 0, rfl⟩

theorem apply_leaves_sample_whole :
    (lineBench.apply addLine sampleDefect none).Ends (sampleWorld .empty)
      (lineBench.LeavesWhole addLine sampleDefect ["B.java"] "class B {}".toUTF8) := by
  have hbegins : lineBench.Begins ["s"] sampleDefect none ["B.java"] "class B {}".toUTF8
      (sampleWorld .empty) :=
    ⟨⟨.empty, inOrder_sample⟩, namesFile_sample .empty, by decide, nofun, nofun⟩
  have hcheck : lineBench.store.LeftAlone ["s"] (fun _ => False)
      fun w => (lineBench.check sampleDefect.file w).2 := leftAlone_of_id fun _ => rfl
  exact apply_leaves_file_whole hbegins rfl hcheck not_false

end Workbench

/-! ## An index that names the file itself as a copy -/

namespace SnapshotStore

variable {s : SnapshotStore} {base l : Location} {n : Nat} {i : SnapshotIndex} {start w : World}
  {old last t : Snapshot}

/-- A snapshot is dropped from the index, but its copy, which is the directory of the store, cannot
be removed. -/
theorem Calm.delete_refused (h : s.Calm base start [] n i w) (hfound : i.find? last.id = some last)
    (hlocation : last.location = s.dir) : (s.delete last.id).Ends w fun r w' =>
      (∃ e, r = .error e) ∧ Within (base <+: ·) w w' := by
  rw [SnapshotStore.delete]
  refine Act.Yields.bind_ends (h.fromNow.updateIndex
    (P := fun t m j => t = last ∧ m = n ∧ j = i.drop last.id) (isNewKey_nil _) ?_) ?_
  · simp only [hfound]
    exact Act.yields_pure ⟨h.valid.drop last.id, n, ⟨rfl, rfl, rfl⟩,
      h.fromNow.locked (isNewKey_nil _)⟩
  · rintro dropped w₁ ⟨_, _, ⟨hdropped, rfl, rfl⟩, h₁⟩
    have htree := h₁.under.tree
    have hrefused : (World.removeFile last.location).Ends w₁ fun r w' =>
        r = .error .isDirectory ∧ w' = w₁ := by
      rw [World.removeFile, World.diskOperation]
      refine World.ends_operation_of_error h₁.trouble ?_ ⟨rfl, rfl⟩
      rw [hlocation, Disk.remove, h₁.plain.locate_congr htree.located]
      simp only [bind, Except.bind, htree.isDirectory]
      rfl
    rw [hdropped, SnapshotStore.removeCopy]
    refine hrefused.outcome.bind (fun r w₂ h₂ => ?_) fun e w₂ he => he.elim
    obtain ⟨rfl, rfl⟩ := h₂
    exact Act.ends_throw ⟨⟨_, rfl⟩, h₁.since⟩

/-- Retention fails at the last of two snapshots, and the file is gone that the one before names as
its copy. -/
theorem Calm.retain_fails (h : s.Calm base start [] n i w) {file : Path}
    (hnewest : i.ofFile (w.identity file) = [t, old, last])
    (hpinned : old.id ∉ w.pinned ∧ last.id ∉ w.pinned) (hfound : i.find? old.id = some old)
    (hlast : (i.drop old.id).find? last.id = some last) (hlocation : last.location = s.dir)
    (hfile : Misplaced base w old.location l) :
    (s.retain file 1).Ends w fun r w' => (∃ e, r = .error e) ∧ ∀ content, ¬ w'.Holds l content := by
  have hexpired : expired w.pinned 1 (i.ofFile (w.identity file)) = [old.id, last.id] := by
    rw [hnewest, expired]
    simp [hpinned]
  rw [SnapshotStore.retain]
  refine Act.ends_look_bind (Act.Yields.bind_ends (h.fromNow.listFor file) ?_)
  rintro newest w₁ ⟨rfl, h₁⟩
  rw [hexpired]
  have hgone : ([old.id, last.id].forM s.delete).Ends w₁ fun r w' =>
      (∃ e, r = .error e) ∧ ∀ content, ¬ w'.Holds l content := by
    refine Act.Yields.bind_ends (h₁.delete_misplaced hfound (hfile.within h.under h₁.since)) ?_
    rintro _ w₂ ⟨hlost, h₂⟩
    refine (h₂.delete_refused hlast hlocation).bind ?_ ?_
    · rintro _ w₃ ⟨⟨e, he⟩, -⟩
      cases he
    · rintro e w₃ ⟨-, h₃⟩
      refine ⟨⟨e, rfl⟩, ?_⟩
      rintro content ⟨mode, modified, hat⟩
      have hthere := h₃.frame.file_of_file hfile.out hat
      rw [hlost.gone] at hthere
      cases hthere
  refine hgone.bind ?_ fun e w₂ h₂ => ⟨⟨e, rfl⟩, h₂.2⟩
  rintro _ w₂ ⟨⟨e, he⟩, -⟩
  cases he

/-- A snapshot that is older than two others comes last. -/
theorem newestFirst_triple {a b c : Snapshot} (hab : Snapshot.newerOrEqual a b = true)
    (hac : Snapshot.newerOrEqual a c = false) :
    Snapshot.newestFirst [a, b, c] = [c, a, b] := by
  simp [Snapshot.newestFirst, List.mergeSort, List.MergeSort.Internal.splitInTwo, hab, hac]

/-- Taking a snapshot of a file fails after the file was removed, which the index names as the copy
of an older snapshot of itself. -/
theorem Calm.create_fails (h : s.Calm base start [] n i w) {file : Path} {content : ByteArray}
    (hplain : Plain w.disk (w.absolute file) l) (hsource : Outside base w l.path content)
    (hcopy : IsUncopied base w l.path) (hkey : IsNewKey [l.path] s.indexFile) (hkept : s.kept = 1)
    (hindex : i.snapshots = [old, last]) (hown : old.source = l.path ∧ last.source = l.path)
    (hlocation : last.location = s.dir)
    (hfile : Misplaced base w old.location l) (hpinned : old.id ∉ w.pinned ∧ last.id ∉ w.pinned)
    (hnew : Timestamp.order old.createdAt (w.clock w.readings) = .lt)
    (hold : Snapshot.newerOrEqual old last = true) :
    (s.create file).Ends w fun r w' => (∃ e, r = .error e) ∧ ∀ content, ¬ w'.Holds l content := by
  have hidentity := World.identity_of_plain hplain
  have hisFile : w.isFile l.path = true := by
    obtain ⟨m, mode, modified, hm, -, hat⟩ := hsource.settled.found
    rw [World.isFile, Disk.isFile, Disk.stat_eq_ok_iff.mpr ⟨m, hm, hat⟩]
    rfl
  rw [SnapshotStore.create]
  refine Act.ends_look_bind (Act.ends_look_bind ?_)
  rw [hidentity, if_pos hisFile]
  refine Act.Yields.bind_ends (h.fromNow.record hsource.settled hcopy hkey) ?_
  rintro t w₁ ⟨ht, h₁⟩
  have hidentity₁ : w₁.identity l.path = l.path :=
    h₁.since.identity_of_plain (World.plain_absolute_path hplain)
  have hnewest : (i.add t).ofFile (w₁.identity l.path) = [t, old, last] := by
    rw [SnapshotIndex.ofFile, hidentity₁, SnapshotIndex.add, hindex]
    have hall : ([old, last] ++ [t]).filter (·.source.same l.path) = [old, last, t] := by
      simp [hown, ht.source, Path.same]
    rw [hall]
    refine newestFirst_triple hold ?_
    rw [Snapshot.newerOrEqual, ht.createdAt, hnew]
  have hfound : (i.add t).find? old.id = some old := by
    rw [SnapshotIndex.find?, SnapshotIndex.add, hindex]
    exact List.find?_cons_of_pos (by simp)
  have hlast : ((i.add t).drop old.id).find? last.id = some last := by
    simp [SnapshotIndex.find?, SnapshotIndex.drop, SnapshotIndex.add, hindex]
  rw [hkept]
  refine (h₁.retain_fails hnewest ?_ hfound hlast hlocation (hfile.within h.under h₁.since)).bind
    ?_ fun e w₂ h₂ => ⟨⟨e, rfl⟩, h₂.2⟩
  · rw [h₁.since.pinned]
    exact hpinned
  · rintro _ w₂ ⟨⟨e, he⟩, -⟩
    cases he

end SnapshotStore

namespace Workbench

open SnapshotStore

/-- Two snapshots of the file of the defect: the copy of one is the file itself, that of the other
is the directory of the store. -/
def forgedPair : List Snapshot :=
  [{ forgedSnapshot with location := ⟨"/B.java"⟩ },
   { forgedSnapshot with
      id := .ofNat 4
      location := ⟨"/s"⟩
      createdAt := { stoppedTime with year := 2022 } }]

/-- The index with these snapshots. -/
def forgedPairIndex : SnapshotIndex := { snapshots := forgedPair }

theorem isValid_forgedPairIndex : forgedPairIndex.IsValid := by
  refine ⟨by decide, fun t ht => ?_, nofun, List.Pairwise.nil, nofun⟩
  simp only [forgedPairIndex, forgedPair, List.mem_cons, List.not_mem_nil, or_false] at ht
  rcases ht with rfl | rfl <;> exact ⟨⟨by decide, by decide, by decide⟩, by decide, by decide⟩

/-- The snapshot of the file of the defect is refused, and the file is gone. -/
theorem create_forgedPair :
    (lineBench.store.create sampleDefect.file).Ends (sampleWorld forgedPairIndex) fun r w' =>
      (∃ e, r = .error e) ∧ ∀ content, ¬ w'.Holds ["B.java"] content := by
  have hfile : Misplaced ["s"] (sampleWorld forgedPairIndex) ⟨"/B.java"⟩ ["B.java"] := by
    refine ⟨?_, ?_, by decide, _, _, _, rfl⟩ <;>
      rw [absolute_sample _ rfl] <;> rfl
  exact (calm_sample isValid_forgedPairIndex).create_fails (plain_sample _) (outside_sample _)
    (isUncopied_sample _) isNewKey_sample rfl rfl ⟨rfl, rfl⟩ rfl hfile
    ⟨List.not_mem_nil, List.not_mem_nil⟩ (by decide) (by decide)

/-- An action may fail for want of a snapshot and leave nothing of its file. -/
theorem apply_loses_file_of_forged_index :
    (sampleWorld forgedPairIndex).NamesFile sampleDefect.file ["B.java"] "class B {}".toUTF8 ∧
    lineBench.store.policy = .strict ∧
    ∃ e w', (lineBench.apply addLine sampleDefect none).apply (sampleWorld forgedPairIndex) =
      (.error (.snapshot e), w') ∧ ∀ content, ¬ w'.Holds ["B.java"] content := by
  refine ⟨namesFile_sample _, rfl, ?_⟩
  have hat := locate_sample forgedPairIndex
  have hstat : (sampleWorld forgedPairIndex).stat sampleDefect.file =
      .ok (.file "class B {}".toUTF8 0o644 0) := Disk.stat_eq_ok_iff.mpr ⟨_, hat, rfl⟩
  have hread : (sampleWorld forgedPairIndex).disk.readText
      ((sampleWorld forgedPairIndex).absolute sampleDefect.file) = .ok "class B {}" :=
    Disk.readText_of_toUTF8 (Disk.read_eq_ok_iff.mpr ⟨_, _, _, hat, rfl⟩)
  have hjava : sampleDefect.file.isJava = true := by decide +kernel
  have hparsable : Parsable lineBench (sampleWorld forgedPairIndex) sampleDefect.file
      "class B {}" := ⟨rfl, hjava, ⟨_, _, _, hstat, by decide⟩, hread, _, rfl⟩
  exact apply_of_create_fails hparsable ⟨_, _, _, rfl⟩ create_forgedPair

end Workbench

end Amend
