import Amend.Proofs.Disk.Tree
import Amend.Proofs.World

/-!
# Files that are named without detours

The path of a file that is reached without links says where the file is.  All such paths to one
place have one identity, and as long as the directories on the way are there, the file is found at
that place, whatever becomes of other files.  A file that is named through a link is not: writing under
that name puts the new file in the place of the link.
-/

namespace Amend

open Disk (LinkFree Plain)
open Path (Component IsName)

namespace Path

/-- A path with a root among its components starts at the root. -/
theorem isAbsolute_of_root {p : Path} (h : Component.root ∈ p.components) :
    p.isAbsolute = true := by
  by_contra hrelative
  rw [components, if_neg hrelative] at h
  rcases List.mem_append.mp h with h | h
  · split at h
    · cases List.mem_singleton.mp h
    · cases h
  · obtain ⟨name, -, hname⟩ := List.mem_filterMap.mp h
    rw [Component.ofName?] at hname
    split at hname
    · cases hname
    · split at hname <;> cases hname

theorem foldl_resolveStep (done names : List String) :
    (names.map Component.normal).foldl resolveStep done = names.reverse ++ done := by
  induction names generalizing done with
  | nil => rfl
  | cons name names ih =>
    rw [List.map_cons, List.foldl_cons, resolveStep, ih, List.reverse_cons, List.append_assoc]
    rfl

/-- A path that only writes down a location resolves to the path of that location. -/
theorem normalize_of_names {p : Path} {l : Location}
    (h : p.components = .root :: l.map .normal) : p.normalize = l.path := by
  have habsolute : p.isAbsolute = true := by
    refine isAbsolute_of_root ?_
    rw [h]
    exact List.mem_cons_self
  rw [normalize, habsolute, resolvedNames, h, List.foldl_cons, resolveStep, foldl_resolveStep,
    List.append_nil, List.reverse_reverse, Location.path]

end Path

namespace Disk

variable {d d' : Disk} {p q : Path} {l : Location}

/-- Names that lead somewhere on one disk lead there on another one that has the same directories
on the way. -/
theorem walkFrom_of_same {followLast : Bool} {done names : List String}
    {follow follow' : List String → List Component → Except SystemError Location}
    (h : LinkFree d done.reverse names) (h' : LinkFree d' done.reverse names)
    (hsame : ∀ m, m <+: done.reverse ++ names → m ≠ done.reverse ++ names →
      d.at? m = some .directory → d'.at? m = some .directory)
    (hl : d.walkFrom followLast follow done (names.map .normal) = .ok l) :
    d'.walkFrom followLast follow' done (names.map .normal) = .ok l := by
  induction names generalizing done with
  | nil => exact hl
  | cons name names ih =>
    have hsize : ¬ name.utf8ByteSize > maxNameBytes := by
      intro hlong
      rw [List.map_cons, walkFrom, if_pos hlong] at hl
      cases hl
    cases names with
    | nil =>
      have hnolink : followLast = true →
          ∀ target, d.at? (name :: done).reverse ≠ some (.link target) := fun _ => h.here
      have hnolink' : followLast = true →
          ∀ target, d'.at? (name :: done).reverse ≠ some (.link target) := fun _ => h'.here
      have hend := (Frame.walkFrom_end follow (fun _ _ => []) hsize hnolink).1
      have hend' := (Frame.walkFrom_end follow' (fun _ _ => []) hsize hnolink').1
      rw [List.map_singleton] at hl ⊢
      exact hend'.trans (hend.symm.trans hl)
    | cons next names =>
      have hwhole : (name :: done).reverse ++ next :: names =
          done.reverse ++ name :: next :: names := by
        rw [List.reverse_cons, List.append_assoc, List.singleton_append]
      have hdirectory : d.at? (name :: done).reverse = some .directory := by
        rw [List.map_cons, walkFrom, if_neg hsize] at hl
        cases hat : d.at? (name :: done).reverse with
        | none =>
          simp only [hat] at hl
          cases hl
        | some e =>
          cases e with
          | directory => rfl
          | file content mode modified =>
            simp only [hat] at hl
            cases hl
          | link target => exact absurd hat (h.here target)
      have hdirectory' : d'.at? (name :: done).reverse = some .directory := by
        refine hsame _ ?_ ?_ hdirectory
        · rw [← hwhole]
          exact List.prefix_append _ _
        · rw [← hwhole]
          intro heq
          cases List.append_cancel_left ((List.append_nil _).trans heq)
      rw [List.map_cons, walkFrom, if_neg hsize] at hl ⊢
      simp only [hdirectory, hdirectory'] at hl ⊢
      refine ih h.tail h'.tail (fun m hm hne => hsame m ?_ ?_) hl
      · rwa [← hwhole]
      · rwa [← hwhole]

namespace Plain

theorem of_same_components (h : Plain d p l) (hpq : q.components = p.components) : Plain d q l :=
  ⟨hpq.trans h.components, h.linkFree⟩

/-- Where the directories on the way are there, a plain path leads to its location. -/
theorem locate_of_same (h : Plain d p l) (hl : d.locate p = .ok l) (h' : Plain d' p l)
    (hsame : ∀ m, m <+: l → m ≠ l → d.at? m = some .directory → d'.at? m = some .directory)
    (hkind : meansDirectory p = false) : d'.locate p = .ok l := by
  obtain ⟨hempty, hzero, hwalk, -⟩ := locate_eq_ok_iff.mp hl
  refine locate_eq_ok_iff.mpr ⟨hempty, hzero, ?_, fun hmeans => ?_⟩
  · rw [h.components] at hwalk ⊢
    exact walkFrom_of_same h.linkFree h'.linkFree hsame hwalk
  · rw [hkind] at hmeans
    cases hmeans

/-- Two ways of writing one location down lead to the same file. -/
theorem locate_of_components (hq : d.locate q = .ok l) (hpq : q.components = p.components)
    {d₀ : Disk} {m : Location} (hp : d₀.locate p = .ok m) (hkind : meansDirectory p = false)
    (hkind' : meansDirectory q = false) : d.locate p = .ok l := by
  obtain ⟨hempty, hzero, -, -⟩ := locate_eq_ok_iff.mp hp
  obtain ⟨-, -, hwalk, -⟩ := locate_eq_ok_iff.mp hq
  refine locate_eq_ok_iff.mpr ⟨hempty, hzero, ?_, fun hmeans => ?_⟩
  · rw [hkind, ← hpq, ← hkind']
    exact hwalk
  · rw [hkind] at hmeans
    cases hmeans

theorem isName (h : Plain d p l) : ∀ name ∈ l, IsName name := by
  intro name hname
  refine Path.isName_of_mem_components (p := p) ?_
  rw [h.components]
  exact List.mem_cons_of_mem _ (List.mem_map_of_mem hname)

/-- The path of the location itself is plain. -/
theorem path (h : Plain d p l) : Plain d l.path l :=
  ⟨Path.components_ofNames h.isName, h.linkFree⟩

end Plain

/-- The text that was written to a file is read. -/
theorem readText_of_toUTF8 {text : String} (h : d.read p = .ok text.toUTF8) :
    d.readText p = .ok text := by
  have htext : String.fromUTF8? text.toUTF8 = some text := dif_pos text.isValidUTF8
  rw [readText, h]
  simp only [bind, Except.bind]
  rw [htext]
  rfl

theorem readText_congr (h : d.read p = d'.read q) :
    d.readText p = d'.readText q := by
  rw [readText, h, readText]

/-- A path that leads to a file cannot only mean a directory. -/
theorem meansDirectory_of_file {content : ByteArray} {mode modified : Nat}
    (hl : d.locate p = .ok l) (hat : d.at? l = some (.file content mode modified)) :
    meansDirectory p = false := by
  obtain ⟨-, -, -, hkind⟩ := locate_eq_ok_iff.mp hl
  exact Bool.eq_false_iff.mpr fun hmeans => hkind hmeans content mode modified hat

/-- A path that leads to a link itself does not mean a directory. -/
theorem meansDirectory_of_link {target : Path} (hl : d.locate p false = .ok l)
    (hat : d.at? l = some (.link target)) : meansDirectory p = false := by
  cases hmeans : meansDirectory p with
  | false => rfl
  | true =>
    -- such a path is followed to its end, where there is no link
    have hfollowed : d.locate p = .ok l := by
      obtain ⟨hempty, hzero, hwalk, hkind⟩ := locate_eq_ok_iff.mp hl
      rw [hmeans] at hwalk
      exact locate_eq_ok_iff.mpr ⟨hempty, hzero, by rwa [hmeans], hkind⟩
    have hfound := (found_of_locate hfollowed).linkFree
    exact absurd hat (hfound l List.nil_prefix (List.prefix_refl l) target)

end Disk

namespace World

variable {w w' : World} {p q : Path} {l m : Location}

/-- All plain paths to one location have one identity, whether something is there or not. -/
theorem identity_of_plain (h : Plain w.disk (w.absolute p) l) : w.identity p = l.path := by
  have hnormalize := Path.normalize_of_names h.components
  rw [identity]
  cases hcanonical : w.disk.canonical (w.absolute p) with
  | error e => exact hnormalize
  | ok q =>
    obtain ⟨m, e, hm, -, rfl, -⟩ := Disk.plain_of_canonical hcanonical
    rw [h.eq_of_locate hm]
    dsimp only
    split
    · exact hnormalize
    · rfl

/-- A plain path keeps its identity when files change. -/
theorem Within.identity_of_plain {touched : Location → Prop} (hw : Within touched w w')
    (h : Plain w.disk (w.absolute p) l) : w'.identity p = l.path := by
  have hthere : Plain w'.disk (w'.absolute p) l := by
    rw [hw.absolute]
    exact h.frame hw.frame
  exact World.identity_of_plain hthere

theorem absolute_path (l : Location) : w.absolute l.path = l.path := by
  refine Path.join_of_absolute w.directory ?_
  rw [Location.path, Path.isAbsolute, Path.ofNames, String.toList_append]
  rfl

theorem plain_absolute_path (h : Plain w.disk (w.absolute p) l) :
    Plain w.disk (w.absolute l.path) l := by
  rw [absolute_path]
  exact h.path

/-- A plain path to a location has the components of its path. -/
theorem components_of_plain (h : Plain w.disk (w.absolute p) l) :
    (w.absolute p).components = l.path.components :=
  h.components.trans h.path.components.symm

theorem location_of_same {d d' : Disk} (hp : Plain d p l) (hq : Plain d' q m)
    (hsame : p.same q = true) : l = m := by
  have heq : p.components = q.components := beq_iff_eq.mp hsame
  rw [hp.components, hq.components] at heq
  exact (List.map_inj_right fun _ _ h => Component.normal.inj h).mp (List.cons.inj heq).2

theorem location_unique {d d' : Disk} (hp : Plain d p l) (hq : Plain d' p m) :
    l = m := location_of_same hp hq (beq_self_eq_true _)

/-! ## Links -/

/-- What is written under the name of a link takes the place of the link: that name is the new file
then, and the file that the link led to has its old bytes, so that two names of one file have become
the names of two. -/
theorem writeFile_over_link {target : Path} {content old : ByteArray}
    (hlink : w.disk.locate (w.absolute p) false = .ok l) (hat : w.disk.at? l = some (.link target))
    (hplain : Plain w.disk (w.absolute q) m) (hread : w.disk.read (w.absolute q) = .ok old) :
    (writeFile p content).Ends w fun r w' => r = .ok () →
      (∃ mode modified, w'.disk.at? l = some (.file content mode modified)) ∧
      w'.disk.read (w'.absolute q) = .ok old ∧
      ∀ bytes, w'.disk.read (w'.absolute p) = .ok bytes → bytes = content := by
  refine ends_writeFile_puts.mono ?_
  rintro (e | _) w' hw' hr
  · cases hr
  obtain ⟨v, k, mode, modified, hv, hk, hdir, rfl, -⟩ := hw'
  have hkind := Disk.meansDirectory_of_link hlink hat
  have hsame := (hv.frame.locate hlink (fun _ _ => False.elim) (Or.inl hkind)).1
  rw [← hv.absolute, hk] at hsame
  obtain rfl := Except.ok.inj hsame
  have hne : k ≠ [] := by
    rintro rfl
    exact hdir rfl
  have hput := Disk.Frame.put_file hne hdir content mode modified
  have hthere := Disk.at?_put_self v.disk k (.file content mode modified) hne
  have hw : Within (· = k) w { v with disk := v.disk.put k (.file content mode modified) } :=
    (hv.mono fun _ => False.elim).trans (Within.ofDisk hput v.trouble)
  refine ⟨⟨mode, modified, hthere⟩, hw.read hread (fun n hn => ?_) (fun n hn => ?_),
    fun bytes hbytes => ?_⟩
  · -- the link is not the file itself
    rintro rfl
    obtain ⟨n', mode', modified', hn', hat'⟩ := Disk.read_eq_ok_iff.mp hread
    rw [hn] at hn'
    cases hn'
    rw [hat] at hat'
    cases hat'
  · rw [hplain.linksTo] at hn
    cases hn
  · obtain ⟨n, mode', modified', hn, hat'⟩ := Disk.read_eq_ok_iff.mp hbytes
    rw [hw.absolute, ← hv.absolute] at hn
    obtain rfl := Disk.locate_put hk hne hn
    rw [hthere] at hat'
    cases hat'
    rfl

end World

end Amend
