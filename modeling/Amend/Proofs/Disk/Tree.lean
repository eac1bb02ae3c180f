import Amend.Proofs.Disk.Frame
import Amend.Proofs.Path

/-!
# Names without links

Where no link is met, names lead straight down: below a directory that holds no links, and along
the path of an entry that is written free of links.
-/

namespace Amend.Disk

open Path (Component IsName)

/-! ## Paths without links -/

/-- No link is met from a location down some names. -/
def LinkFree (d : Disk) (base names : List String) : Prop :=
  ∀ m, base <+: m → m <+: base ++ names → ∀ target, d.at? m ≠ some (.link target)

section LinkFree

variable {d d' : Disk} {followLast followLast' : Bool} {done names : List String} {name : String}
  {l : Location} {follow follow' : List String → List Component → Except SystemError Location}

theorem LinkFree.tail (h : LinkFree d done.reverse (name :: names)) :
    LinkFree d (name :: done).reverse names := by
  intro m hbase hm
  rw [List.reverse_cons] at hbase hm
  refine h m ((List.prefix_append done.reverse [name]).trans hbase) ?_
  rwa [List.append_cons]

theorem LinkFree.here (h : LinkFree d done.reverse (name :: names)) (target : Path) :
    d.at? (name :: done).reverse ≠ some (.link target) := by
  refine h.tail _ (List.prefix_refl _) ?_ target
  exact List.prefix_append _ names

/-- Where no link is met, it does not matter whether and how links are followed. -/
theorem walkFrom_congr (h : LinkFree d done.reverse names) :
    d.walkFrom followLast follow done (names.map .normal) =
      d.walkFrom followLast' follow' done (names.map .normal) := by
  induction names generalizing done with
  | nil => rfl
  | cons name names ih =>
    simp only [List.map_cons, walkFrom]
    cases hat : d.at? (name :: done).reverse with
    | none => rfl
    | some e =>
      cases e with
      | directory =>
        simp only [ih h.tail]
      | file content mode modified => rfl
      | link target => exact absurd hat (h.here target)

/-- Names that meet no link lead straight down. -/
theorem eq_of_walkFrom_names (h : LinkFree d done.reverse names)
    (hl : d.walkFrom followLast follow done (names.map .normal) = .ok l) :
    l = done.reverse ++ names := by
  induction names generalizing done with
  | nil =>
    cases hl
    exact (List.append_nil _).symm
  | cons name names ih =>
    rw [List.map_cons, walkFrom] at hl
    split at hl
    · cases hl
    have hlast (hempty : (names.map Component.normal).isEmpty = true)
        (hl : Except.ok (name :: done).reverse = (.ok l : Except SystemError Location)) :
        l = done.reverse ++ name :: names := by
      cases hl
      rw [List.map_eq_nil_iff.mp (List.isEmpty_iff.mp hempty), List.reverse_cons]
    cases hat : d.at? (name :: done).reverse with
    | none =>
      simp only [hat] at hl
      split at hl
      · exact hlast ‹_› hl
      · cases hl
    | some e =>
      cases e with
      | directory =>
        simp only [hat] at hl
        rw [List.append_cons, ← List.reverse_cons]
        exact ih h.tail hl
      | file content mode modified =>
        simp only [hat] at hl
        split at hl
        · exact hlast ‹_› hl
        · cases hl
      | link target => exact absurd hat (h.here target)

/-- Names can be followed after the path to the directory that holds them. -/
theorem walkFrom_append {base : Location} (hbase : d.at? base = some .directory)
    (hfree : LinkFree d base names) (hne : names ≠ [])
    (hfollow : ∀ done todo, follow done todo = .ok base →
      follow' done (todo ++ names.map .normal) =
        d.walk followLast 0 base.reverse (names.map .normal))
    {todo : List Component} : ∀ {done : List String},
    d.walkFrom true follow done todo = .ok base →
    d.walkFrom followLast follow' done (todo ++ names.map .normal) =
      d.walk followLast 0 base.reverse (names.map .normal) := by
  induction todo with
  | nil =>
    intro done h
    cases h
    rw [List.reverse_reverse]
    exact walkFrom_congr hfree
  | cons c rest ih =>
    intro done h
    cases c with
    | root => exact ih h
    | current => exact ih h
    | parent => exact ih h
    | normal name =>
      rw [walkFrom] at h
      split at h
      · cases h
      rename_i hsize
      rw [List.cons_append, walkFrom, if_neg hsize]
      cases hat : d.at? (name :: done).reverse with
      | none =>
        simp only [hat] at h
        split at h
        · cases h
          rw [hat] at hbase
          cases hbase
        · cases h
      | some e =>
        cases e with
        | directory =>
          simp only [hat] at h ⊢
          exact ih h
        | file content mode modified =>
          simp only [hat] at h
          split at h
          · cases h
            rw [hat] at hbase
            cases hbase
          · cases h
        | link target =>
          have hmore : (rest ++ names.map Component.normal).isEmpty = false := by
            cases rest with
            | nil =>
              cases names with
              | nil => exact absurd rfl hne
              | cons name names => rfl
            | cons c rest => rfl
          simp only [hat, Bool.not_true, Bool.and_false, Bool.false_eq_true, if_false] at h
          simp only [hat, hmore, Bool.false_and, Bool.false_eq_true, if_false]
          have hlater := hfollow _ _ h
          rwa [List.append_assoc] at hlater

theorem walk_append {base : Location} (hbase : d.at? base = some .directory)
    (hfree : LinkFree d base names) (hne : names ≠ []) {n : Nat} :
    ∀ {done : List String} {todo : List Component}, d.walk true n done todo = .ok base →
    d.walk followLast n done (todo ++ names.map .normal) =
      d.walk followLast 0 base.reverse (names.map .normal) := by
  induction n with
  | zero => exact walkFrom_append hbase hfree hne fun _ _ h => by cases h
  | succ n ih => exact walkFrom_append hbase hfree hne fun _ _ h => ih h

end LinkFree

/-! ## Directories without links -/

/-- A path that leads to a directory below which there are no links. -/
structure Tree (d : Disk) (p : Path) (base : Location) : Prop where
  absolute : p.isAbsolute = true
  located : d.locate p = .ok base
  isDirectory : d.at? base = some .directory
  noLinks : ∀ l, base <+: l → ∀ target, d.at? l ≠ some (.link target)

theorem meansDirectory_join {name : String} (hname : IsName name) (p : Path) :
    meansDirectory (p.join ⟨name⟩) = false := by
  rw [Path.join_name hname, meansDirectory, String.toList_append, List.reverse_append]
  have hslash : '/' ∉ name.toList.reverse := fun h => hname.noSlash (List.mem_reverse.mp h)
  cases hcs : name.toList.reverse with
  | nil =>
    rw [List.reverse_eq_nil_iff, String.toList_eq_nil_iff] at hcs
    exact absurd hcs hname.ne_empty
  | cons c cs =>
    rw [hcs] at hslash
    have hc : c ≠ '/' := fun h => hslash (h ▸ List.mem_cons_self)
    cases cs with
    | nil =>
      have hpoint : c ≠ '.' := by
        rintro rfl
        refine hname.ne_current (String.toList_inj.mp ?_)
        rw [← List.reverse_reverse name.toList, hcs]
        rfl
      split
      · exact absurd (List.cons.inj ‹_›).1 hc
      · exact absurd (List.cons.inj ‹_›).1 hpoint
      · rfl
    | cons c' cs =>
      have hc' : c' ≠ '/' := fun h => hslash (h ▸ List.mem_cons_of_mem c List.mem_cons_self)
      split
      · exact absurd (List.cons.inj ‹_›).1 hc
      · exact absurd (List.cons.inj (List.cons.inj ‹_›).2).1 hc'
      · rfl

theorem endsInPoints_join {name : String} (hname : IsName name) (p : Path) :
    endsInPoints (p.join ⟨name⟩) = false := by
  have hslash : ∀ c ∈ name.toList.reverse, c ≠ '/' := fun c hc heq =>
    hname.noSlash (heq ▸ List.mem_reverse.mp hc)
  have hfront : (p.text ++ p.glue).toList.reverse.takeWhile (· != '/') = [] := by
    have hglue := Path.glue_glue p
    rw [Path.glue] at hglue
    split at hglue
    case isTrue hlast =>
      rcases hlast with hempty | hlast
      · rw [show p.text ++ p.glue = "" from hempty]
        rfl
      · rw [List.getLast?_eq_some_iff] at hlast
        obtain ⟨front, hfront⟩ := hlast
        rw [hfront, List.reverse_append]
        rfl
    case isFalse => exact absurd hglue (by decide)
  have hlast : (p.join ⟨name⟩).text.toList.reverse.dropWhile (· == '/') =
      (p.join ⟨name⟩).text.toList.reverse := by
    rw [Path.join_name hname, String.toList_append, List.reverse_append]
    cases hcs : name.toList.reverse with
    | nil =>
      rw [List.reverse_eq_nil_iff, String.toList_eq_nil_iff] at hcs
      exact absurd hcs hname.ne_empty
    | cons c cs =>
      have hc := hslash c (hcs ▸ List.mem_cons_self)
      rw [List.cons_append, List.dropWhile_cons_of_neg (by simpa using hc)]
  have hname' : ((p.join ⟨name⟩).text.toList.reverse.dropWhile (· == '/')).takeWhile (· != '/') =
      name.toList.reverse := by
    rw [hlast, Path.join_name hname, String.toList_append, List.reverse_append,
      List.takeWhile_append_of_pos (by simpa using hslash), hfront, List.append_nil]
  have hne {text : String} (hne : name ≠ text) : name.toList.reverse ≠ text.toList.reverse :=
    fun heq => hne (String.toList_inj.mp (List.reverse_inj.mp heq))
  rw [endsInPoints, hname']
  split
  · exact absurd ‹_› (hne hname.ne_current)
  · exact absurd ‹_› (hne hname.ne_parent)
  · rfl

/-- A file is moved where no directory is, if its path does not end like that of one. -/
theorem replace_of_kind {d : Disk} {p : Path} {l : Location} {content : ByteArray} {mode now : Nat}
    (hpoints : endsInPoints p = false) (hkind : meansDirectory p = false)
    (hl : d.locate p false = .ok l) (hdirectory : d.at? l ≠ some .directory) :
    d.replace p content mode now = .ok (d.put l (.file content mode now)) := by
  obtain ⟨-, hzero, -, -⟩ := locate_eq_ok_iff.mp hl
  rw [replace, hzero, hl, hpoints, hkind]
  cases he : d.at? l with
  | none => simp [bind, Except.bind, pure, Except.pure, he]
  | some e =>
    cases e with
    | directory => exact absurd he hdirectory
    | file => simp [bind, Except.bind, pure, Except.pure, he]
    | link => simp [bind, Except.bind, pure, Except.pure, he]

theorem replace_of_name {d : Disk} {q : Path} {name : String} {l : Location}
    {content : ByteArray} {mode now : Nat} (hname : IsName name)
    (hl : d.locate (q.join ⟨name⟩) false = .ok l) (hdirectory : d.at? l ≠ some .directory) :
    d.replace (q.join ⟨name⟩) content mode now = .ok (d.put l (.file content mode now)) :=
  replace_of_kind (endsInPoints_join hname q) (meansDirectory_join hname q) hl hdirectory

theorem directory_of_isDirectory {d : Disk} {p : Path} (h : d.isDirectory p = true) :
    ∃ l, d.locate p = .ok l ∧ d.at? l = some .directory := by
  cases hstat : d.stat p with
  | error e =>
    rw [isDirectory, hstat] at h
    cases h
  | ok e =>
    obtain ⟨l, hl, hat⟩ := stat_eq_ok_iff.mp hstat
    rw [isDirectory, hstat] at h
    cases e with
    | directory => exact ⟨l, hl, hat⟩
    | file => cases h
    | link => cases h

namespace Tree

variable {touched : Location → Prop} {d d' : Disk} {p : Path} {base : Location}

/-- What is changed below a directory or off the way to it leaves the way. -/
theorem frame (h : Tree d p base) (hframe : Frame touched d d')
    (hlinks : ∀ m ∈ d.linksTo p, ¬ touched m) : Tree d' p base where
  absolute := h.absolute
  located := (hframe.locate h.located hlinks (Or.inr h.isDirectory)).1
  isDirectory := hframe.directory base h.isDirectory
  noLinks := fun l hl target ht => h.noLinks l hl target (hframe.link l target ht)

theorem frame_below (h : Tree d p base) (hframe : Frame touched d d')
    (hbelow : ∀ l, touched l → base <+: l) : Tree d' p base := by
  refine h.frame hframe fun m hm ht => ?_
  obtain ⟨target, hlink⟩ := mem_linksTo hm
  exact h.noLinks m (hbelow m ht) target hlink

theorem linkFree (h : Tree d p base) (names : List String) : LinkFree d base names :=
  fun m hm _ => h.noLinks m hm

/-- Names below the directory are followed from there. -/
theorem walk_names (h : Tree d p base) {names : List String} (hne : names ≠ [])
    (followLast : Bool) :
    d.walk followLast 40 [] (p.components ++ names.map .normal) =
      d.walk followLast 0 base.reverse (names.map .normal) := by
  obtain ⟨-, -, hbase, -⟩ := locate_eq_ok_iff.mp h.located
  exact walk_append h.isDirectory (h.linkFree names) hne hbase

/-- A name joined to the path of the directory leads to the name in it. -/
theorem locate_name (h : Tree d p base) {name : String} (hname : IsName name) {followLast : Bool}
    {l : Location} : d.locate (p.join ⟨name⟩) followLast = .ok l ↔
      l = base ++ [name] ∧ name.utf8ByteSize ≤ maxNameBytes ∧ '\x00' ∉ name.toList := by
  obtain ⟨hempty, hzero, -, -⟩ := locate_eq_ok_iff.mp h.located
  have hwalk : d.walk followLast 0 base.reverse [.normal name] =
      if name.utf8ByteSize > maxNameBytes then .error .nameTooLong else .ok (base ++ [name]) := by
    split
    case isTrue hsize => exact if_pos hsize
    case isFalse hsize =>
      have hnolink : followLast = true →
          ∀ target, d.at? (name :: base.reverse).reverse ≠ some (.link target) := by
        intro _ target
        rw [List.reverse_cons, List.reverse_reverse]
        exact h.noLinks _ (List.prefix_append base [name]) target
      have hend := (Frame.walkFrom_end (fun _ _ => .error .tooManyLinks) (fun _ _ => []) hsize
        hnolink).1
      rwa [List.reverse_cons, List.reverse_reverse] at hend
  have hnonempty : p.text ++ p.glue ++ name ≠ "" := fun heq =>
    hname.ne_empty (String.append_eq_empty_iff.mp heq).2
  have hiff (cs : List Char) : cs.contains '\x00' = false ↔ '\x00' ∉ cs := by
    rw [List.contains_eq_mem, decide_eq_false_iff_not]
  have hglue : p.glue.toList.contains '\x00' = false := by
    rw [Path.glue]
    split <;> decide
  have hnul : (p.text ++ p.glue ++ name).toList.contains '\x00' = name.toList.contains '\x00' := by
    rw [String.toList_append, String.toList_append, List.contains_append, List.contains_append,
      hzero, hglue, Bool.false_or, Bool.false_or]
  rw [locate_eq_ok_iff, meansDirectory_join hname, Path.components_join hname p h.absolute,
    Bool.or_false]
  have hnames := h.walk_names (List.cons_ne_nil name []) followLast
  rw [List.map_singleton] at hnames
  rw [hnames, hwalk, Path.join_name hname, hnul]
  constructor
  · rintro ⟨-, hname0, hl, -⟩
    split at hl
    · cases hl
    · cases hl
      exact ⟨rfl, Nat.le_of_not_lt ‹_›, (hiff _).mp hname0⟩
  · rintro ⟨rfl, hsize, hname0⟩
    exact ⟨hnonempty, (hiff _).mpr hname0, if_neg (Nat.not_lt.mpr hsize), fun heq => by cases heq⟩

/-- A name in a directory of the directory leads to the name in it. -/
theorem locate_names (h : Tree d p base) {name other : String} (hname : IsName name)
    (hother : IsName other) (hfits : name.utf8ByteSize ≤ maxNameBytes ∧ '\x00' ∉ name.toList)
    (hinner : d.at? (base ++ [name]) = some .directory)
    (hfits' : other.utf8ByteSize ≤ maxNameBytes ∧ '\x00' ∉ other.toList) {followLast : Bool} :
    d.locate ((p.join ⟨name⟩).join ⟨other⟩) followLast = .ok (base ++ [name] ++ [other]) := by
  have htree : Tree d (p.join ⟨name⟩) (base ++ [name]) :=
    ⟨(Path.isAbsolute_join hname p).trans h.absolute, (h.locate_name hname).mpr ⟨rfl, hfits⟩,
      hinner, fun l hl => h.noLinks l ((List.prefix_append base [name]).trans hl)⟩
  exact (htree.locate_name hother).mpr ⟨rfl, hfits'⟩

/-- Two names joined to the path of the directory lead down from it. -/
theorem eq_of_locate_names (h : Tree d p base) {name other : String} (hname : IsName name)
    (hother : IsName other) {followLast : Bool} {l : Location}
    (hl : d.locate ((p.join ⟨name⟩).join ⟨other⟩) followLast = .ok l) :
    l = base ++ [name, other] := by
  obtain ⟨-, -, hwalk, -⟩ := locate_eq_ok_iff.mp hl
  rw [Path.components_join hother _ ((Path.isAbsolute_join hname p).trans h.absolute),
    Path.components_join hname _ h.absolute, List.append_assoc] at hwalk
  have hnames := (h.walk_names (List.cons_ne_nil name [other]) _).symm.trans hwalk
  have hfree := h.linkFree [name, other]
  rw [← List.reverse_reverse base] at hfree
  rw [eq_of_walkFrom_names hfree hnames, List.reverse_reverse]

/-- Once a name in the directory has been created as a directory, it is one. -/
theorem isDirectory_of_makeDirectories (h : Tree d p base) {name : String} (hname : IsName name)
    (hd : d.makeDirectories (p.join ⟨name⟩) = .ok d') :
    d'.at? (base ++ [name]) = some .directory := by
  have hnew {d₁ d₂ : Disk} (htree : Tree d₁ p base)
      (hmade : d₁.makeDirectory (p.join ⟨name⟩) = .ok d₂) :
      d₂.at? (base ++ [name]) = some .directory := by
    obtain ⟨l, hl, -, rfl⟩ := makeDirectory_eq_ok hmade
    obtain ⟨rfl, -⟩ := (htree.locate_name hname).mp hl
    exact at?_put_self _ _ _ (by simp)
  rw [makeDirectories] at hd
  unfold makeDirectories.go at hd
  rw [if_neg (Path.text_join_ne hname p)] at hd
  split at hd
  case h_1 hmade =>
    cases hd
    exact hnew h hmade
  case h_2 =>
    -- the directories above were missing
    split at hd
    case h_1 =>
      split at hd
      case h_1 habove =>
        exact hnew (h.frame_below (frame_makeDirectories_go habove) fun _ => False.elim) hd
      case h_2 => cases hd
    case h_2 => cases hd
  case h_3 =>
    split at hd
    case isTrue hthere =>
      cases hd
      obtain ⟨l, hl, hat⟩ := directory_of_isDirectory hthere
      obtain ⟨rfl, -⟩ := (h.locate_name hname).mp hl
      exact hat
    case isFalse => cases hd

end Tree

/-! ## Plain paths -/

/-- A path that writes down a location, with no link on the way or at its end. -/
structure Plain (d : Disk) (p : Path) (l : Location) : Prop where
  components : p.components = .root :: l.map .normal
  linkFree : LinkFree d [] l

namespace Plain

variable {touched : Location → Prop} {d d' : Disk} {p : Path} {l m : Location}

theorem frame (h : Plain d p l) (hframe : Frame touched d d') : Plain d' p l where
  components := h.components
  linkFree := fun m hbase hm target ht => h.linkFree m hbase hm target (hframe.link m target ht)

theorem eq_of_locate (h : Plain d p l) {followLast : Bool} (hm : d.locate p followLast = .ok m) :
    m = l := by
  obtain ⟨-, -, hwalk, -⟩ := locate_eq_ok_iff.mp hm
  rw [h.components] at hwalk
  exact eq_of_walkFrom_names h.linkFree hwalk

/-- A plain path meets no links. -/
theorem linksTo (h : Plain d p l) {followLast : Bool} : d.linksTo p followLast = [] := by
  have hnone (follow : List String → List Component → List Location) {names done : List String}
      (hfree : LinkFree d done.reverse names) :
      d.linksFrom (followLast || meansDirectory p) follow done (names.map .normal) = [] := by
    induction names generalizing done with
    | nil => rfl
    | cons name names ih =>
      rw [List.map_cons, linksFrom]
      cases hat : d.at? (name :: done).reverse with
      | none => rfl
      | some e =>
        cases e with
        | directory => exact ih hfree.tail
        | file content mode modified => rfl
        | link target => exact absurd hat (hfree.here target)
  rw [Disk.linksTo, h.components]
  exact hnone _ h.linkFree

/-- At the end of a plain path there is no link to be followed. -/
theorem locate_congr (h : Plain d p l) (hm : d.locate p = .ok m) : d.locate p false = .ok m := by
  obtain ⟨hempty, hzero, hwalk, hkind⟩ := locate_eq_ok_iff.mp hm
  refine locate_eq_ok_iff.mpr ⟨hempty, hzero, ?_, hkind⟩
  rw [h.components] at hwalk ⊢
  rw [← hwalk]
  exact walkFrom_congr h.linkFree

end Plain

/-- Directories all the way down to a location, each under a proper name. -/
def Reached (d : Disk) (l : Location) : Prop :=
  (∀ name ∈ l, IsName name) ∧ ∀ m, m <+: l → d.at? m = some .directory

section Reached

variable {d : Disk} {followLast : Bool} {done : List String} {l : Location}

theorem reached_root : Reached d [] := by
  refine ⟨nofun, fun m hm => ?_⟩
  rw [List.prefix_nil.mp hm]
  rfl

theorem Reached.tail (h : Reached d done.reverse) : Reached d done.tail.reverse := by
  have hbefore : done.tail.reverse <+: done.reverse := by
    rw [List.reverse_prefix]
    exact List.tail_suffix done
  exact ⟨fun name hname => h.1 name (hbefore.subset hname), fun m hm => h.2 m (hm.trans hbefore)⟩

theorem Reached.concat {l : Location} (h : Reached d l) {name : String} (hname : IsName name)
    (hat : d.at? (l ++ [name]) = some .directory) : Reached d (l ++ [name]) := by
  refine ⟨fun other hother => ?_, fun m hm => ?_⟩
  · rcases List.mem_append.mp hother with hother | hother
    · exact h.1 other hother
    · rwa [List.mem_singleton.mp hother]
  · rcases List.prefix_concat_iff.mp hm with rfl | hm
    · exact hat
    · exact h.2 m hm

/-- What is found at the end of a walk: a directory that is reached, or a name in one. -/
def Found (d : Disk) (followLast : Bool) (l : Location) : Prop :=
  Reached d l ∨ ∃ base name, l = base ++ [name] ∧ Reached d base ∧ IsName name ∧
    (followLast = true → ∀ target, d.at? l ≠ some (.link target))

theorem found_of_walkFrom {follow : List String → List Component → Except SystemError Location}
    (hfollow : ∀ done todo l, Reached d done.reverse → (∀ name, .normal name ∈ todo → IsName name) →
      follow done todo = .ok l → Found d followLast l)
    {todo : List Component} : ∀ {done : List String}, Reached d done.reverse →
    (∀ name, .normal name ∈ todo → IsName name) →
    d.walkFrom followLast follow done todo = .ok l → Found d followLast l := by
  induction todo with
  | nil =>
    intro done hdone _ h
    cases h
    exact Or.inl hdone
  | cons c rest ih =>
    intro done hdone hnames h
    have hrest := fun name hname => hnames name (List.mem_cons_of_mem c hname)
    cases c with
    | root => exact ih reached_root hrest h
    | current => exact ih hdone hrest h
    | parent => exact ih hdone.tail hrest h
    | normal name =>
      have hname := hnames name List.mem_cons_self
      rw [walkFrom] at h
      split at h
      · cases h
      have hlast (hl : l = (name :: done).reverse) (hnolink : followLast = true →
          ∀ target, d.at? (name :: done).reverse ≠ some (.link target)) :
          Found d followLast l := by
        refine Or.inr ⟨done.reverse, name, ?_, hdone, hname, hl ▸ hnolink⟩
        rw [hl, List.reverse_cons]
      cases hat : d.at? (name :: done).reverse with
      | none =>
        simp only [hat] at h
        split at h
        · cases h
          exact hlast rfl fun _ target heq => by rw [hat] at heq; cases heq
        · cases h
      | some e =>
        cases e with
        | directory =>
          simp only [hat] at h
          rw [List.reverse_cons] at hat
          refine ih ?_ hrest h
          rw [List.reverse_cons]
          exact hdone.concat hname hat
        | file content mode modified =>
          simp only [hat] at h
          split at h
          · cases h
            exact hlast rfl fun _ target heq => by rw [hat] at heq; cases heq
          · cases h
        | link target =>
          simp only [hat] at h
          split at h
          · rename_i hend
            cases h
            rw [Bool.and_eq_true, Bool.not_eq_true'] at hend
            exact hlast rfl fun hfollow => by rw [hend.2] at hfollow; cases hfollow
          · refine hfollow done _ l hdone (fun other hother => ?_) h
            rcases List.mem_append.mp hother with hother | hother
            · exact Path.isName_of_mem_components hother
            · exact hrest other hother

theorem found_of_locate {p : Path} (h : d.locate p = .ok l) : Found d true l := by
  obtain ⟨-, -, hwalk, -⟩ := locate_eq_ok_iff.mp h
  have hon (n : Nat) : ∀ done todo l, Reached d done.reverse →
      (∀ name, .normal name ∈ todo → IsName name) → d.walk true n done todo = .ok l →
      Found d true l := by
    induction n with
    | zero => exact fun _ _ _ => found_of_walkFrom fun _ _ _ _ _ h => by cases h
    | succ n ih => exact fun _ _ _ => found_of_walkFrom ih
  exact hon 40 [] p.components l reached_root (fun _ => Path.isName_of_mem_components) hwalk

theorem Found.isName (h : Found d followLast l) : ∀ name ∈ l, IsName name := by
  rcases h with h | ⟨base, name, rfl, hbase, hname, -⟩
  · exact h.1
  · intro other hother
    rcases List.mem_append.mp hother with hother | hother
    · exact hbase.1 other hother
    · rwa [List.mem_singleton.mp hother]

theorem Found.linkFree (h : Found d true l) : LinkFree d [] l := by
  intro m _ hm target ht
  rw [List.nil_append] at hm
  rcases h with h | ⟨base, name, rfl, hbase, hname, hnolink⟩
  · rw [h.2 m hm] at ht
    cases ht
  · rcases List.prefix_concat_iff.mp hm with rfl | hm
    · exact hnolink rfl target ht
    · rw [hbase.2 m hm] at ht
      cases ht

/-- The path of an entry free of links is plain. -/
theorem plain_of_canonical {p q : Path} (h : d.canonical p = .ok q) :
    ∃ l e, d.locate p = .ok l ∧ d.at? l = some e ∧ q = l.path ∧ Plain d q l := by
  rw [canonical] at h
  cases hl : d.locate p with
  | error err =>
    rw [hl] at h
    cases h
  | ok l =>
    rw [hl] at h
    cases he : d.at? l with
    | none => simp [bind, Except.bind, he] at h
    | some e =>
      have hq : q = l.path := by simpa [bind, Except.bind, pure, Except.pure, he] using h.symm
      have hfound := found_of_locate hl
      exact ⟨l, e, rfl, he, hq, hq ▸ Path.components_ofNames hfound.isName, hfound.linkFree⟩

end Reached

end Amend.Disk
