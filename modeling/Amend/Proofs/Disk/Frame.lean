import Amend.Disk

/-!
# What an operation on a disk leaves alone

An operation touches few locations: it never removes a directory and never makes a link, and where
it is not meant to change anything, at most a directory appears where nothing was.  Paths keep
leading to the same locations, as long as the links on their way are not touched.
-/

namespace Amend.Disk

open Path (Component)

/-! ## Links on the way of a path -/

/-- The links that `walkFrom` replaces; `follow` gives those behind the first one. -/
def linksFrom (d : Disk) (followLast : Bool)
    (follow : List String → List Component → List Location) (done : List String) :
    List Component → List Location
  | [] => []
  | .root :: rest => linksFrom d followLast follow [] rest
  | .current :: rest => linksFrom d followLast follow done rest
  | .parent :: rest => linksFrom d followLast follow done.tail rest
  | .normal name :: rest =>
    let here := (name :: done).reverse
    match d.at? here with
    | some .directory => linksFrom d followLast follow (name :: done) rest
    | some (.link target) =>
      if rest.isEmpty && !followLast then []
      else here :: follow done (target.components ++ rest)
    | _ => []

/-- The links that `walk` replaces by their targets. -/
def linksOn (d : Disk) (followLast : Bool) : Nat → List String → List Component → List Location
  | 0 => linksFrom d followLast fun _ _ => []
  | links + 1 => linksFrom d followLast (linksOn d followLast links)

/-- The links on the way of an absolute path. -/
def linksTo (d : Disk) (p : Path) (followLast : Bool := true) : List Location :=
  d.linksOn (followLast || meansDirectory p) 40 [] p.components

theorem mem_linksFrom {d : Disk} {followLast : Bool}
    {follow : List String → List Component → List Location}
    (hfollow : ∀ done todo, ∀ m ∈ follow done todo, ∃ target, d.at? m = some (.link target))
    {todo : List Component} {m : Location} : ∀ {done : List String},
    m ∈ d.linksFrom followLast follow done todo → ∃ target, d.at? m = some (.link target) := by
  induction todo with
  | nil => intro done h; cases h
  | cons c rest ih =>
    intro done h
    cases c with
    | root => exact ih h
    | current => exact ih h
    | parent => exact ih h
    | normal name =>
      rw [linksFrom] at h
      cases hat : d.at? (name :: done).reverse with
      | none =>
        simp only [hat] at h
        cases h
      | some e =>
        cases e with
        | directory =>
          simp only [hat] at h
          exact ih h
        | file content mode modified =>
          simp only [hat] at h
          cases h
        | link target =>
          simp only [hat] at h
          split at h
          · cases h
          rcases List.mem_cons.mp h with rfl | h
          · exact ⟨target, hat⟩
          · exact hfollow _ _ m h

theorem mem_linksTo {d : Disk} {p : Path} {followLast : Bool} {m : Location}
    (h : m ∈ d.linksTo p followLast) : ∃ target, d.at? m = some (.link target) := by
  have hon (n : Nat) : ∀ done todo, ∀ m ∈ d.linksOn (followLast || meansDirectory p) n done todo,
      ∃ target, d.at? m = some (.link target) := by
    induction n with
    | zero => exact fun done todo m hm => mem_linksFrom (fun _ _ _ h => by cases h) hm
    | succ n ih => exact fun done todo m hm => mem_linksFrom ih hm
  exact hon 40 _ _ m h

theorem mem_entries_of_at? {d : Disk} {l : Location} {e : Entry} (hne : l ≠ [])
    (h : d.at? l = some e) : (l, e) ∈ d.entries := by
  have hempty : l.isEmpty = false := by simpa using hne
  rw [Disk.at?, hempty] at h
  obtain ⟨front, back, hentries, -⟩ := List.lookup_eq_some_iff.mp h
  rw [hentries]
  exact List.mem_append_right _ List.mem_cons_self

theorem mem_entries_of_link {d : Disk} {l : Location} {target : Path}
    (h : d.at? l = some (.link target)) : (l, .link target) ∈ d.entries := by
  refine mem_entries_of_at? ?_ h
  rintro rfl
  cases h

/-- Without links among its entries a disk has no links. -/
theorem noLinks_of_entries {d : Disk}
    (h : ∀ p ∈ d.entries, ∀ target, p.2 ≠ .link target) (l : Location) (target : Path) :
    d.at? l ≠ some (.link target) :=
  fun hat => h _ (mem_entries_of_link hat) target rfl

/-- What is there after a location was cleared was there before. -/
theorem at?_of_erase {d : Disk} {l m : Location} {e : Entry} (h : (d.erase l).at? m = some e) :
    d.at? m = some e := by
  by_cases hm : m = l
  · subst hm
    by_cases hroot : m = []
    · rwa [hroot] at h ⊢
    · rw [at?_erase_self d m hroot] at h
      cases h
  · rwa [at?_erase_of_ne d hm] at h

/-! ## Frames -/

/-- A disk after operations that touch no more than the given locations. -/
structure Frame (touched : Location → Prop) (d d' : Disk) : Prop where
  directory : ∀ l, d.at? l = some .directory → d'.at? l = some .directory
  link : ∀ l target, d'.at? l = some (.link target) → d.at? l = some (.link target)
  same : ∀ l, ¬ touched l → d'.at? l = d.at? l ∨ d.at? l = none ∧ d'.at? l = some .directory

namespace Frame

variable {touched more : Location → Prop} {d d' d'' : Disk}

theorem refl (d : Disk) : Frame touched d d :=
  ⟨fun _ h => h, fun _ _ h => h, fun _ _ => Or.inl rfl⟩

theorem trans (h : Frame touched d d') (h' : Frame touched d' d'') : Frame touched d d'' where
  directory := fun l hl => h'.directory l (h.directory l hl)
  link := fun l target hl => h.link l target (h'.link l target hl)
  same := by
    intro l hl
    rcases h'.same l hl with heq | ⟨hnone, hdirectory⟩
    · rw [heq]
      exact h.same l hl
    · rcases h.same l hl with heq | ⟨-, hdir⟩
      · exact Or.inr ⟨heq.symm.trans hnone, hdirectory⟩
      · rw [hnone] at hdir
        cases hdir

theorem mono (h : Frame touched d d') (hsub : ∀ l, touched l → more l) : Frame more d d' where
  directory := h.directory
  link := h.link
  same := fun l hl => h.same l fun ht => hl (hsub l ht)

/-- What is not touched stays, if it was there. -/
theorem eq_of_some (h : Frame touched d d') {l : Location} (hl : ¬ touched l) {e : Entry}
    (he : d.at? l = some e) : d'.at? l = some e := by
  rcases h.same l hl with heq | ⟨hnone, -⟩
  · rw [heq, he]
  · rw [hnone] at he
    cases he

/-- A file that is not touched was there before. -/
theorem file_of_file (h : Frame touched d d') {l : Location} (hl : ¬ touched l)
    {content : ByteArray} {mode modified : Nat}
    (he : d'.at? l = some (.file content mode modified)) :
    d.at? l = some (.file content mode modified) := by
  rcases h.same l hl with heq | ⟨-, hdirectory⟩
  · rw [← heq, he]
  · rw [hdirectory] at he
    cases he

theorem put_file {l : Location} (hne : l ≠ []) (hl : d.at? l ≠ some .directory)
    (content : ByteArray) (mode modified : Nat) :
    Frame (· = l) d (d.put l (.file content mode modified)) where
  directory := by
    intro m hm
    have hml : m ≠ l := fun h => hl (h ▸ hm)
    rwa [at?_put_of_ne d _ hml]
  link := by
    intro m target hm
    by_cases hml : m = l
    · rw [hml, at?_put_self d l _ hne] at hm
      cases hm
    · rwa [at?_put_of_ne d _ hml] at hm
  same := fun m hm => Or.inl (at?_put_of_ne d _ hm)

theorem put_directory {l : Location} (hl : d.at? l = none) :
    Frame touched d (d.put l .directory) where
  directory := by
    intro m hm
    have hml : m ≠ l := by
      rintro rfl
      rw [hl] at hm
      cases hm
    rwa [at?_put_of_ne d _ hml]
  link := by
    intro m target hm
    by_cases hml : m = l
    · have hne : l ≠ [] := by
        rintro rfl
        cases hl
      rw [hml, at?_put_self d l _ hne] at hm
      cases hm
    · rwa [at?_put_of_ne d _ hml] at hm
  same := by
    intro m _
    by_cases hml : m = l
    · have hne : l ≠ [] := by
        rintro rfl
        cases hl
      rw [hml]
      exact Or.inr ⟨hl, at?_put_self d l _ hne⟩
    · exact Or.inl (at?_put_of_ne d _ hml)

theorem erase {l : Location} (hne : l ≠ []) (hl : d.at? l ≠ some .directory) :
    Frame (· = l) d (d.erase l) where
  directory := by
    intro m hm
    have hml : m ≠ l := fun h => hl (h ▸ hm)
    rwa [at?_erase_of_ne d hml]
  link := by
    intro m target hm
    by_cases hml : m = l
    · rw [hml, at?_erase_self d l hne] at hm
      cases hm
    · rwa [at?_erase_of_ne d hml] at hm
  same := fun m hm => Or.inl (at?_erase_of_ne d hm)

/-! ## Paths in a frame -/

/-- A path that ends at a location still ends there, whatever the location holds by now, unless it
is a link that has to be followed. -/
theorem walkFrom_end {followLast : Bool}
    (follow : List String → List Component → Except SystemError Location)
    (links : List String → List Component → List Location) {name : String} {done : List String}
    (hsize : ¬ name.utf8ByteSize > maxNameBytes)
    (hlink : followLast = true → ∀ target, d'.at? (name :: done).reverse ≠ some (.link target)) :
    d'.walkFrom followLast follow done [.normal name] = .ok (name :: done).reverse ∧
      d'.linksFrom followLast links done [.normal name] = [] := by
  simp only [Disk.walkFrom, Disk.linksFrom, if_neg hsize]
  cases hat : d'.at? (name :: done).reverse with
  | none => exact ⟨rfl, rfl⟩
  | some e =>
    cases e with
    | directory => exact ⟨rfl, rfl⟩
    | file content mode modified => exact ⟨rfl, rfl⟩
    | link target =>
      cases followLast with
      | true => exact absurd hat (hlink rfl target)
      | false => exact ⟨rfl, rfl⟩

theorem walkFrom (h : Frame touched d d') {followLast : Bool}
    {follow follow' : List String → List Component → Except SystemError Location}
    {links links' : List String → List Component → List Location}
    (hfollow : ∀ done todo l, follow done todo = .ok l → (∀ m ∈ links done todo, ¬ touched m) →
      follow' done todo = .ok l ∧ links' done todo = links done todo)
    {todo : List Component} : ∀ {done : List String} {l : Location},
    d.walkFrom followLast follow done todo = .ok l →
    (∀ m ∈ d.linksFrom followLast links done todo, ¬ touched m) →
    d'.walkFrom followLast follow' done todo = .ok l ∧
      d'.linksFrom followLast links' done todo = d.linksFrom followLast links done todo := by
  induction todo with
  | nil => intro done l hl _; exact ⟨hl, rfl⟩
  | cons c rest ih =>
    intro done l hl hlinks
    cases c with
    | root => exact ih hl hlinks
    | current => exact ih hl hlinks
    | parent => exact ih hl hlinks
    | normal name =>
      by_cases hsize : name.utf8ByteSize > maxNameBytes
      · simp [Disk.walkFrom, hsize] at hl
      -- a path that ends here in `d` ends here in `d'`
      have hend (hrest : rest = []) (hnolink : followLast = true →
          ∀ target, d.at? (name :: done).reverse ≠ some (.link target)) :
          d'.walkFrom followLast follow' done (.normal name :: rest) = .ok l ∧
            d'.linksFrom followLast links' done (.normal name :: rest) =
              d.linksFrom followLast links done (.normal name :: rest) := by
        subst hrest
        obtain ⟨hwalk, hnone⟩ := walkFrom_end follow links hsize hnolink
        obtain ⟨hwalk', hnone'⟩ := walkFrom_end follow' links' hsize
          fun hfollow target ht => hnolink hfollow target (h.link _ target ht)
        rw [hwalk] at hl
        rw [hwalk', hnone', hnone]
        exact ⟨hl, rfl⟩
      cases hat : d.at? (name :: done).reverse with
      | none =>
        simp only [Disk.walkFrom, if_neg hsize, hat] at hl
        split at hl
        · rename_i hrest
          exact hend (List.isEmpty_iff.mp hrest) (by rw [hat]; intro _ _ ht; cases ht)
        · cases hl
      | some e =>
        cases e with
        | directory =>
          simp only [Disk.walkFrom, Disk.linksFrom, if_neg hsize, hat, h.directory _ hat]
            at hl hlinks ⊢
          exact ih hl hlinks
        | file content mode modified =>
          simp only [Disk.walkFrom, if_neg hsize, hat] at hl
          split at hl
          · rename_i hrest
            exact hend (List.isEmpty_iff.mp hrest) (by rw [hat]; intro _ _ ht; cases ht)
          · cases hl
        | link target =>
          by_cases hlast : (rest.isEmpty && !followLast) = true
          · rw [Bool.and_eq_true, Bool.not_eq_true'] at hlast
            exact hend (List.isEmpty_iff.mp hlast.1) (by simp [hlast.2])
          · simp only [Disk.walkFrom, Disk.linksFrom, if_neg hsize, hat, if_neg hlast]
              at hl hlinks ⊢
            simp only [h.eq_of_some (hlinks _ List.mem_cons_self) hat]
            obtain ⟨hwalk, hsame⟩ :=
              hfollow _ _ l hl fun m hm => hlinks m (List.mem_cons_of_mem _ hm)
            exact ⟨hwalk, by rw [hsame]⟩

theorem walk (h : Frame touched d d') {followLast : Bool} {n : Nat} :
    ∀ {done : List String} {todo : List Component} {l : Location},
    d.walk followLast n done todo = .ok l → (∀ m ∈ d.linksOn followLast n done todo, ¬ touched m) →
    d'.walk followLast n done todo = .ok l ∧
      d'.linksOn followLast n done todo = d.linksOn followLast n done todo := by
  induction n with
  | zero => exact h.walkFrom fun _ _ _ hl => by cases hl
  | succ n ih => exact h.walkFrom fun _ _ _ hl hlinks => ih hl hlinks

end Frame

/-! ## Where a path leads -/

section Locate

variable {touched : Location → Prop} {d d' : Disk} {p : Path} {followLast : Bool} {l : Location}

theorem locate_eq_ok_iff : d.locate p followLast = .ok l ↔
    p.text ≠ "" ∧ p.text.toList.contains '\x00' = false ∧
      d.walk (followLast || meansDirectory p) 40 [] p.components = .ok l ∧
      (meansDirectory p = true → ∀ content mode modified,
        d.at? l ≠ some (.file content mode modified)) := by
  rw [locate]
  by_cases hempty : p.text = ""
  · simp [hempty]
  rw [if_neg hempty]
  cases hzero : p.text.toList.contains '\x00' with
  | true => simp
  | false =>
    cases hwalk : d.walk (followLast || meansDirectory p) 40 [] p.components with
    | error e => simp [bind, Except.bind]
    | ok m =>
      by_cases hdirectory : meansDirectory p = true
      · simp only [bind, Except.bind, hdirectory, if_true, Bool.false_eq_true, if_false]
        constructor
        · intro h
          split at h
          · cases h
          · rename_i hnofile
            cases h
            exact ⟨hempty, trivial, rfl, fun _ content mode modified hfile =>
              hnofile content mode modified hfile⟩
        · rintro ⟨-, -, hl, hnofile⟩
          cases hl
          split
          · rename_i hfile
            exact absurd hfile (hnofile trivial _ _ _)
          · rfl
      · have hplain : meansDirectory p = false := Bool.eq_false_iff.mpr hdirectory
        simp only [bind, Except.bind, hplain, Bool.false_eq_true, if_false]
        constructor
        · intro h
          split at h <;> cases h <;> exact ⟨hempty, trivial, rfl, nofun⟩
        · rintro ⟨-, -, hl, -⟩
          cases hl
          split <;> rfl

/-- A path still leads to its location. -/
theorem Frame.locate (h : Frame touched d d') (hl : d.locate p followLast = .ok l)
    (hlinks : ∀ m ∈ d.linksTo p followLast, ¬ touched m)
    (hkind : meansDirectory p = false ∨ d.at? l = some .directory) :
    d'.locate p followLast = .ok l ∧ d'.linksTo p followLast = d.linksTo p followLast := by
  obtain ⟨hempty, hzero, hwalk, -⟩ := locate_eq_ok_iff.mp hl
  obtain ⟨hwalk', hsame⟩ := h.walk hwalk hlinks
  refine ⟨locate_eq_ok_iff.mpr ⟨hempty, hzero, hwalk', fun hmeans => ?_⟩, hsame⟩
  intro content mode modified hfile
  rcases hkind with hplain | hdirectory
  · rw [hplain] at hmeans
    cases hmeans
  · rw [h.directory l hdirectory] at hfile
    cases hfile

theorem stat_eq_ok_iff {e : Entry} :
    d.stat p = .ok e ↔ ∃ l, d.locate p = .ok l ∧ d.at? l = some e := by
  rw [stat]
  cases hl : d.locate p with
  | error err => simp [bind, Except.bind]
  | ok m =>
    cases he : d.at? m with
    | none => simp [bind, Except.bind, he]
    | some e' => simp [bind, Except.bind, pure, Except.pure, he]

theorem read_eq_ok_iff {content : ByteArray} :
    d.read p = .ok content ↔
      ∃ l mode modified, d.locate p = .ok l ∧ d.at? l = some (.file content mode modified) := by
  rw [read]
  constructor
  · intro h
    cases he : d.stat p with
    | error err =>
      rw [he] at h
      cases h
    | ok e =>
      rw [he] at h
      obtain ⟨l, hl, hat⟩ := stat_eq_ok_iff.mp he
      cases e with
      | file bytes mode modified =>
        cases h
        exact ⟨l, mode, modified, hl, hat⟩
      | directory => cases h
      | link target => cases h
  · rintro ⟨l, mode, modified, hl, hat⟩
    rw [stat_eq_ok_iff.mpr ⟨l, hl, hat⟩]
    rfl

/-! ## A file put where a path ends -/

/-- A walk that ended at a location ends there or nowhere once a file has been put there, for no
walk goes on behind a file. -/
theorem walkFrom_put {m : Location} (hne : m ≠ []) {content : ByteArray} {mode modified : Nat}
    {follow follow' : List String → List Component → Except SystemError Location}
    (hfollow : ∀ done todo, follow done todo = .ok m → follow' done todo = .ok l → l = m)
    {todo : List Component} : ∀ {done : List String},
    d.walkFrom followLast follow done todo = .ok m →
    (d.put m (.file content mode modified)).walkFrom true follow' done todo = .ok l → l = m := by
  induction todo with
  | nil =>
    intro done h h'
    cases h
    cases h'
    rfl
  | cons c rest ih =>
    intro done h h'
    cases c with
    | root => exact ih h h'
    | current => exact ih h h'
    | parent => exact ih h h'
    | normal name =>
      rw [walkFrom] at h h'
      by_cases hsize : name.utf8ByteSize > maxNameBytes
      · rw [if_pos hsize] at h
        cases h
      rw [if_neg hsize] at h h'
      by_cases hhere : (name :: done).reverse = m
      · rw [← hhere] at hne
        rw [← hhere] at h'
        simp only [at?_put_self d _ _ hne] at h'
        split at h'
        · cases h'
          exact hhere
        · cases h'
      -- elsewhere the two disks agree, and a walk that ends here has not ended at `m`
      have hlast {r : Except SystemError Location}
          (hr : (if rest.isEmpty = true then Except.ok (name :: done).reverse else r) = .ok m) :
          rest.isEmpty = false := by
        cases hrest : rest.isEmpty with
        | true =>
          rw [hrest, if_pos rfl] at hr
          exact absurd (Except.ok.inj hr) hhere
        | false => rfl
      simp only [at?_put_of_ne d _ hhere] at h'
      cases hat : d.at? (name :: done).reverse with
      | none =>
        simp only [hat] at h
        rw [if_neg (by rw [hlast h]; exact Bool.false_ne_true)] at h
        cases h
      | some e =>
        cases e with
        | directory =>
          simp only [hat] at h h'
          exact ih h h'
        | file bytes mode modified =>
          simp only [hat] at h
          rw [if_neg (by rw [hlast h]; exact Bool.false_ne_true)] at h
          cases h
        | link target =>
          simp only [hat, Bool.not_true, Bool.and_false, Bool.false_eq_true, if_false] at h h'
          split at h
          · exact absurd (Except.ok.inj h) hhere
          · exact hfollow _ _ h h'

/-- A path leads to a file that was put where it ended, if it still leads anywhere. -/
theorem locate_put {m : Location} (hm : d.locate p followLast = .ok m) (hne : m ≠ [])
    {content : ByteArray} {mode modified : Nat}
    (hl : (d.put m (.file content mode modified)).locate p = .ok l) : l = m := by
  obtain ⟨-, -, hwalk, -⟩ := locate_eq_ok_iff.mp hm
  obtain ⟨-, -, hwalk', -⟩ := locate_eq_ok_iff.mp hl
  have hon (n : Nat) : ∀ done todo, d.walk (followLast || meansDirectory p) n done todo = .ok m →
      (d.put m (.file content mode modified)).walk true n done todo = .ok l → l = m := by
    induction n with
    | zero => exact fun _ _ => walkFrom_put hne fun _ _ h => by cases h
    | succ n ih => exact fun _ _ => walkFrom_put hne ih
  exact hon 40 _ _ hwalk hwalk'

end Locate

/-! ## What one operation changes -/

section Operations

variable {d d' : Disk} {p : Path} {content : ByteArray} {mode now : Nat}

theorem create_eq_ok (h : d.create p content now = .ok d') :
    ∃ l, d.locate p false = .ok l ∧ d.at? l = none ∧
      d' = d.put l (.file content defaultMode now) := by
  rw [create] at h
  cases hl : d.locate p false with
  | error err =>
    rw [hl] at h
    cases h
  | ok l =>
    rw [hl] at h
    cases he : d.at? l with
    | none => exact ⟨l, rfl, he, by simpa [bind, Except.bind, pure, Except.pure, he] using h.symm⟩
    | some e => simp [bind, Except.bind, he] at h

theorem create_of_none (hl : d.locate p false = .ok l) (hnone : d.at? l = none) :
    d.create p content now = .ok (d.put l (.file content defaultMode now)) := by
  rw [create, hl]
  simp only [bind, Except.bind, hnone]
  rfl

theorem remove_eq_ok (h : d.remove p = .ok d') :
    ∃ l e, d.locate p false = .ok l ∧ d.at? l = some e ∧ e ≠ .directory ∧ d' = d.erase l := by
  rw [remove] at h
  cases hl : d.locate p false with
  | error err =>
    rw [hl] at h
    cases h
  | ok l =>
    rw [hl] at h
    cases he : d.at? l with
    | none => simp [bind, Except.bind, he] at h
    | some e =>
      cases e with
      | directory => simp [bind, Except.bind, he] at h
      | file content mode modified =>
        exact ⟨l, _, rfl, he, nofun, by
          simpa [bind, Except.bind, pure, Except.pure, he] using h.symm⟩
      | link target =>
        exact ⟨l, _, rfl, he, nofun, by
          simpa [bind, Except.bind, pure, Except.pure, he] using h.symm⟩

theorem remove_of_file {bytes : ByteArray} {modified : Nat} (hl : d.locate p false = .ok l)
    (hfile : d.at? l = some (.file bytes mode modified)) : d.remove p = .ok (d.erase l) := by
  rw [remove, hl]
  simp only [bind, Except.bind, hfile]
  rfl

theorem remove_of_none (hl : d.locate p false = .ok l) (hnone : d.at? l = none) :
    d.remove p = .error .notFound := by
  rw [remove, hl]
  simp only [bind, Except.bind, hnone]

theorem canonical_of_entry {e : Entry} (hl : d.locate p = .ok l) (he : d.at? l = some e) :
    d.canonical p = .ok l.path := by
  rw [canonical, hl]
  simp only [bind, Except.bind, he]
  rfl

theorem replace_eq_ok (h : d.replace p content mode now = .ok d') :
    ∃ l, d.locate p false = .ok l ∧ d.at? l ≠ some .directory ∧
      d' = d.put l (.file content mode now) := by
  rw [replace] at h
  cases hzero : p.text.toList.contains '\x00' with
  | true =>
    rw [hzero] at h
    cases h
  | false =>
    cases hl : d.locate p false with
    | error err =>
      rw [hzero, hl] at h
      cases h
    | ok l =>
      rw [hzero, hl] at h
      cases he : d.at? l with
      | none =>
        refine ⟨l, rfl, by rw [he]; exact nofun, ?_⟩
        simp only [bind, Except.bind, pure, Except.pure, he, Bool.false_eq_true, if_false] at h
        split at h
        · cases h
        · split at h
          · cases h
          · exact (Except.ok.inj h).symm
      | some e =>
        cases e with
        | directory =>
          simp only [bind, Except.bind, he, Bool.false_eq_true, if_false] at h
          split at h
          · cases h
          · split at h <;> cases h
        | file content mode modified =>
          refine ⟨l, rfl, by rw [he]; exact nofun, ?_⟩
          simpa [bind, Except.bind, pure, Except.pure, he] using h.symm
        | link target =>
          refine ⟨l, rfl, by rw [he]; exact nofun, ?_⟩
          simpa [bind, Except.bind, pure, Except.pure, he] using h.symm

theorem makeDirectory_eq_ok (h : d.makeDirectory p = .ok d') :
    ∃ l, d.locate p false = .ok l ∧ d.at? l = none ∧ d' = d.put l .directory := by
  rw [makeDirectory] at h
  cases hl : d.locate p false with
  | error err =>
    rw [hl] at h
    cases h
  | ok l =>
    rw [hl] at h
    cases he : d.at? l with
    | none => exact ⟨l, rfl, he, by simpa [bind, Except.bind, pure, Except.pure, he] using h.symm⟩
    | some e => simp [bind, Except.bind, he] at h

theorem frame_makeDirectory {touched : Location → Prop} (h : d.makeDirectory p = .ok d') :
    Frame touched d d' := by
  obtain ⟨l, -, hnone, rfl⟩ := makeDirectory_eq_ok h
  exact Frame.put_directory hnone

theorem frame_makeDirectories_go {touched : Location → Prop} {n : Nat}
    (h : makeDirectories.go d n p = .ok d') : Frame touched d d' := by
  induction n generalizing p d' with
  | zero =>
    unfold makeDirectories.go at h
    split at h
    · cases h
      exact Frame.refl d
    split at h
    · rename_i hd
      cases h
      exact frame_makeDirectory hd
    · cases h
    · split at h
      · cases h
        exact Frame.refl d
      · cases h
  | succ n ih =>
    unfold makeDirectories.go at h
    split at h
    · cases h
      exact Frame.refl d
    split at h
    · rename_i hd
      cases h
      exact frame_makeDirectory hd
    · split at h
      · split at h
        · rename_i habove
          cases ‹_ = Nat.succ _›
          exact (ih habove).trans (frame_makeDirectory h)
        · cases h
      · cases h
    · split at h
      · cases h
        exact Frame.refl d
      · cases h

/-- Creating directories touches nothing that is there. -/
theorem frame_makeDirectories {touched : Location → Prop} (h : d.makeDirectories p = .ok d') :
    Frame touched d d' := frame_makeDirectories_go h

/-- Where a directory is already, nothing is created. -/
theorem makeDirectories_of_directory {l : Location} (hentry : d.locate p false = .ok l)
    (hl : d.locate p = .ok l) (hdirectory : d.at? l = some .directory) :
    d.makeDirectories p = .ok d := by
  have hnonempty : p.text ≠ "" := (locate_eq_ok_iff.mp hl).1
  have hthere : d.makeDirectory p = .error .alreadyExists := by
    rw [makeDirectory, hentry]
    simp only [bind, Except.bind, hdirectory]
  have hisDirectory : d.isDirectory p = true := by
    rw [isDirectory, stat_eq_ok_iff.mpr ⟨l, hl, hdirectory⟩]
    rfl
  rw [makeDirectories]
  unfold makeDirectories.go
  rw [if_neg hnonempty, hthere]
  simp only [hisDirectory, if_true]

end Operations

end Amend.Disk
