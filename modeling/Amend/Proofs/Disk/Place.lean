import Mathlib.Data.List.Induction
import Amend.Proofs.Workflow.File

/-!
# The way to a place

The path of a location that meets no link leads there if all directories on the way are there.
Where some of them are missing and nothing else is in the way, they can be created, from the top
down, and nothing but them appears.
-/

namespace Amend

namespace Path

variable {names : List String} {name : String} {l m : Location}

theorem intercalate_concat (h : names ≠ []) (name : String) :
    "/".intercalate (names ++ [name]) = "/".intercalate names ++ "/" ++ name := by
  induction names with
  | nil => exact absurd rfl h
  | cons first rest ih =>
    cases rest with
    | nil =>
      rw [List.singleton_append, String.intercalate_cons_cons, String.intercalate_singleton,
        String.intercalate_singleton]
    | cons second rest =>
      rw [List.cons_append, List.cons_append, String.intercalate_cons_cons, ← List.cons_append,
        ih (List.cons_ne_nil _ _), String.intercalate_cons_cons]
      simp only [String.append_assoc]

theorem isAbsolute_path (l : Location) : l.path.isAbsolute = true := by
  rw [Location.path, isAbsolute, ofNames, String.toList_append]
  rfl

/-- A path to which a name was joined has nothing to drop at its end. -/
theorem isTidy_join {p : Path} (hp : p.isAbsolute = true) (hname : IsName name) :
    (p.join ⟨name⟩).IsTidy where
  absolute := (isAbsolute_join hname p).trans hp
  noSlash := by
    rw [join_name hname, String.toList_append, List.getLast?_append]
    cases hlast : name.toList.getLast? with
    | none =>
      exact absurd (String.toList_eq_nil_iff.mp (List.getLast?_eq_none_iff.mp hlast)) hname.ne_empty
    | some c =>
      intro heq
      obtain rfl : c = '/' := by simpa using heq
      exact hname.noSlash (List.mem_of_getLast? hlast)
  tail := by
    obtain ⟨front, hfront⟩ : ∃ front, (p.text ++ p.glue).toList = front ++ ['/'] := by
      have hglue := glue_glue p
      rw [glue] at hglue
      split at hglue
      case isTrue h =>
        rcases h with hempty | hlast
        · rw [isAbsolute, (String.append_eq_empty_iff.mp hempty).1] at hp
          cases hp
        · exact List.getLast?_eq_some_iff.mp hlast
      case isFalse => exact absurd hglue (by decide)
    have hreverse : (p.join ⟨name⟩).text.toList.reverse =
        name.toList.reverse ++ '/' :: front.reverse := by
      rw [join_name hname, String.toList_append, hfront, List.reverse_append, List.reverse_append]
      rfl
    rw [hreverse]
    exact hname.dropTail front.reverse

/-- A name is joined to the path of a location by putting it behind. -/
theorem path_concat (hl : ∀ name ∈ l, IsName name) (hname : IsName name) :
    Location.path (l ++ [name]) = l.path.join ⟨name⟩ := by
  induction l using List.reverseRecOn generalizing name with
  | nil =>
    rw [join_name hname]
    rfl
  | append_singleton l last ih =>
    have hlast : IsName last := hl last (List.mem_append_right _ (List.mem_singleton_self last))
    have htidy : (Location.path (l ++ [last])).IsTidy := by
      rw [ih (fun other hother => hl other (List.mem_append_left _ hother)) hlast]
      exact isTidy_join (isAbsolute_path l) hlast
    have hglue : glue (Location.path (l ++ [last])) = "/" := by
      refine if_neg (not_or.mpr ⟨fun hempty => ?_, htidy.noSlash⟩)
      have habsolute := htidy.absolute
      rw [isAbsolute, hempty] at habsolute
      cases habsolute
    rw [join_name hname, hglue, Location.path, ofNames, intercalate_concat (by simp)]
    simp only [Location.path, ofNames, String.append_assoc]

/-- The directory of a place. -/
theorem parent?_path (hl : ∀ name ∈ l, IsName name) (hname : IsName name) :
    (Location.path (l ++ [name])).parent? = some l.path := by
  rw [path_concat hl hname]
  induction l using List.reverseRecOn with
  | nil =>
    have htext : ((Location.path []).join ⟨name⟩).text.toList.reverse =
        name.toList.reverse ++ ['/'] := by
      rw [join_name hname, String.toList_append, List.reverse_append]
      rfl
    have hbefore : (name.toList.reverse ++ ['/']).dropWhile (· != '/') = ['/'] := by
      rw [List.dropWhile_append_of_pos fun c hc => ?_]
      · rfl
      · have hne : c ≠ '/' := fun heq => hname.noSlash (heq ▸ List.mem_reverse.mp hc)
        simpa using hne
    rw [parent?, components_join hname _ (isAbsolute_path []), List.getLast?_concat]
    simp only [htext, hname.dropTail [], hbefore]
    rfl
  | append_singleton l last =>
    have hlast : IsName last := hl last (List.mem_append_right _ (List.mem_singleton_self last))
    refine IsTidy.parent?_join ?_ hname
    rw [path_concat (fun other hother => hl other (List.mem_append_left _ hother)) hlast]
    exact isTidy_join (isAbsolute_path l) hlast

theorem mem_path {c : Char} (hc : c ≠ '/') :
    c ∈ l.path.text.toList ↔ ∃ name ∈ l, c ∈ name.toList := by
  have hinner : c ∈ ("/".intercalate l).toList ↔ ∃ name ∈ l, c ∈ name.toList := by
    induction l with
    | nil => simp
    | cons first rest ih =>
      cases rest with
      | nil => simp
      | cons second rest =>
        rw [String.intercalate_cons_cons, String.toList_append, String.toList_append,
          List.mem_append, List.mem_append, ih]
        simp [hc]
  rw [Location.path, ofNames, String.toList_append, List.mem_append, hinner]
  simp [hc]

end Path

namespace Disk

open Path (IsName)

/-! ## Names that lead down -/

section Walk

variable {d : Disk} {followLast : Bool} {done front : List String} {last : String} {l : Location}
  {follow : List String → List Path.Component → Except SystemError Location}

theorem reverse_cons_append (name : String) (done k : List String) :
    (name :: done).reverse ++ k = done.reverse ++ name :: k := by
  rw [List.reverse_cons, List.append_assoc]
  rfl

/-- What holds all the way down holds at the first name and from there on. -/
theorem forall_prefix_cons {name : String} {P : List String → Prop} :
    (∀ k, k <+: name :: front → k ≠ [] → P k) ↔
      P [name] ∧ ∀ k, k <+: front → k ≠ [] → P (name :: k) := by
  constructor
  · intro h
    refine ⟨h _ (List.prefix_append [name] front) (List.cons_ne_nil _ _), fun k hk _ => ?_⟩
    exact h _ (List.cons_prefix_cons.mpr ⟨rfl, hk⟩) (List.cons_ne_nil _ _)
  · rintro ⟨hhere, hbelow⟩ k hk hne
    cases k with
    | nil => exact absurd rfl hne
    | cons first k =>
      obtain ⟨rfl, hk'⟩ := List.cons_prefix_cons.mp hk
      by_cases hempty : k = []
      · rw [hempty]
        exact hhere
      · exact hbelow k hk' hempty

/-- Names are followed through directories. -/
theorem walkFrom_names_eq_ok_iff (h : LinkFree d done.reverse (front ++ [last])) :
    d.walkFrom followLast follow done ((front ++ [last]).map .normal) = .ok l ↔
      l = done.reverse ++ (front ++ [last]) ∧
        (∀ name ∈ front ++ [last], name.utf8ByteSize ≤ maxNameBytes) ∧
        ∀ k, k <+: front → k ≠ [] → d.at? (done.reverse ++ k) = some .directory := by
  induction front generalizing done with
  | nil =>
    have hnone : ∀ k, k <+: ([] : List String) → k ≠ [] →
        d.at? (done.reverse ++ k) = some .directory :=
      fun k hk hne => absurd (List.prefix_nil.mp hk) hne
    rw [List.nil_append, List.map_singleton]
    by_cases hsize : last.utf8ByteSize > maxNameBytes
    · rw [walkFrom, if_pos hsize]
      simpa using fun _ => hsize
    · have hend := (Frame.walkFrom_end follow (fun _ _ => []) hsize
        fun _ : followLast = true => h.here).1
      rw [hend, List.reverse_cons]
      simpa [hnone, Nat.le_of_not_lt hsize] using eq_comm
  | cons name front ih =>
    have hrest : ((front ++ [last]).map Path.Component.normal).isEmpty = false := by
      rw [List.isEmpty_eq_false_iff]
      simp
    rw [List.cons_append, List.map_cons, walkFrom, List.forall_mem_cons,
      forall_prefix_cons (P := fun k => d.at? (done.reverse ++ k) = some .directory)]
    by_cases hsize : name.utf8ByteSize > maxNameBytes
    · rw [if_pos hsize]
      simpa using fun _ hsize' => absurd hsize (Nat.not_lt.mpr hsize')
    rw [if_neg hsize, and_iff_right (Nat.le_of_not_lt hsize), ← List.reverse_cons]
    cases hat : d.at? (name :: done).reverse with
    | none =>
      simp only [hat, hrest, Bool.false_eq_true, if_false, reduceCtorEq, false_and, and_false]
    | some e =>
      cases e with
      | file content mode modified =>
        simp only [hat, hrest, Bool.false_eq_true, if_false, reduceCtorEq, Option.some.injEq,
          false_and, and_false]
      | link target => exact absurd hat (h.here target)
      | directory =>
        have hbelow := ih h.tail
        simp only [reverse_cons_append] at hbelow
        simp only [hat, true_and]
        exact hbelow

/-- Where a directory on the way is missing, and nothing else is in the way, nothing is found. -/
theorem walkFrom_names_of_missing
    (hsize : ∀ name ∈ front ++ [last], name.utf8ByteSize ≤ maxNameBytes)
    (hfree : ∀ k, k <+: front → k ≠ [] →
      d.at? (done.reverse ++ k) = none ∨ d.at? (done.reverse ++ k) = some .directory)
    (hmissing : ∃ k, k <+: front ∧ k ≠ [] ∧ d.at? (done.reverse ++ k) = none) :
    d.walkFrom followLast follow done ((front ++ [last]).map .normal) = .error .notFound := by
  induction front generalizing done with
  | nil =>
    obtain ⟨k, hk, hne, -⟩ := hmissing
    exact absurd (List.prefix_nil.mp hk) hne
  | cons name front ih =>
    have hrest : ((front ++ [last]).map Path.Component.normal).isEmpty = false := by
      rw [List.isEmpty_eq_false_iff]
      simp
    obtain ⟨hhere, hbelow⟩ := (forall_prefix_cons (P := fun k =>
      d.at? (done.reverse ++ k) = none ∨ d.at? (done.reverse ++ k) = some .directory)).mp hfree
    rw [List.cons_append] at hsize
    rw [List.cons_append, List.map_cons, walkFrom,
      if_neg (Nat.not_lt.mpr (hsize name List.mem_cons_self))]
    rw [← List.reverse_cons] at hhere
    rcases hhere with hat | hat
    · simp only [hat]
      exact if_neg (by simp)
    · simp only [hat]
      obtain ⟨k, hk, hne, hnone⟩ := hmissing
      cases k with
      | nil => exact absurd rfl hne
      | cons first k =>
        obtain ⟨rfl, hbelow'⟩ := List.cons_prefix_cons.mp hk
        rw [← reverse_cons_append] at hnone
        refine ih (fun other hother => hsize other (List.mem_cons_of_mem first hother))
          (fun k' hk' hne' => ?_) ⟨k, hbelow', ?_, hnone⟩
        · rw [reverse_cons_append]
          exact hbelow k' hk' hne'
        · rintro rfl
          rw [List.append_nil, hat] at hnone
          cases hnone

end Walk

section Path

variable {d d' : Disk} {l m : Location} {name : String} {followLast : Bool}

theorem text_path_ne_empty (l : Location) : l.path.text ≠ "" := by
  intro hempty
  have habsolute := Path.isAbsolute_path l
  rw [Path.isAbsolute, hempty] at habsolute
  cases habsolute

theorem contains_zero_path (l : Location) :
    l.path.text.toList.contains '\x00' = false ↔ ∀ name ∈ l, '\x00' ∉ name.toList := by
  rw [List.contains_eq_mem, decide_eq_false_iff_not, Path.mem_path (by decide)]
  exact ⟨fun h name hname hzero => h ⟨name, hname, hzero⟩,
    fun h ⟨name, hname, hzero⟩ => h name hname hzero⟩

/-- The path of a location leads there through directories. -/
theorem locate_path_eq_ok_iff (hnames : ∀ other ∈ l ++ [name], IsName other)
    (hfree : LinkFree d [] (l ++ [name])) :
    d.locate (Location.path (l ++ [name])) followLast = .ok m ↔ m = l ++ [name] ∧
      (∀ other ∈ l ++ [name], other.utf8ByteSize ≤ maxNameBytes ∧ '\x00' ∉ other.toList) ∧
        ∀ k, k <+: l → d.at? k = some .directory := by
  have hplain : meansDirectory (Location.path (l ++ [name])) = false := by
    rw [Path.path_concat (fun other hother => hnames other (List.mem_append_left _ hother))
      (hnames name (List.mem_append_right _ (List.mem_singleton_self name)))]
    exact meansDirectory_join
      (hnames name (List.mem_append_right _ (List.mem_singleton_self name))) _
  have hwalk : d.walk (followLast || false) 40 [] (Location.path (l ++ [name])).components =
      .ok m ↔ m = l ++ [name] ∧ (∀ other ∈ l ++ [name], other.utf8ByteSize ≤ maxNameBytes) ∧
        ∀ k, k <+: l → k ≠ [] → d.at? k = some .directory := by
    rw [Location.path, Path.components_ofNames hnames]
    have hfree' : LinkFree d ([] : List String).reverse (l ++ [name]) := hfree
    exact walkFrom_names_eq_ok_iff hfree'
  have hroot : (∀ k, k <+: l → k ≠ [] → d.at? k = some .directory) ↔
      ∀ k, k <+: l → d.at? k = some .directory := by
    refine forall_congr' fun k => forall_congr' fun hk => ⟨fun h => ?_, fun h _ => h⟩
    by_cases hempty : k = []
    · rw [hempty]
      rfl
    · exact h hempty
  rw [locate_eq_ok_iff, hplain, contains_zero_path, hwalk, hroot]
  simp only [forall_and, Bool.false_eq_true, false_implies, and_true]
  constructor
  · rintro ⟨-, hzero, hm, hsize, hway⟩
    exact ⟨hm, ⟨hsize, hzero⟩, hway⟩
  · rintro ⟨hm, ⟨hsize, hzero⟩, hway⟩
    exact ⟨text_path_ne_empty _, hzero, hm, hsize, hway⟩

/-- The path of a location leads nowhere as long as directories on the way are missing. -/
theorem locate_path_of_missing (hnames : ∀ other ∈ l ++ [name], IsName other)
    (hfits : ∀ other ∈ l ++ [name], other.utf8ByteSize ≤ maxNameBytes ∧ '\x00' ∉ other.toList)
    (hfree : ∀ k, k <+: l → d.at? k = none ∨ d.at? k = some .directory)
    (hmissing : ∃ k, k <+: l ∧ d.at? k = none) :
    d.locate (Location.path (l ++ [name])) followLast = .error .notFound := by
  have hzero := (contains_zero_path (l ++ [name])).mpr fun other hother => (hfits other hother).2
  have hwalk (links : Bool) :
      d.walk links 40 [] (Location.path (l ++ [name])).components = .error .notFound := by
    rw [Location.path, Path.components_ofNames hnames]
    obtain ⟨k, hk, hnone⟩ := hmissing
    have hne : k ≠ [] := by
      rintro rfl
      cases hnone
    exact walkFrom_names_of_missing (fun other hother => (hfits other hother).1)
      (fun k hk _ => hfree k hk) ⟨k, hk, hne, hnone⟩
  rw [locate, if_neg (text_path_ne_empty _), hzero, hwalk]
  rfl

end Path

/-! ## Directories on the way -/

/-- A location to which there are directories, or where nothing but directories is missing. -/
structure Way (d : Disk) (l : Location) : Prop where
  fits : ∀ name ∈ l, name.utf8ByteSize ≤ maxNameBytes ∧ '\x00' ∉ name.toList
  free : ∀ k, k <+: l → d.at? k = none ∨ d.at? k = some .directory
  deep : ∀ k k', k <+: k' → k' <+: l → d.at? k = none → d.at? k' = none

/-- A disk on which the directories down to a location have been created. -/
structure Opened (l : Location) (d d' : Disk) : Prop where
  frame : Frame (fun _ => False) d d'
  beside : ∀ k, ¬ k <+: l → d'.at? k = d.at? k
  directory : ∀ k, k <+: l → d'.at? k = some .directory

section Way

variable {d d' : Disk} {l : Location} {name : String}

theorem Way.linkFree (h : Way d l) : LinkFree d [] l := by
  intro k _ hk target hat
  rcases h.free k hk with hnone | hdirectory
  · rw [hnone] at hat
    cases hat
  · rw [hdirectory] at hat
    cases hat

theorem Way.above (h : Way d (l ++ [name])) : Way d l where
  fits := fun other hother => h.fits other (List.mem_append_left _ hother)
  free := fun k hk => h.free k (hk.trans (List.prefix_append l [name]))
  deep := fun k k' hk hk' => h.deep k k' hk (hk'.trans (List.prefix_append l [name]))

theorem way_root (d : Disk) : Way d [] where
  fits := nofun
  free := fun k hk => Or.inr (by rw [List.prefix_nil.mp hk]; rfl)
  deep := by
    intro k k' hk hk' hnone
    rw [List.prefix_nil.mp hk'] at hk
    rw [List.prefix_nil.mp hk] at hnone
    cases hnone

theorem opened_self (hdirectory : ∀ k, k <+: l → d.at? k = some .directory) : Opened l d d :=
  ⟨.refl d, fun _ _ => rfl, hdirectory⟩

/-- A directory is created in one that is there. -/
theorem Opened.put (h : Opened l d d') (hnone : d'.at? (l ++ [name]) = none) :
    Opened (l ++ [name]) d (d'.put (l ++ [name]) .directory) where
  frame := h.frame.trans (Frame.put_directory hnone)
  beside := by
    intro k hk
    have hne : k ≠ l ++ [name] := fun heq => hk (heq ▸ List.prefix_refl _)
    rw [at?_put_of_ne _ _ hne]
    exact h.beside k fun hl => hk (hl.trans (List.prefix_append l [name]))
  directory := by
    intro k hk
    rcases List.prefix_concat_iff.mp hk with rfl | hk
    · exact at?_put_self _ _ _ (by simp)
    · have hne : k ≠ l ++ [name] := by
        rintro rfl
        exact absurd hk.length_le (by simp)
      rw [at?_put_of_ne _ _ hne]
      exact h.directory k hk

theorem makeDirectory_of_error {p : Path} {e : SystemError} (hl : d.locate p false = .error e) :
    d.makeDirectory p = .error e := by
  rw [makeDirectory, hl]
  rfl

theorem makeDirectory_of_none {p : Path} (hl : d.locate p false = .ok l) (hnone : d.at? l = none) :
    d.makeDirectory p = .ok (d.put l .directory) := by
  rw [makeDirectory, hl]
  simp only [bind, Except.bind, hnone]
  rfl

theorem makeDirectory_of_directory {p : Path} (hl : d.locate p false = .ok l)
    (hdirectory : d.at? l = some .directory) : d.makeDirectory p = .error .alreadyExists := by
  rw [makeDirectory, hl]
  simp only [bind, Except.bind, hdirectory]

/-- Where something is missing on the way, directories are created from the top down. -/
theorem makeDirectories_of_way (h : Way d l) (hnames : ∀ name ∈ l, IsName name) :
    ∃ d', d.makeDirectories l.path = .ok d' ∧ Opened l d d' := by
  have hgo : ∀ n, l.length ≤ n → ∃ d', makeDirectories.go d n l.path = .ok d' ∧ Opened l d d' := by
    induction l using List.reverseRecOn with
    | nil =>
      intro n _
      refine ⟨d, ?_, opened_self fun k hk => by rw [List.prefix_nil.mp hk]; rfl⟩
      unfold makeDirectories.go
      rw [if_neg (text_path_ne_empty [])]
      rfl
    | append_singleton l name ih =>
      intro n hn
      have hhere : IsName name :=
        hnames name (List.mem_append_right _ (List.mem_singleton_self name))
      have habove : ∀ other ∈ l, IsName other := fun other hother =>
        hnames other (List.mem_append_left _ hother)
      have hlocate (hway : ∀ k, k <+: l → d.at? k = some .directory) {followLast : Bool} :
          d.locate (Location.path (l ++ [name])) followLast = .ok (l ++ [name]) :=
        (locate_path_eq_ok_iff hnames h.linkFree).mpr ⟨rfl, h.fits, hway⟩
      unfold makeDirectories.go
      rw [if_neg (text_path_ne_empty _)]
      by_cases hmissing : ∃ k, k <+: l ∧ d.at? k = none
      · rw [makeDirectory_of_error (locate_path_of_missing hnames h.fits h.above.free hmissing),
          Path.parent?_path habove hhere]
        obtain ⟨n, rfl⟩ : ∃ m, n = m + 1 := Nat.exists_eq_succ_of_ne_zero (by
          rintro rfl
          simp at hn)
        obtain ⟨d₁, hd₁, hopened⟩ := ih h.above habove n (by simpa using hn)
        have hnone : d₁.at? (l ++ [name]) = none := by
          obtain ⟨k, hk, hnone⟩ := hmissing
          rw [hopened.beside _ fun hl => absurd hl.length_le (by simp)]
          exact h.deep k _ (hk.trans (List.prefix_append l [name])) (List.prefix_refl _) hnone
        have hlocate₁ : d₁.locate (Location.path (l ++ [name])) false = .ok (l ++ [name]) := by
          refine (locate_path_eq_ok_iff hnames fun m hbase hm target hat => ?_).mpr
            ⟨rfl, h.fits, hopened.directory⟩
          exact h.linkFree m hbase hm target (hopened.frame.link m target hat)
        simp only [hd₁]
        exact ⟨_, makeDirectory_of_none hlocate₁ hnone, hopened.put hnone⟩
      · have hway : ∀ k, k <+: l → d.at? k = some .directory := fun k hk =>
          (h.above.free k hk).resolve_left fun hnone => hmissing ⟨k, hk, hnone⟩
        rcases h.free _ (List.prefix_refl (l ++ [name])) with hnone | hdirectory
        · rw [makeDirectory_of_none (hlocate hway) hnone]
          exact ⟨_, rfl, (opened_self hway).put hnone⟩
        · have hthere : d.isDirectory (Location.path (l ++ [name])) = true := by
            rw [isDirectory, stat_eq_ok_iff.mpr ⟨_, hlocate hway, hdirectory⟩]
            rfl
          rw [makeDirectory_of_directory (hlocate hway) hdirectory]
          simp only [hthere, if_true]
          refine ⟨d, rfl, opened_self fun k hk => ?_⟩
          rcases List.prefix_concat_iff.mp hk with rfl | hk
          · exact hdirectory
          · exact hway k hk
  refine hgo _ ?_
  rw [Location.path, Path.components_ofNames hnames]
  simp

/-- Directories can be created only where nothing but directories is on the way. -/
theorem way_of_makeDirectories (hnames : ∀ name ∈ l, IsName name) (hfree : LinkFree d [] l)
    (h : d.makeDirectories l.path = .ok d') : Way d l := by
  have hgo : ∀ n d', makeDirectories.go d n l.path = .ok d' → Way d l := by
    clear h
    induction l using List.reverseRecOn with
    | nil => exact fun _ _ _ => way_root d
    | append_singleton l name ih =>
      intro n d' h
      have hhere : IsName name :=
        hnames name (List.mem_append_right _ (List.mem_singleton_self name))
      have habove : ∀ other ∈ l, IsName other := fun other hother =>
        hnames other (List.mem_append_left _ hother)
      have hfree' : LinkFree d [] l := fun m hbase hm =>
        hfree m hbase (hm.trans (List.prefix_append l [name]))
      -- the way is there if the directory above can be created and nothing else is in its place
      have hway (hl : Way d l) (hfits : ∀ other ∈ l ++ [name],
          other.utf8ByteSize ≤ maxNameBytes ∧ '\x00' ∉ other.toList)
          (hat : d.at? (l ++ [name]) = none ∨
            d.at? (l ++ [name]) = some .directory ∧ ∀ k, k <+: l → d.at? k = some .directory) :
          Way d (l ++ [name]) := by
        refine ⟨hfits, fun k hk => ?_, fun k k' hk hk' hnone => ?_⟩
        · rcases List.prefix_concat_iff.mp hk with rfl | hk
          · exact hat.imp_right And.left
          · exact hl.free k hk
        · rcases List.prefix_concat_iff.mp hk' with rfl | hk'
          · rcases hat with hat | ⟨hdirectory, hall⟩
            · exact hat
            · rcases List.prefix_concat_iff.mp hk with rfl | hk
              · exact hnone
              · rw [hall k hk] at hnone
                cases hnone
          · exact hl.deep k k' hk hk' hnone
      have hthrough (hall : ∀ k, k <+: l → d.at? k = some .directory)
          (hfits : ∀ other ∈ l ++ [name],
            other.utf8ByteSize ≤ maxNameBytes ∧ '\x00' ∉ other.toList) : Way d l := by
        refine ⟨fun other hother => hfits other (List.mem_append_left _ hother),
          fun k hk => Or.inr (hall k hk), fun k k' hk hk' hnone => ?_⟩
        rw [hall k (hk.trans hk')] at hnone
        cases hnone
      unfold makeDirectories.go at h
      rw [if_neg (text_path_ne_empty _)] at h
      split at h
      · rename_i hd
        obtain ⟨m, hl, hnone, -⟩ := makeDirectory_eq_ok hd
        obtain ⟨rfl, hfits, hall⟩ := (locate_path_eq_ok_iff hnames hfree).mp hl
        exact hway (hthrough hall hfits) hfits (Or.inl hnone)
      · rw [Path.parent?_path habove hhere] at h
        split at h
        · rename_i heq
          cases heq
          split at h
          · rename_i d₁ hd₁
            have hl := ih habove hfree' _ _ hd₁
            have hframe : Frame (fun _ => False) d d₁ := frame_makeDirectories_go hd₁
            obtain ⟨m, hm, hnone, -⟩ := makeDirectory_eq_ok h
            obtain ⟨rfl, hfits, -⟩ := (locate_path_eq_ok_iff hnames fun k hbase hk target hat =>
              hfree k hbase hk target (hframe.link k target hat)).mp hm
            refine hway hl hfits (Or.inl ?_)
            rcases hframe.same (l ++ [name]) id with hsame | ⟨hnone', -⟩
            · exact hsame.symm.trans hnone
            · exact hnone'
          · cases h
        · cases h
      · split at h
        · rename_i hthere
          rw [isDirectory] at hthere
          cases hstat : d.stat (Location.path (l ++ [name])) with
          | error e =>
            rw [hstat] at hthere
            cases hthere
          | ok e =>
            obtain ⟨m, hm, hat⟩ := stat_eq_ok_iff.mp hstat
            obtain ⟨rfl, hfits, hall⟩ := (locate_path_eq_ok_iff hnames hfree).mp hm
            rw [hstat] at hthere
            cases e with
            | directory => exact hway (hthrough hall hfits) hfits (Or.inr ⟨hat, hall⟩)
            | file content mode modified => cases hthere
            | link target => cases hthere
        · cases h
  exact hgo _ _ h

end Way

end Disk

/-! ## Writing at a place -/

namespace Disk

/-- A location where a file can be written: nothing but directories is on the way, the missing ones
can be created, and no directory is in its place. -/
structure Writable (d : Disk) (l : Location) : Prop where
  fits : ∀ name ∈ l, name.utf8ByteSize ≤ maxNameBytes ∧ '\x00' ∉ name.toList
  way : Way d l.dropLast
  notDirectory : d.at? l ≠ some .directory

/-- Only what is on the way and in its place matters. -/
theorem Writable.congr {d d' : Disk} {l : Location} (h : Writable d l)
    (hsame : ∀ k, k <+: l → d'.at? k = d.at? k) : Writable d' l where
  fits := h.fits
  way := by
    have hsame' (k : Location) (hk : k <+: l.dropLast) : d'.at? k = d.at? k :=
      hsame k (hk.trans (List.dropLast_prefix l))
    refine ⟨h.way.fits, fun k hk => ?_, fun k k' hk hk' hnone => ?_⟩
    · rw [hsame' k hk]
      exact h.way.free k hk
    · rw [hsame' k (hk.trans hk')] at hnone
      rw [hsame' k' hk']
      exact h.way.deep k k' hk hk' hnone
  notDirectory := by
    rw [hsame l (List.prefix_refl l)]
    exact h.notDirectory

/-- A disk on which at most one location and directories on the way to it have changed. -/
structure ChangedAt (l : Location) (d d' : Disk) : Prop where
  frame : Frame (· = l) d d'
  beside : ∀ k, ¬ k <+: l → d'.at? k = d.at? k

theorem ChangedAt.refl (l : Location) (d : Disk) : ChangedAt l d d := ⟨.refl d, fun _ _ => rfl⟩

theorem Opened.changedAt {d d' : Disk} {l : Location} {name : String} (h : Opened l d d') :
    ChangedAt (l ++ [name]) d d' where
  frame := h.frame.mono fun _ => False.elim
  beside := fun k hk => h.beside k fun hl => hk (hl.trans (List.prefix_append l [name]))

theorem ChangedAt.put {d d' : Disk} {l : Location} (h : ChangedAt l d d') (hne : l ≠ [])
    (hdirectory : d'.at? l ≠ some .directory) (content : ByteArray) (mode modified : Nat) :
    ChangedAt l d (d'.put l (.file content mode modified)) where
  frame := h.frame.trans (Frame.put_file hne hdirectory content mode modified)
  beside := by
    intro k hk
    have hother : k ≠ l := by
      rintro rfl
      exact hk (List.prefix_refl k)
    rw [at?_put_of_ne _ _ hother]
    exact h.beside k hk

end Disk

namespace World

open Disk (ChangedAt Frame LinkFree Opened Writable Way)
open Path (IsName)

variable {w : World} {l : Location} {content : ByteArray}

/-- Where the system refuses nothing, directories are created as far as there is a way. -/
theorem ends_makeDirectories_at (htrouble : w.trouble = []) (hnames : ∀ name ∈ l, IsName name)
    (hfree : LinkFree w.disk [] l) : (makeDirectories l.path).Ends w fun r w' =>
      match r with
      | .ok _ => Way w.disk l ∧ ∃ d, Opened l w.disk d ∧ w' = { w with disk := d }
      | .error _ => ¬ Way w.disk l ∧ w' = w := by
  have hmake : (if l.path.text = "" then Except.ok w.disk
      else w.disk.makeDirectories (w.absolute l.path)) = w.disk.makeDirectories l.path := by
    rw [if_neg (Disk.text_path_ne_empty l), absolute_path]
  refine ends_diskOperation_of_quiet htrouble (fun d hd => ?_) fun e he => ⟨fun hway => ?_, rfl⟩
  · rw [hmake] at hd
    have hway := Disk.way_of_makeDirectories hnames hfree hd
    obtain ⟨d', hd', hopened⟩ := Disk.makeDirectories_of_way hway hnames
    rw [hd] at hd'
    cases hd'
    exact ⟨hway, d, hopened, rfl⟩
  · obtain ⟨d, hd, -⟩ := Disk.makeDirectories_of_way hway hnames
    rw [hmake, hd] at he
    cases he

/-- A file is moved to its place in a directory that is there, unless a directory is in its place or
its name cannot be. -/
theorem replace_at {d : Disk} {front : Location} {last : String}
    (hnames : ∀ name ∈ front ++ [last], IsName name) (hfree : LinkFree d [] (front ++ [last]))
    (hfront : ∀ k, k <+: front → d.at? k = some .directory) (content : ByteArray)
    (mode now : Nat) :
    match d.replace (Location.path (front ++ [last])) content mode now with
    | .ok d' => (∀ name ∈ front ++ [last], name.utf8ByteSize ≤ Disk.maxNameBytes ∧
        '\x00' ∉ name.toList) ∧ d.at? (front ++ [last]) ≠ some .directory ∧
        d' = d.put (front ++ [last]) (.file content mode now) ∧
        d'.read (Location.path (front ++ [last])) = .ok content
    | .error _ => ¬ ((∀ name ∈ front ++ [last], name.utf8ByteSize ≤ Disk.maxNameBytes ∧
        '\x00' ∉ name.toList) ∧ d.at? (front ++ [last]) ≠ some .directory) := by
  split
  · rename_i hd
    obtain ⟨m, hm, hdirectory, rfl⟩ := Disk.replace_eq_ok hd
    obtain ⟨rfl, hfits, -⟩ := (Disk.locate_path_eq_ok_iff hnames hfree).mp hm
    have hne : front ++ [last] ≠ [] := by simp
    have hframe := Frame.put_file hne hdirectory content mode now
    refine ⟨hfits, hdirectory, rfl, Disk.read_eq_ok_iff.mpr ⟨front ++ [last], mode, now,
      (Disk.locate_path_eq_ok_iff hnames fun m hbase hm target hat => ?_).mpr
        ⟨rfl, hfits, fun k hk => hframe.directory k (hfront k hk)⟩, Disk.at?_put_self _ _ _ hne⟩⟩
    exact hfree m hbase hm target (hframe.link m target hat)
  · rename_i he
    rintro ⟨hfits, hdirectory⟩
    have hlast : IsName last := hnames last (List.mem_append_right _ (List.mem_singleton_self last))
    have hlocate : d.locate (Location.path (front ++ [last])) false = .ok (front ++ [last]) :=
      (Disk.locate_path_eq_ok_iff hnames hfree).mpr ⟨rfl, hfits, hfront⟩
    rw [Path.path_concat (fun name hname => hnames name (List.mem_append_left _ hname)) hlast]
      at hlocate he
    rw [Disk.replace_of_name hlast hlocate hdirectory] at he
    cases he

/-- Where the system refuses nothing, a file is written if it can be.  Otherwise nothing changes
but that directories on the way may have been created. -/
theorem ends_writeFile_at (htrouble : w.trouble = []) (hnames : ∀ name ∈ l, IsName name)
    (hfree : LinkFree w.disk [] l) : (writeFile l.path content).Ends w fun r w' =>
      ∃ d, w' = { w with disk := d } ∧ ChangedAt l w.disk d ∧
        match r with
        | .ok _ => Writable w.disk l ∧ d.read l.path = .ok content
        | .error _ => ¬ Writable w.disk l := by
  rcases List.eq_nil_or_concat l with rfl | ⟨front, last, heq⟩
  · exact Act.ends_throw ⟨w.disk, rfl, .refl [] w.disk, fun h => h.notDirectory rfl⟩
  rw [List.concat_eq_append] at heq
  subst heq
  have hlast : IsName last := hnames last (List.mem_append_right _ (List.mem_singleton_self last))
  have hfront : ∀ name ∈ front, IsName name := fun name hname =>
    hnames name (List.mem_append_left _ hname)
  have hne : front ++ [last] ≠ [] := by simp
  rw [writeFile, Path.parent?_path hfront hlast]
  dsimp only
  rw [if_neg (Disk.text_path_ne_empty front)]
  refine (ends_makeDirectories_at htrouble hfront fun m hbase hm =>
    hfree m hbase (hm.trans (List.prefix_append front [last]))).mapError.bind ?_ ?_
  · rintro _ _ ⟨hway, d, hopened, rfl⟩
    have hsame : d.at? (front ++ [last]) = w.disk.at? (front ++ [last]) :=
      hopened.beside _ fun hprefix => absurd hprefix.length_le (by simp)
    have hnothing : (operation fun w => .ok ((), w)).Yields { w with disk := d } fun _ w' =>
        w' = { w with disk := d } := yields_operation htrouble rfl rfl
    refine hnothing.mapError.bind_ends ?_
    rintro _ _ rfl
    have hfree' : LinkFree d [] (front ++ [last]) := fun m hbase hm target hat =>
      hfree m hbase hm target (hopened.frame.link m target hat)
    have hreplace := replace_at hnames hfree' hopened.directory content
      ({ w with disk := d }.keptMode (Location.path (front ++ [last]))) w.now
    have hmoved : (diskOperation fun w => w.disk.replace
        (w.absolute (Location.path (front ++ [last]))) content
        (w.keptMode (Location.path (front ++ [last]))) w.now).Ends { w with disk := d } fun r w' =>
      ∃ d', w' = { w with disk := d' } ∧ ChangedAt (front ++ [last]) w.disk d' ∧
        match r with
        | .ok _ => Writable w.disk (front ++ [last]) ∧
            d'.read (Location.path (front ++ [last])) = .ok content
        | .error _ => ¬ Writable w.disk (front ++ [last]) := by
      refine ends_diskOperation_of_quiet htrouble (fun d' hd' => ?_) fun e he => ?_
      · rw [absolute_path] at hd'
        rw [hd'] at hreplace
        obtain ⟨hfits, hdirectory, rfl, hread⟩ := hreplace
        exact ⟨_, rfl, hopened.changedAt.put hne hdirectory _ _ _,
          ⟨hfits, by rwa [List.dropLast_concat], hsame ▸ hdirectory⟩, hread⟩
      · rw [absolute_path] at he
        rw [he] at hreplace
        exact ⟨d, rfl, hopened.changedAt, fun h => hreplace ⟨h.fits, hsame ▸ h.notDirectory⟩⟩
    refine (Act.Ends.mapError hmoved).mono ?_
    rintro (e | _) w' hw'
    · obtain ⟨_, -, hw'⟩ := hw'
      exact hw'
    · exact hw'
  · rintro _ _ ⟨_, -, hnoway, rfl⟩
    refine ⟨_, rfl, .refl _ _, fun h => hnoway ?_⟩
    have hway := h.way
    rwa [List.dropLast_concat] at hway

end World

end Amend
