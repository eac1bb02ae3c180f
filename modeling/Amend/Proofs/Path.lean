import Amend.Path
import Amend.Proofs.Text.Split

/-!
# Names below a directory

A name that is joined to the path of a directory becomes one more component of that path, whatever
the path looks like, and the components of a path with nothing but names are these names.
-/

namespace Amend.Path

/-- A text that is one component of a path and leads down from a directory. -/
structure IsName (name : String) : Prop where
  ne_empty : name ≠ ""
  ne_current : name ≠ "."
  ne_parent : name ≠ ".."
  noSlash : '/' ∉ name.toList

theorem IsName.ofName? {name : String} (h : IsName name) :
    Component.ofName? name = some (.normal name) := by
  rw [Component.ofName?, if_neg (not_or.mpr ⟨h.ne_empty, h.ne_current⟩), if_neg h.ne_parent]

theorem isName_of_ofName? {name part : String} (hslash : '/' ∉ part.toList)
    (h : Component.ofName? part = some (.normal name)) : IsName name := by
  rw [Component.ofName?] at h
  split at h
  · cases h
  · rename_i hplain
    obtain ⟨hempty, hcurrent⟩ := not_or.mp hplain
    split at h
    · cases h
    · rename_i hparent
      obtain rfl : part = name := by simpa using h
      exact ⟨hempty, hcurrent, hparent, hslash⟩

/-- A text of more than two characters is a name as soon as it has no slash. -/
theorem isName_of_two_lt {name : String} (hlength : 2 < name.toList.length)
    (hslash : '/' ∉ name.toList) : IsName name := by
  refine ⟨?_, ?_, ?_, hslash⟩
  all_goals
    rintro rfl
    exact absurd hlength (by decide)

/-! ## Splitting -/

theorem noSlash_of_mem_split {text part : String} (h : part ∈ Text.split (· == '/') text) :
    '/' ∉ part.toList := by
  have hchars : ∀ cs : List Char, ∀ ds ∈ Text.splitChars (· == '/') cs, '/' ∉ ds := by
    intro cs
    induction cs with
    | nil => simp [Text.splitChars]
    | cons c cs ih =>
      intro ds hds
      rw [Text.splitChars] at hds
      split at hds
      · simp at hds
        simp [hds]
      · rename_i first rest heq
        rw [heq] at ih
        split at hds
        · rcases List.mem_cons.mp hds with rfl | hds
          · simp
          · exact ih ds hds
        · rename_i hc
          rcases List.mem_cons.mp hds with rfl | hds
          · have hfirst := ih first List.mem_cons_self
            simp at hc
            simp [hfirst, Ne.symm hc]
          · exact ih ds (List.mem_cons_of_mem first hds)
  obtain ⟨ds, hds, rfl⟩ := List.mem_map.mp h
  rw [String.toList_ofList]
  exact hchars text.toList ds hds

/-- Every name among the components of a path is one name. -/
theorem isName_of_mem_components {p : Path} {name : String}
    (h : .normal name ∈ p.components) : IsName name := by
  rw [components] at h
  rcases List.mem_append.mp h with h | h
  · split at h
    · simp at h
    · split at h <;> simp at h
  · obtain ⟨part, hpart, hname⟩ := List.mem_filterMap.mp h
    exact isName_of_ofName? (noSlash_of_mem_split hpart) hname

theorem split_append_slash (a b : String) :
    Text.split (· == '/') (a ++ "/" ++ b) =
      Text.split (· == '/') a ++ Text.split (· == '/') b := by
  have hslash := @Text.splitChars_append (· == '/') '/' rfl
  rw [Text.split, String.toList_append, String.toList_append, List.append_assoc]
  change (Text.splitChars (· == '/') (a.toList ++ '/' :: b.toList)).map String.ofList = _
  rw [hslash, List.map_append]
  rfl

theorem split_name {name : String} (h : '/' ∉ name.toList) :
    Text.split (· == '/') name = [name] := by
  have hnone : ∀ c ∈ name.toList, (c == '/') = false := fun c hc =>
    beq_false_of_ne fun heq => h (heq ▸ hc)
  rw [Text.split, Text.splitChars_of_forall hnone, List.map_singleton, String.ofList_toList]

/-! ## Joining a name -/

/-- What stands between a path and a relative one joined to it. -/
def glue (p : Path) : String :=
  if p.text = "" ∨ p.text.toList.getLast? = some '/' then "" else "/"

theorem join_of_absolute (p : Path) {q : Path} (h : q.isAbsolute = true) : p.join q = q := by
  rw [join, if_pos h]

theorem join_of_relative (p : Path) {q : Path} (h : q.isAbsolute = false) :
    p.join q = ⟨p.text ++ p.glue ++ q.text⟩ := by
  rw [join, h, glue]
  split
  · contradiction
  · split
    · rw [String.append_empty]
    · rfl

/-- The glue depends on the last character only. -/
theorem glue_append (front : String) {p : Path} (h : p.text ≠ "") :
    glue ⟨front ++ p.text⟩ = p.glue := by
  have hlast : (front ++ p.text).toList.getLast? = p.text.toList.getLast? := by
    rw [String.toList_append, List.getLast?_append]
    cases hcs : p.text.toList.getLast? with
    | none => exact absurd (String.toList_eq_nil_iff.mp (List.getLast?_eq_none_iff.mp hcs)) h
    | some c => rfl
  have hne : front ++ p.text ≠ "" := fun heq => h (String.append_eq_empty_iff.mp heq).2
  simp only [glue, hlast, h, hne, false_or]

theorem glue_glue (p : Path) : glue ⟨p.text ++ p.glue⟩ = "" := by
  by_cases h : p.text = "" ∨ p.text.toList.getLast? = some '/'
  · have hglue : p.glue = "" := if_pos h
    rw [hglue, String.append_empty]
    exact hglue
  · have hglue : p.glue = "/" := if_neg h
    rw [hglue, glue, String.toList_append, if_pos]
    right
    exact List.getLast?_concat

section Join

variable {name : String} (hname : IsName name) (p : Path)

include hname

theorem IsName.not_isAbsolute : (Path.mk name).isAbsolute = false := by
  rw [isAbsolute]
  cases hcs : name.toList with
  | nil => rfl
  | cons c cs =>
    have hc : c ≠ '/' := by
      rintro rfl
      exact hname.noSlash (by rw [hcs]; exact List.mem_cons_self)
    simpa using hc

theorem join_name : p.join ⟨name⟩ = ⟨p.text ++ p.glue ++ name⟩ :=
  join_of_relative p hname.not_isAbsolute

theorem text_join_ne : (p.join ⟨name⟩).text ≠ "" := by
  rw [join_name hname]
  exact fun heq => hname.ne_empty (String.append_eq_empty_iff.mp heq).2

/-- Names joined to one path are told apart. -/
theorem join_injective {other : String} (hother : IsName other)
    (h : p.join ⟨name⟩ = p.join ⟨other⟩) : name = other := by
  rw [join_name hname, join_name hother] at h
  exact (String.append_right_inj (p.text ++ p.glue)).mp (Path.mk.inj h)

theorem isAbsolute_join : (p.join ⟨name⟩).isAbsolute = p.isAbsolute := by
  rw [join_name hname, isAbsolute, isAbsolute, String.append_assoc, String.toList_append]
  cases hcs : p.text.toList with
  | nil =>
    have hempty : p.text = "" := String.toList_eq_nil_iff.mp hcs
    have hglue : p.glue = "" := if_pos (Or.inl hempty)
    rw [hglue, String.empty_append]
    exact hname.not_isAbsolute
  | cons c cs => rfl

/-- A joined name is the last component. -/
theorem components_join (hp : p.isAbsolute = true) :
    (p.join ⟨name⟩).components = p.components ++ [.normal name] := by
  have hlast : [name].filterMap Component.ofName? = [.normal name] := by
    rw [List.filterMap_cons_some hname.ofName?, List.filterMap_nil]
  have hparts : (Text.split (· == '/') (p.text ++ p.glue ++ name)).filterMap Component.ofName? =
      (Text.split (· == '/') p.text).filterMap Component.ofName? ++ [.normal name] := by
    rw [glue]
    split
    case isTrue h =>
      have hnonempty : p.text ≠ "" := by
        intro hempty
        rw [isAbsolute, hempty] at hp
        cases hp
      obtain ⟨cs, hcs⟩ := List.getLast?_eq_some_iff.mp (h.resolve_left hnonempty)
      have htext : p.text = .ofList cs ++ "/" := by
        rw [← String.toList_inj, hcs, String.toList_append, String.toList_ofList]
        rfl
      have hend : Text.split (· == '/') p.text = Text.split (· == '/') (.ofList cs) ++ [""] := by
        rw [htext, ← @String.append_empty (.ofList cs ++ "/"), split_append_slash]
        rfl
      rw [hend, htext, String.append_empty, split_append_slash, split_name hname.noSlash,
        List.filterMap_append, List.filterMap_append, hlast]
      simp [Component.ofName?]
    case isFalse h =>
      rw [split_append_slash, split_name hname.noSlash, List.filterMap_append, hlast]
  rw [components, components, isAbsolute_join hname, hp, join_name hname, hparts]
  rfl

/-- A name can be joined before or after the path is completed. -/
theorem join_join (q : Path) : q.join (p.join ⟨name⟩) = (q.join p).join ⟨name⟩ := by
  have hjoined := isAbsolute_join hname p
  by_cases hp : p.isAbsolute = true
  · rw [join_of_absolute q (hjoined.trans hp), join_of_absolute q hp]
  · have hp := Bool.eq_false_iff.mpr hp
    rw [join_of_relative q (hjoined.trans hp), join_of_relative q hp, join_name hname,
      join_name hname]
    by_cases hempty : p.text = ""
    · have hglue : p.glue = "" := if_pos (Or.inl hempty)
      simp only [hempty, hglue, String.append_empty, String.empty_append, glue_glue]
    · rw [glue_append (q.text ++ q.glue) hempty]
      simp only [String.append_assoc]

end Join

/-! ## The directory of a name -/

/-- An absolute path with nothing to drop at its end. -/
structure IsTidy (p : Path) : Prop where
  absolute : p.isAbsolute = true
  noSlash : p.text.toList.getLast? ≠ some '/'
  tail : dropTail p.text.toList.reverse = p.text.toList.reverse

theorem IsName.dropTail {name : String} (h : IsName name) (rest : List Char) :
    Path.dropTail (name.toList.reverse ++ '/' :: rest) = name.toList.reverse ++ '/' :: rest := by
  have hslash : '/' ∉ name.toList.reverse := fun hmem => h.noSlash (List.mem_reverse.mp hmem)
  cases hcs : name.toList.reverse with
  | nil => exact absurd (String.toList_eq_nil_iff.mp (List.reverse_eq_nil_iff.mp hcs)) h.ne_empty
  | cons c cs =>
    rw [hcs] at hslash
    have hc : c ≠ '/' := fun heq => hslash (heq ▸ List.mem_cons_self)
    cases cs with
    | nil =>
      have hpoint : c ≠ '.' := by
        rintro rfl
        refine h.ne_current (String.toList_inj.mp ?_)
        rw [← List.reverse_reverse name.toList, hcs]
        rfl
      unfold Path.dropTail
      split
      · exact absurd (List.cons.inj ‹_›).1 hc
      · exact absurd (List.cons.inj ‹_›).1 hpoint
      · rfl
    | cons c' cs =>
      have hc' : c' ≠ '/' := fun heq => hslash (heq ▸ List.mem_cons_of_mem c List.mem_cons_self)
      unfold Path.dropTail
      split
      · exact absurd (List.cons.inj ‹_›).1 hc
      · exact absurd (List.cons.inj (List.cons.inj ‹_›).2).1 hc'
      · rfl

/-- The directory of a joined name is the path it was joined to. -/
theorem IsTidy.parent?_join {p : Path} (h : p.IsTidy) {name : String} (hname : IsName name) :
    (p.join ⟨name⟩).parent? = some p := by
  have hnonempty : p.text ≠ "" := by
    intro hempty
    have habsolute := h.absolute
    rw [isAbsolute, hempty] at habsolute
    cases habsolute
  have hglue : p.glue = "/" := if_neg (not_or.mpr ⟨hnonempty, h.noSlash⟩)
  have hlast : (p.join ⟨name⟩).components.getLast? = some (.normal name) := by
    rw [components_join hname p h.absolute, List.getLast?_concat]
  have hreverse : (p.join ⟨name⟩).text.toList.reverse =
      name.toList.reverse ++ '/' :: p.text.toList.reverse := by
    rw [join_name hname, hglue, String.toList_append, String.toList_append, List.reverse_append,
      List.reverse_append]
    rfl
  have hbefore : (name.toList.reverse ++ '/' :: p.text.toList.reverse).dropWhile (· != '/') =
      '/' :: p.text.toList.reverse := by
    rw [List.dropWhile_append_of_pos fun c hc => ?_]
    · rfl
    · have hne : c ≠ '/' := fun heq => hname.noSlash (heq ▸ List.mem_reverse.mp hc)
      simpa using hne
  have hroot : Path.dropTail ('/' :: p.text.toList.reverse) = p.text.toList.reverse := by
    cases hcs : p.text.toList.reverse with
    | nil => exact absurd (String.toList_eq_nil_iff.mp (List.reverse_eq_nil_iff.mp hcs)) hnonempty
    | cons c cs =>
      rw [Path.dropTail, ← hcs]
      exact h.tail
  rw [parent?, hlast]
  simp only [hreverse, hname.dropTail, hbefore, hroot, List.reverse_reverse, String.ofList_toList]

/-! ## Paths of locations -/

theorem isAbsolute_ofNames (names : List String) : (ofNames true names).isAbsolute = true := by
  rw [isAbsolute, ofNames, String.toList_append]
  rfl

theorem split_ofNames (names : List String) :
    Text.split (· == '/') (ofNames true names).text =
      "" :: Text.split (· == '/') ("/".intercalate names) := by
  have hroot := split_append_slash "" ("/".intercalate names)
  rwa [String.empty_append] at hroot

/-- The path that writes names down from the root has just these components. -/
theorem components_ofNames {names : List String} (h : ∀ name ∈ names, IsName name) :
    (ofNames true names).components = .root :: names.map .normal := by
  have hparts : (Text.split (· == '/') ("/".intercalate names)).filterMap Component.ofName? =
      names.map .normal := by
    induction names with
    | nil => rfl
    | cons name names ih =>
      have hname := h name List.mem_cons_self
      have hrest := fun other hother => h other (List.mem_cons_of_mem name hother)
      cases names with
      | nil =>
        rw [String.intercalate_singleton, split_name hname.noSlash,
          List.filterMap_cons_some hname.ofName?]
        rfl
      | cons next names =>
        rw [String.intercalate_cons_cons, split_append_slash, split_name hname.noSlash,
          List.filterMap_append, ih hrest, List.filterMap_cons_some hname.ofName?]
        rfl
  rw [components, isAbsolute_ofNames, split_ofNames, List.filterMap_cons_none rfl, hparts]
  rfl

end Amend.Path
