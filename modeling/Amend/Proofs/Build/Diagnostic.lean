import Amend.Build.Process
import Amend.Proofs.Text.Front
import Amend.Validation.Verdict
import Mathlib.Data.List.TakeWhile

/-!
# How compiler messages are read

A line can be a message of the form `FILE.java:LINE: error: MESSAGE` in more than one way: the name
of the tool in brackets may be part of the file, and `.java:` may stand in it more than once.  The
reader settles the front first, with as many blanks as it can, and then takes the shortest file.
That is the shortest of all, unless it begins with the ending itself.
-/

namespace Amend.Build.Diagnostic

open Text (EndsVisibly isBlank)

/-! ## The parts of a message -/

/-- The word for a level in a message. -/
def levelWord (level : Level) : List Char := (level.name ++ ":").toList

/-- What follows the file in a message of the first form. -/
structure Remark where
  digits : List Char
  gap : List Char
  level : Level
  space : List Char
  message : List Char
  digits_ne : digits ≠ []
  isDigit : ∀ c ∈ digits, Text.isDecimalDigit c = true
  gap_blank : ∀ c ∈ gap, isBlank c = true
  space_blank : ∀ c ∈ space, isBlank c = true
  visible : ∃ c, message.head? = some c ∧ isBlank c = false

namespace Remark

/-- The text of a remark. -/
def text (m : Remark) : List Char :=
  ":".toList ++ (m.digits ++ (":".toList ++ (m.gap ++ (levelWord m.level ++
    (m.space ++ m.message)))))

/-- The message that a remark on a file is. -/
def diagnostic (m : Remark) (column : Nat) (file : String) : Diagnostic where
  file
  line := wordOrZero m.digits
  column
  message := .ofList m.message
  level := m.level

theorem message_ne (m : Remark) : m.message ≠ [] := by
  obtain ⟨c, hc, -⟩ := m.visible
  rintro heq
  rw [heq] at hc
  cases hc

end Remark

/-! ## Reading what follows the file -/

variable {cs rest digits : List Char} {column : Nat}

theorem after?_eq_some_iff {fixed : String} :
    after? fixed cs = some rest ↔ cs = fixed.toList ++ rest :=
  Text.afterChars?_eq_some_iff

theorem digits?_eq_some_iff : digits? cs = some (digits, rest) ↔ cs = digits ++ rest ∧ digits ≠ [] ∧
    (∀ c ∈ digits, Text.isDecimalDigit c = true) ∧
      ∀ c, rest.head? = some c → Text.isDecimalDigit c = false := by
  rw [digits?]
  constructor
  · intro h
    split at h
    · cases h
    · rename_i hne
      cases h
      refine ⟨List.takeWhile_append_dropWhile.symm, fun heq => hne (by rw [heq]; rfl), ?_,
        Text.head?_dropWhile_eq_false _ cs⟩
      exact List.all_eq_true.mp List.all_takeWhile
  · rintro ⟨rfl, hne, hdigits, hrest⟩
    have htake := Text.takeWhile_append_eq hdigits hrest
    have hdrop := Text.dropWhile_append_eq hdigits hrest
    rw [htake, hdrop, if_neg (by simpa using hne)]

theorem isDecimalDigit_colon : Text.isDecimalDigit ':' = false := by decide +kernel

theorem head?_levelWord (level : Level) :
    ∀ c, (levelWord level ++ rest).head? = some c → isBlank c = false := by
  cases level with
  | error =>
    rintro _ ⟨⟩
    decide
  | warning =>
    rintro _ ⟨⟩
    decide

theorem levelWord_append_inj {a b : Level} {x y : List Char}
    (h : levelWord a ++ x = levelWord b ++ y) : a = b ∧ x = y := by
  cases a <;> cases b
  · exact ⟨rfl, List.append_cancel_left h⟩
  · cases h
  · cases h
  · exact ⟨rfl, List.append_cancel_left h⟩

/-- The level that a text begins with and what follows its word. -/
def leveled? (cs : List Char) : Option (Level × List Char) :=
  match after? "error:" cs, after? "warning:" cs with
  | some message, _ => some (.error, message)
  | none, some message => some (.warning, message)
  | none, none => none

theorem leveled?_eq_some_iff {level : Level} :
    leveled? cs = some (level, rest) ↔ cs = levelWord level ++ rest := by
  have herror : after? "error:" cs = some rest ↔ cs = levelWord .error ++ rest :=
    after?_eq_some_iff
  have hwarning : after? "warning:" cs = some rest ↔ cs = levelWord .warning ++ rest :=
    after?_eq_some_iff
  rw [leveled?]
  cases hfirst : after? "error:" cs with
  | some message =>
    obtain rfl : cs = levelWord .error ++ message := after?_eq_some_iff.mp hfirst
    constructor
    · rintro ⟨⟩
      rfl
    · intro h
      obtain ⟨rfl, rfl⟩ := levelWord_append_inj h
      rfl
  | none =>
    cases hsecond : after? "warning:" cs with
    | some message =>
      obtain rfl : cs = levelWord .warning ++ message := after?_eq_some_iff.mp hsecond
      constructor
      · rintro ⟨⟩
        rfl
      · intro h
        obtain ⟨rfl, rfl⟩ := levelWord_append_inj h
        rfl
    | none =>
      rw [hfirst] at herror
      rw [hsecond] at hwarning
      cases level with
      | error => simpa using herror
      | warning => simpa using hwarning

theorem javacRest?_eq : javacRest? column cs = (after? ":" cs).bind fun behind =>
    (digits? behind).bind fun (digits, behind) => (after? ":" behind).bind fun behind =>
      (leveled? (behind.dropWhile isBlank)).bind fun (level, message) =>
        if message.isEmpty then none
        else some fun file =>
          { file, line := wordOrZero digits, column, message := trimmed message, level } := by
  rw [javacRest?]
  refine bind_congr fun behind => bind_congr fun (digits, behind) => bind_congr fun behind => ?_
  dsimp only
  rw [leveled?]
  cases after? "error:" (behind.dropWhile isBlank) with
  | some message => cases message <;> rfl
  | none =>
    cases after? "warning:" (behind.dropWhile isBlank) with
    | some message => cases message <;> rfl
    | none => rfl

/-- What is left of a text behind its blanks begins visibly. -/
theorem exists_head?_dropWhile (hend : EndsVisibly cs) (hne : cs ≠ []) :
    ∃ c, (cs.dropWhile isBlank).head? = some c ∧ isBlank c = false := by
  cases hrest : cs.dropWhile isBlank with
  | nil =>
    have hblank := List.dropWhile_eq_nil_iff.mp hrest _ (List.getLast_mem hne)
    rw [hend _ (List.getLast?_eq_some_getLast hne)] at hblank
    cases hblank
  | cons c rest => exact ⟨c, rfl, Text.head?_dropWhile_eq_false isBlank cs c (by rw [hrest]; rfl)⟩

theorem Remark.trimmed_eq (m : Remark) (hend : EndsVisibly m.message) :
    trimmed (m.space ++ m.message) = .ofList m.message := by
  have hvisible : ∀ c, m.message.head? = some c → isBlank c = false := by
    obtain ⟨c, hc, hblank⟩ := m.visible
    intro d hd
    rw [hc] at hd
    cases hd
    exact hblank
  have hend := Text.dropEndWhile_append_eq hend (List.forall_mem_nil _)
  rw [List.append_nil] at hend
  rw [trimmed, Text.dropWhile_append_eq m.space_blank hvisible, hend]

theorem javacRest?_text (m : Remark) (hend : EndsVisibly m.text) :
    javacRest? column m.text = some (m.diagnostic column) := by
  have hmessage : EndsVisibly m.message := by
    rw [Remark.text] at hend
    exact hend.of_append.of_append.of_append.of_append.of_append.of_append
  have hcolon : ∀ c,
      (":".toList ++ (m.gap ++ (levelWord m.level ++ (m.space ++ m.message)))).head? = some c →
        Text.isDecimalDigit c = false := by
    rintro _ ⟨⟩
    exact isDecimalDigit_colon
  have hdigits : digits? _ = some _ := digits?_eq_some_iff.mpr ⟨rfl, m.digits_ne, m.isDigit, hcolon⟩
  rw [javacRest?_eq, Remark.text, after?_eq_some_iff.mpr rfl, Option.bind_some, hdigits,
    Option.bind_some]
  dsimp only
  rw [after?_eq_some_iff.mpr rfl, Option.bind_some,
    Text.dropWhile_append_eq m.gap_blank (head?_levelWord m.level), leveled?_eq_some_iff.mpr rfl,
    Option.bind_some]
  dsimp only
  rw [if_neg (by simp [m.message_ne]), m.trimmed_eq hmessage]
  rfl

theorem exists_remark {make : String → Diagnostic} (hend : EndsVisibly cs)
    (h : javacRest? column cs = some make) :
    ∃ m : Remark, cs = m.text ∧ make = m.diagnostic column := by
  simp only [javacRest?_eq, Option.bind_eq_some_iff, after?_eq_some_iff, Prod.exists,
    digits?_eq_some_iff, leveled?_eq_some_iff] at h
  obtain ⟨_, rfl, digits, _, ⟨rfl, hne, hdigits, -⟩, behind, rfl, level, tail, hbehind, hmake⟩ := h
  split at hmake
  · cases hmake
  · rename_i htail
    have hend' : EndsVisibly tail := by
      have hsplit : behind = behind.takeWhile isBlank ++ (levelWord level ++ tail) := by
        rw [← hbehind, List.takeWhile_append_dropWhile]
      rw [hsplit] at hend
      exact hend.of_append.of_append.of_append.of_append.of_append
    let m : Remark := {
      digits, gap := behind.takeWhile isBlank, level, space := tail.takeWhile isBlank
      message := tail.dropWhile isBlank
      digits_ne := hne
      isDigit := hdigits
      gap_blank := List.all_eq_true.mp List.all_takeWhile
      space_blank := List.all_eq_true.mp List.all_takeWhile
      visible := exists_head?_dropWhile hend' (by simpa using htail) }
    have hmessage : m.space ++ m.message = tail := List.takeWhile_append_dropWhile
    refine ⟨m, ?_, ?_⟩
    · rw [Remark.text, hmessage, ← hbehind, List.takeWhile_append_dropWhile]
    · cases hmake
      rw [← hmessage, m.trimmed_eq (EndsVisibly.of_append (hmessage ▸ hend'))]
      rfl

/-! ## Reading a line -/

/-- The ending of a file that messages are about. -/
def ending : List Char := ".java".toList

/-- What stands in front of the file: nothing, or the name of the tool in brackets with blanks
behind it. -/
def IsFront (front : List Char) : Prop :=
  front = [] ∨ ∃ blanks, (∀ c ∈ blanks, isBlank c = true) ∧ front = "[javac]".toList ++ blanks

/-- A way to read a line as a message of the first form. -/
structure Reading (cs : List Char) where
  front : List Char
  /-- The file without its ending. -/
  stem : List Char
  remark : Remark
  isFront : IsFront front
  stem_ne : stem ≠ []
  text_eq : cs = front ++ (stem ++ (ending ++ remark.text))

namespace Reading

/-- The message that is read. -/
def diagnostic (r : Reading cs) (column : Nat) : Diagnostic :=
  r.remark.diagnostic column (String.ofList r.stem ++ ".java")

/-- The reading that counts: none has a longer front, and none with this front a shorter file. -/
def Leads (r : Reading cs) : Prop := ∀ other : Reading cs,
  other.front.length < r.front.length ∨
    other.front.length = r.front.length ∧ r.stem.length ≤ other.stem.length

end Reading

section File

variable {readRest : List Char → Option (String → Diagnostic)} {name : List Char} {d : Diagnostic}

/-- The message whose file ends in front of a text, if there is one. -/
def here? (readRest : List Char → Option (String → Diagnostic)) (name cs : List Char) :
    Option Diagnostic :=
  if name = [] then none
  else ((after? ".java" cs).bind readRest).map fun make => make (.ofList name.reverse ++ ".java")

theorem afterFile?_cons (c : Char) : afterFile? readRest name (c :: cs) =
    (here? readRest name (c :: cs)).or (afterFile? readRest (c :: name) cs) := by
  rw [afterFile?, here?]
  cases name with
  | nil => rfl
  | cons n name => cases (after? ".java" (c :: cs)).bind readRest <;> rfl

theorem here?_eq_some_iff : here? readRest name cs = some d ↔ name ≠ [] ∧ ∃ rest make,
    cs = ending ++ rest ∧ readRest rest = some make ∧
      d = make (.ofList name.reverse ++ ".java") := by
  rw [here?]
  split
  case isTrue hname => simp [hname]
  case isFalse hname =>
    simp only [Option.map_eq_some_iff, Option.bind_eq_some_iff, after?_eq_some_iff]
    constructor
    · rintro ⟨make, ⟨rest, hrest, hmake⟩, rfl⟩
      exact ⟨hname, rest, make, hrest, hmake, rfl⟩
    · rintro ⟨-, rest, make, hrest, hmake, rfl⟩
      exact ⟨make, ⟨rest, hrest, hmake⟩, rfl⟩

/-- Where a file may end: its stem and what follows the ending, if that can be read. -/
def EndsFile (readRest : List Char → Option (String → Diagnostic)) (name cs before rest : List Char)
    (make : String → Diagnostic) : Prop :=
  cs = before ++ (ending ++ rest) ∧ name.reverse ++ before ≠ [] ∧ readRest rest = some make

theorem endsFile_cons_iff {c : Char} {before : List Char} {make : String → Diagnostic} :
    EndsFile readRest name (c :: cs) (c :: before) rest make ↔
      EndsFile readRest (c :: name) cs before rest make := by
  simp [EndsFile]

theorem here?_of_endsFile {make : String → Diagnostic}
    (h : EndsFile readRest name cs [] rest make) :
    here? readRest name cs = some (make (.ofList name.reverse ++ ".java")) := by
  obtain ⟨rfl, hname, hread⟩ := h
  refine here?_eq_some_iff.mpr ⟨fun heq => hname ?_, rest, make, rfl, hread, rfl⟩
  rw [heq]
  rfl

/-- The file that is found is the shortest one behind which the rest can be read. -/
theorem endsFile_of_afterFile? (h : afterFile? readRest name cs = some d) :
    ∃ before rest make, EndsFile readRest name cs before rest make ∧
      d = make (.ofList (name.reverse ++ before) ++ ".java") ∧
      ∀ other rest' make', EndsFile readRest name cs other rest' make' →
        before.length ≤ other.length := by
  induction cs generalizing name with
  | nil => cases h
  | cons c cs ih =>
    rw [afterFile?_cons] at h
    cases hhere : here? readRest name (c :: cs) with
    | some found =>
      rw [hhere] at h
      cases h
      obtain ⟨hname, rest, make, hcs, hread, rfl⟩ := here?_eq_some_iff.mp hhere
      refine ⟨[], rest, make, ⟨hcs, by simpa using hname, hread⟩, ?_, fun _ _ _ _ => Nat.zero_le _⟩
      rw [List.append_nil]
    | none =>
      rw [hhere] at h
      obtain ⟨before, rest, make, hends, hd, hleast⟩ := ih h
      refine ⟨c :: before, rest, make, endsFile_cons_iff.mpr hends, ?_, ?_⟩
      · rw [hd, List.reverse_cons, List.append_assoc]
        rfl
      · intro other rest' make' hother
        cases other with
        | nil =>
          rw [here?_of_endsFile hother] at hhere
          cases hhere
        | cons o other =>
          obtain ⟨heq, -⟩ := List.cons.inj hother.1
          subst heq
          exact Nat.succ_le_succ (hleast other rest' make' (endsFile_cons_iff.mp hother))

/-- A file is found if there is one. -/
theorem isSome_afterFile? {before : List Char} {make : String → Diagnostic}
    (h : EndsFile readRest name cs before rest make) :
    (afterFile? readRest name cs).isSome = true := by
  induction cs generalizing name before with
  | nil =>
    have hlength := congrArg List.length h.1
    simp [ending] at hlength
  | cons c cs ih =>
    rw [afterFile?_cons, Option.isSome_or, Bool.or_eq_true]
    cases before with
    | nil => exact Or.inl (by rw [here?_of_endsFile h]; rfl)
    | cons b before =>
      obtain ⟨heq, -⟩ := List.cons.inj h.1
      subst heq
      exact Or.inr (ih (endsFile_cons_iff.mp h))

end File

/-! ### The front -/

/-- The places of a line where the file may begin, those behind the longest fronts first. -/
def starts (cs : List Char) : List (List Char) :=
  match after? "[javac]" cs with
  | none => [cs]
  | some rest => afterBlanks 0 rest ++ [cs]

theorem ofJavacLine?_eq :
    ofJavacLine? column cs = (starts cs).findSome? (afterFile? (javacRest? column) []) := rfl

theorem afterBlanks_zero : afterBlanks 0 cs =
    (List.range ((cs.takeWhile isBlank).length + 1)).reverse.map cs.drop := by
  have hall : (List.range ((cs.takeWhile isBlank).length + 1)).filter (0 ≤ ·) =
      List.range ((cs.takeWhile isBlank).length + 1) :=
    List.filter_eq_self.mpr fun n _ => decide_eq_true (Nat.zero_le n)
  rw [afterBlanks, hall]

theorem mem_afterBlanks_iff {start : List Char} : start ∈ afterBlanks 0 cs ↔
    ∃ blanks, (∀ c ∈ blanks, isBlank c = true) ∧ cs = blanks ++ start := by
  rw [afterBlanks_zero]
  simp only [List.mem_map, List.mem_reverse, List.mem_range, Nat.lt_succ_iff]
  constructor
  · rintro ⟨n, hn, rfl⟩
    refine ⟨cs.take n, fun c hc => ?_, (List.take_append_drop n cs).symm⟩
    have htake : cs.take n = (cs.takeWhile isBlank).take n := by
      conv_lhs => rw [← List.takeWhile_append_dropWhile (p := isBlank) (l := cs)]
      exact List.take_append_of_le_length hn
    rw [htake] at hc
    exact List.all_eq_true.mp List.all_takeWhile c (List.mem_of_mem_take hc)
  · rintro ⟨blanks, hblanks, rfl⟩
    refine ⟨blanks.length, ?_, List.drop_left⟩
    rw [List.takeWhile_append_of_pos hblanks, List.length_append]
    exact Nat.le_add_right _ _

theorem pairwise_afterBlanks (cs : List Char) :
    (afterBlanks 0 cs).Pairwise fun a b => a.length < b.length := by
  rw [afterBlanks_zero, List.pairwise_map, List.pairwise_reverse]
  refine List.pairwise_lt_range.imp_of_mem fun {m n} _ hn hlt => ?_
  have hle := (List.takeWhile_prefix isBlank (l := cs)).length_le
  rw [List.mem_range] at hn
  rw [List.length_drop, List.length_drop]
  omega

theorem mem_starts_iff {start : List Char} : start ∈ starts cs ↔
    ∃ front, IsFront front ∧ cs = front ++ start := by
  rw [starts]
  cases hrest : after? "[javac]" cs with
  | none =>
    rw [List.mem_singleton]
    constructor
    · rintro rfl
      exact ⟨[], Or.inl rfl, rfl⟩
    · rintro ⟨front, rfl | ⟨blanks, -, rfl⟩, hcs⟩
      · exact hcs.symm
      · rw [List.append_assoc] at hcs
        rw [after?_eq_some_iff.mpr hcs] at hrest
        cases hrest
  | some rest =>
    rw [List.mem_append, List.mem_singleton, mem_afterBlanks_iff]
    rw [after?_eq_some_iff] at hrest
    constructor
    · rintro (⟨blanks, hblanks, rfl⟩ | rfl)
      · exact ⟨_, Or.inr ⟨blanks, hblanks, rfl⟩, by rw [hrest, List.append_assoc]⟩
      · exact ⟨[], Or.inl rfl, rfl⟩
    · rintro ⟨front, rfl | ⟨blanks, hblanks, rfl⟩, hcs⟩
      · exact Or.inr hcs.symm
      · rw [hrest, List.append_assoc] at hcs
        exact Or.inl ⟨blanks, hblanks, List.append_cancel_left hcs⟩

theorem pairwise_starts (cs : List Char) : (starts cs).Pairwise fun a b => a.length < b.length := by
  rw [starts]
  cases hrest : after? "[javac]" cs with
  | none => exact List.pairwise_singleton _ cs
  | some rest =>
    refine List.pairwise_append.mpr ⟨pairwise_afterBlanks rest, List.pairwise_singleton _ cs, ?_⟩
    intro start hstart whole hwhole
    obtain ⟨blanks, -, rfl⟩ := mem_afterBlanks_iff.mp hstart
    rw [List.mem_singleton.mp hwhole, after?_eq_some_iff.mp hrest]
    simp only [List.length_append]
    have htool : 0 < "[javac]".toList.length := by decide
    omega

/-! ### The line -/

namespace Reading

/-- What follows the front. -/
def start (r : Reading cs) : List Char := r.stem ++ (ending ++ r.remark.text)

theorem start_mem (r : Reading cs) : r.start ∈ starts cs :=
  mem_starts_iff.mpr ⟨r.front, r.isFront, r.text_eq⟩

theorem length_eq (r : Reading cs) : cs.length = r.front.length + r.start.length := by
  rw [← List.length_append, start, ← r.text_eq]

theorem endsFile (r : Reading cs) (hend : EndsVisibly cs) (column : Nat) :
    EndsFile (javacRest? column) [] r.start r.stem r.remark.text (r.remark.diagnostic column) := by
  have hremark : EndsVisibly r.remark.text := by
    rw [r.text_eq] at hend
    exact hend.of_append.of_append.of_append
  exact ⟨rfl, r.stem_ne, javacRest?_text r.remark hremark⟩

/-- There is one leading reading. -/
theorem Leads.diagnostic_eq {r other : Reading cs} (h : r.Leads) (h' : other.Leads)
    (hend : EndsVisibly cs) (column : Nat) :
    r.diagnostic column = other.diagnostic column := by
  obtain ⟨hfront, hstem⟩ : other.front.length = r.front.length ∧
      other.stem.length = r.stem.length := by
    rcases h other with hlt | ⟨heq, hle⟩
    · rcases h' r with hlt' | ⟨heq, -⟩
      · omega
      · omega
    · rcases h' r with hlt' | ⟨-, hle'⟩
      · omega
      · exact ⟨heq, Nat.le_antisymm hle' hle⟩
  have htext := other.text_eq.symm.trans r.text_eq
  obtain ⟨-, hstart⟩ := List.append_inj htext hfront
  obtain ⟨hsame, hrest⟩ := List.append_inj hstart hstem
  have hremark : other.remark.text = r.remark.text := List.append_cancel_left hrest
  have hread := (r.endsFile hend column).2.2
  rw [← hremark, (other.endsFile hend column).2.2] at hread
  rw [Reading.diagnostic, Reading.diagnostic, hsame, Option.some.inj hread]

end Reading

/-- A line is read as its leading reading says. -/
theorem exists_leading (hend : EndsVisibly cs) {d : Diagnostic}
    (h : ofJavacLine? column cs = some d) :
    ∃ r : Reading cs, r.Leads ∧ d = r.diagnostic column := by
  rw [ofJavacLine?_eq, List.findSome?_eq_some_iff] at h
  obtain ⟨earlier, start, later, hstarts, hfile, hnone⟩ := h
  have hmem : start ∈ starts cs := by
    rw [hstarts]
    exact List.mem_append_right _ List.mem_cons_self
  obtain ⟨front, hfront, hcs⟩ := mem_starts_iff.mp hmem
  obtain ⟨stem, rest, make, ⟨rfl, hstem, hread⟩, rfl, hleast⟩ := endsFile_of_afterFile? hfile
  have hrest : EndsVisibly rest := by
    rw [hcs] at hend
    exact hend.of_append.of_append.of_append
  obtain ⟨remark, rfl, rfl⟩ := exists_remark hrest hread
  let r : Reading cs := ⟨front, stem, remark, hfront, hstem, hcs⟩
  refine ⟨r, fun other => ?_, rfl⟩
  have hother := other.endsFile hend column
  have hplace : other.start ∈ earlier ++ r.start :: later := hstarts ▸ other.start_mem
  have hlength := r.length_eq.symm.trans other.length_eq
  rcases List.mem_append.mp hplace with hearlier | hplace
  · have hsome := isSome_afterFile? hother
    rw [hnone _ hearlier] at hsome
    cases hsome
  · rcases List.mem_cons.mp hplace with heq | hlater
    · rw [heq] at hother hlength
      exact Or.inr ⟨(Nat.add_right_cancel hlength).symm, hleast _ _ _ hother⟩
    · have hpairwise := pairwise_starts cs
      rw [hstarts] at hpairwise
      have hlt := (List.pairwise_cons.mp (List.pairwise_append.mp hpairwise).2.1).1 _ hlater
      change r.start.length < _ at hlt
      exact Or.inl (by omega)

theorem ofJavacLine?_ne_none (r : Reading cs) (hend : EndsVisibly cs) :
    ofJavacLine? column cs ≠ none := by
  intro hnone
  rw [ofJavacLine?_eq, List.findSome?_eq_none_iff] at hnone
  have hsome := isSome_afterFile? (r.endsFile hend column)
  rw [hnone _ r.start_mem] at hsome
  cases hsome

/-- A line is a message as its leading reading says, and no message if it has no reading. -/
theorem ofJavacLine?_eq_some_iff (hend : EndsVisibly cs) {d : Diagnostic} :
    ofJavacLine? column cs = some d ↔ ∃ r : Reading cs, r.Leads ∧ d = r.diagnostic column := by
  constructor
  · exact exists_leading hend
  · rintro ⟨r, hr, rfl⟩
    cases hd : ofJavacLine? column cs with
    | none => exact absurd hd (ofJavacLine?_ne_none r hend)
    | some d =>
      obtain ⟨other, hother, rfl⟩ := exists_leading hend hd
      rw [hother.diagnostic_eq hr hend]

theorem ofJavacLine?_eq_none_iff (hend : EndsVisibly cs) :
    ofJavacLine? column cs = none ↔ IsEmpty (Reading cs) := by
  refine ⟨fun hnone => ⟨fun r => ofJavacLine?_ne_none r hend hnone⟩, fun hempty => ?_⟩
  cases hd : ofJavacLine? column cs with
  | none => rfl
  | some d =>
    obtain ⟨r, -, -⟩ := exists_leading hend hd
    exact hempty.elim r

/-! ### The shortest file -/

namespace Reading

/-- A reading whose file ends later than a front leaves the part behind that front as a file. -/
theorem exists_behind {r other : Reading cs} {stem : List Char} (hne : stem ≠ [])
    (h : other.front ++ other.stem = r.front ++ stem) :
    ∃ behind : Reading cs, behind.front = r.front ∧ behind.stem = stem :=
  ⟨{ front := r.front, stem, remark := other.remark, isFront := r.isFront, stem_ne := hne
     text_eq := by rw [← List.append_assoc, ← h, List.append_assoc, ← other.text_eq] }, rfl, rfl⟩

theorem dot_notMem (r : Reading cs) : '.' ∉ r.front := by
  rcases r.isFront with hfront | ⟨blanks, hblanks, hfront⟩
  · rw [hfront]
    exact List.not_mem_nil
  · rw [hfront, List.mem_append, not_or]
    refine ⟨by decide, fun hdot => ?_⟩
    have hblank := hblanks _ hdot
    revert hblank
    decide

/-- The leading reading has the shortest file, unless that file begins with its ending. -/
theorem Leads.length_le {r : Reading cs} (h : r.Leads) (other : Reading cs) :
    r.stem.length ≤ other.stem.length ∨ ending <+: r.stem ++ ending := by
  rcases h other with hlt | ⟨-, hle⟩
  case inr => exact Or.inl hle
  have hsplit :
      (other.front ++ other.stem) ++ (ending ++ other.remark.text) = r.front ++ r.start := by
    rw [List.append_assoc, ← other.text_eq]
    exact r.text_eq
  have hbegins (hstart : ending ++ other.remark.text = r.start) : ending <+: r.stem ++ ending := by
    have hwhole : r.stem ++ ending <+: r.start := ⟨r.remark.text, by rw [start, List.append_assoc]⟩
    refine List.prefix_of_prefix_length_le ⟨_, hstart⟩ hwhole ?_
    rw [List.length_append]
    exact Nat.le_add_left _ _
  rcases List.append_eq_append_iff.mp hsplit with ⟨more, hfront, hstart⟩ | ⟨stem, hstem, hstart⟩
  · cases more with
    | nil => exact Or.inr (hbegins hstart)
    | cons c more =>
      -- The ending would begin inside the front, which has no dot.
      obtain ⟨rfl, -⟩ := List.cons.inj hstart
      refine absurd ?_ r.dot_notMem
      rw [hfront]
      exact List.mem_append_right _ List.mem_cons_self
  · by_cases hne : stem = []
    · rw [hne] at hstart
      exact Or.inr (hbegins hstart.symm)
    · obtain ⟨behind, hsame, rfl⟩ := exists_behind hne hstem
      left
      have hlength := congrArg List.length hstem
      rw [List.length_append, List.length_append] at hlength
      rcases h behind with hless | ⟨-, hle⟩
      · rw [hsame] at hless
        exact absurd hless (Nat.lt_irrefl _)
      · omega

end Reading

end Amend.Build.Diagnostic
