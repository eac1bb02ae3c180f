import Amend.Proofs.Build.Diagnostic
import Mathlib.Data.List.Basic

/-!
# What a compiler run says

A compiler's output is read line by line: a line that can be read as a message is one, with the
column that a caret two lines below marks, and any other line is none.  The verdict on a run follows
from the messages and from how the process ended.
-/

namespace Amend.Build.Diagnostic

open Text (EndsVisibly isBlank lines trim)

variable {line freed : List Char} {caret : String} {below : List String} {column : Nat}

/-! ## The column -/

/-- A line in which blanks may stand before the name of the tool, and what stands behind it. -/
def NamesTool (line behind : List Char) : Prop :=
  ∃ blanks, (∀ c ∈ blanks, isBlank c = true) ∧ line = blanks ++ ("[javac]".toList ++ behind)

/-- What is left of a line without the name of the tool and one space behind it. -/
def IsFreed (line freed : List Char) : Prop :=
  NamesTool line (' ' :: freed) ∨ (NamesTool line freed ∧ freed.head? ≠ some ' ') ∨
    (line = freed ∧ ∀ behind, ¬ NamesTool line behind)

/-- A line that without the name of the tool holds a caret and else only blanks, and the column of
the caret. -/
def Marks (line : List Char) (column : Nat) : Prop := ∃ before after,
  IsFreed line (before ++ '^' :: after) ∧ (∀ c ∈ before, isBlank c = true) ∧
    (∀ c ∈ after, isBlank c = true) ∧ column = 1 + (String.ofList before).utf8ByteSize

/-- The column of a message above these lines: the one that the second of them marks, and 0 if it
marks none. -/
def IsColumn (below : List String) (column : Nat) : Prop :=
  (∃ caret, below[1]? = some caret ∧ Marks caret.toList column) ∨
    (column = 0 ∧ ∀ caret, below[1]? = some caret → ∀ marked, ¬ Marks caret.toList marked)

theorem namesTool_iff {behind : List Char} :
    NamesTool line behind ↔ after? "[javac]" (line.dropWhile isBlank) = some behind := by
  rw [after?_eq_some_iff]
  constructor
  · rintro ⟨blanks, hblanks, rfl⟩
    refine Text.dropWhile_append_eq hblanks ?_
    rintro _ ⟨⟩
    decide
  · intro h
    refine ⟨line.takeWhile isBlank, List.all_eq_true.mp List.all_takeWhile, ?_⟩
    rw [← h, List.takeWhile_append_dropWhile]

theorem isFreed_iff : IsFreed caret.toList freed ↔ freed = withoutTool caret := by
  simp only [IsFreed, namesTool_iff, withoutTool]
  cases hbehind : after? "[javac]" (caret.toList.dropWhile isBlank) with
  | none => simp [eq_comm]
  | some behind =>
    cases behind with
    | nil => grind
    | cons c rest => by_cases hspace : c = ' ' <;> grind

theorem head?_caret {after : List Char} :
    ∀ c, ('^' :: after).head? = some c → isBlank c = false := by
  rintro _ ⟨⟩
  decide

theorem trimmed_eq_caret_iff {cs : List Char} : trimmed cs = "^" ↔ ∃ before after,
    cs = before ++ '^' :: after ∧ (∀ c ∈ before, isBlank c = true) ∧
      ∀ c ∈ after, isBlank c = true := by
  constructor
  · intro h
    obtain ⟨after, hafter, hblank⟩ :=
      Text.exists_dropEndWhile_append isBlank (cs.dropWhile isBlank)
    have hcaret : Text.dropEndWhile isBlank (cs.dropWhile isBlank) = ['^'] := by
      rw [← String.toList_ofList (l := Text.dropEndWhile _ _), ← trimmed, h]
      rfl
    rw [hcaret] at hafter
    refine ⟨cs.takeWhile isBlank, after, ?_, List.all_eq_true.mp List.all_takeWhile, hblank⟩
    rw [← List.singleton_append, ← hafter, List.takeWhile_append_dropWhile]
  · rintro ⟨before, after, rfl, hbefore, hafter⟩
    have hends : EndsVisibly ['^'] := by
      rintro _ ⟨⟩
      decide
    rw [trimmed, Text.dropWhile_append_eq hbefore head?_caret, ← List.singleton_append,
      Text.dropEndWhile_append_eq hends hafter]

theorem takeWhile_caret {before after : List Char} (hbefore : ∀ c ∈ before, isBlank c = true) :
    (before ++ '^' :: after).takeWhile (· != '^') = before := by
  refine Text.takeWhile_append_eq (fun c hc => ?_) ?_
  · have hblank := hbefore c hc
    rw [bne_iff_ne]
    rintro rfl
    revert hblank
    decide
  · rintro _ ⟨⟩
    rfl

theorem marks_iff : Marks caret.toList column ↔ column = caretColumn caret ∧ column ≠ 0 := by
  rw [caretColumn]
  constructor
  · rintro ⟨before, after, hfreed, hbefore, hafter, rfl⟩
    rw [← isFreed_iff.mp hfreed]
    rw [if_pos (trimmed_eq_caret_iff.mpr ⟨before, after, rfl, hbefore, hafter⟩),
      takeWhile_caret hbefore, Nat.add_comm]
    exact ⟨rfl, Nat.succ_ne_zero _⟩
  · rintro ⟨hcolumn, hne⟩
    split at hcolumn
    case isFalse => exact absurd hcolumn hne
    case isTrue hcaret =>
      obtain ⟨before, after, hfreed, hbefore, hafter⟩ := trimmed_eq_caret_iff.mp hcaret
      rw [hfreed, takeWhile_caret hbefore, Nat.add_comm] at hcolumn
      exact ⟨before, after, isFreed_iff.mpr hfreed.symm, hbefore, hafter, hcolumn⟩

theorem isColumn_iff : IsColumn below column ↔ column = (below[1]?.map caretColumn).getD 0 := by
  rw [IsColumn]
  cases below[1]? with
  | none => simp
  | some caret =>
    simp only [Option.some.injEq, exists_eq_left', forall_eq', marks_iff, Option.map_some,
      Option.getD_some]
    constructor
    · rintro (⟨h, -⟩ | ⟨rfl, hnone⟩)
      · exact h
      · by_contra hne
        exact hnone _ ⟨rfl, Ne.symm hne⟩
    · rintro rfl
      by_cases hzero : caretColumn caret = 0
      · exact Or.inr ⟨hzero, fun marked ⟨heq, hne⟩ => hne (heq.trans hzero)⟩
      · exact Or.inl ⟨rfl, hzero⟩

/-! ## The lines -/

/-- What the lines of an output report: each line that has a reading is the message of its leading
reading, and no other line is one. -/
inductive Reports : List String → List Diagnostic → Prop where
  | nil : Reports [] []
  | message {line : String} {below : List String} {ds : List Diagnostic} {column : Nat}
      (r : Reading (trim line).toList) (hleads : r.Leads) (hcolumn : IsColumn below column)
      (hbelow : Reports below ds) : Reports (line :: below) (r.diagnostic column :: ds)
  | other {line : String} {below : List String} {ds : List Diagnostic}
      (hnone : IsEmpty (Reading (trim line).toList)) (hbelow : Reports below ds) :
      Reports (line :: below) ds

theorem reports_iff {ls : List String} {ds : List Diagnostic} :
    Reports ls ds ↔ ds = ofJavacLines ls := by
  constructor
  · intro h
    induction h with
    | nil => rfl
    | message r hleads hcolumn _ ih =>
      rw [ofJavacLines, ← isColumn_iff.mp hcolumn, ← ih,
        (ofJavacLine?_eq_some_iff (Text.endsVisibly_trim _)).mpr ⟨r, hleads, rfl⟩]
      rfl
    | other hnone _ ih =>
      rw [ofJavacLines, (ofJavacLine?_eq_none_iff (Text.endsVisibly_trim _)).mpr hnone, ← ih]
      rfl
  · rintro rfl
    induction ls with
    | nil => exact .nil
    | cons line below ih =>
      rw [ofJavacLines]
      cases hline : ofJavacLine? ((below[1]?.map caretColumn).getD 0) (trim line).toList with
      | none => exact .other ((ofJavacLine?_eq_none_iff (Text.endsVisibly_trim _)).mp hline) ih
      | some d =>
        obtain ⟨r, hleads, rfl⟩ := exists_leading (Text.endsVisibly_trim _) hline
        exact .message r hleads (isColumn_iff.mpr rfl) ih

/-- The level of some message that the lines of an output are. -/
def HasMessage (level : Level) (ls : List String) : Prop :=
  ∃ line ∈ ls, ∃ r : Reading (trim line).toList, r.Leads ∧ r.remark.level = level

theorem Reports.hasMessage_iff {level : Level} {ls : List String} {ds : List Diagnostic}
    (h : Reports ls ds) : HasMessage level ls ↔ ∃ d ∈ ds, d.level = level := by
  induction h with
  | nil => simp [HasMessage]
  | message r hleads hcolumn _ ih =>
    rw [HasMessage, List.exists_mem_cons_iff, List.exists_mem_cons_iff, ← HasMessage, ih]
    refine or_congr_left ⟨?_, fun hlevel => ⟨r, hleads, hlevel⟩⟩
    rintro ⟨other, hother, rfl⟩
    have hsame := hleads.diagnostic_eq hother (Text.endsVisibly_trim _) 0
    exact congrArg Diagnostic.level hsame
  | other hnone _ ih =>
    rw [HasMessage, List.exists_mem_cons_iff, ← HasMessage, ih]
    exact or_iff_right fun ⟨r, _⟩ => hnone.elim r

end Amend.Build.Diagnostic

namespace Amend.Verdict

open Build (ProcessOutcome)
open Build.Diagnostic (HasMessage reports_iff)

theorem compilerErrors_eq_nil_iff {output : String} :
    compilerErrors (Build.Diagnostic.ofJavac output) = [] ↔
      ¬ HasMessage .error (Text.lines output) := by
  rw [(reports_iff.mpr rfl).hasMessage_iff, compilerErrors, List.map_eq_nil_iff,
    List.filter_eq_nil_iff, ← Build.Diagnostic.ofJavac]
  simp

theorem errors_ofJavac_eq_nil_iff {succeeded : Bool} {output : String} :
    (ofJavac succeeded output).errors = [] ↔
      succeeded = true ∧ ¬ HasMessage .error (Text.lines output) := by
  rw [← compilerErrors_eq_nil_iff, ofJavac]
  cases succeeded <;> cases compilerErrors (Build.Diagnostic.ofJavac output) <;> simp

theorem success_ofJavac_iff {succeeded : Bool} {output : String} :
    (ofJavac succeeded output).success = true ↔ (ofJavac succeeded output).errors = [] :=
  List.isEmpty_iff

end Amend.Verdict

namespace Amend.Build

open Diagnostic
open Text (lines trim)

/-- A process succeeds if it ends by itself with code 0. -/
theorem ProcessOutcome.success_ofExit_iff {policy : TerminationPolicy} {state : ProcessState}
    {code : Option Int} {output : String} {elapsedMs : Nat} :
    (ofExit policy state code output elapsedMs).success = true ↔
      (ofExit policy state code output elapsedMs).timedOut = false ∧ code = some 0 := by
  simp [ofExit]

/-- A compiler's output is read exactly, and the verdict on its run follows.  The leading reading of
a line has the shortest file there is, unless that file begins with its ending. -/
theorem compiler_output_is_read (succeeded : Bool) (output : String) :
    (∀ ds, Reports (lines output) ds ↔ ds = ofJavac output) ∧
    (∀ (cs : List Char) (r : Reading cs), r.Leads → ∀ other : Reading cs,
      r.stem.length ≤ other.stem.length ∨ ending <+: r.stem ++ ending) ∧
    ((Verdict.ofJavac succeeded output).success = true ↔
      succeeded = true ∧ ¬ HasMessage .error (lines output)) ∧
    ∀ policy state code elapsedMs,
      let process := ProcessOutcome.ofExit policy state code output elapsedMs
      (Verdict.ofJavac process.success process.output).errors = [] ↔
        (process.timedOut = false ∧ code = some 0) ∧
          ¬ HasMessage .error (lines process.output) := by
  refine ⟨fun ds => reports_iff, fun cs r hleads other => hleads.length_le other,
    Verdict.success_ofJavac_iff.trans Verdict.errors_ofJavac_eq_nil_iff, ?_⟩
  intro policy state code elapsedMs process
  rw [Verdict.errors_ofJavac_eq_nil_iff, ProcessOutcome.success_ofExit_iff]

theorem compiler_output_is_read_lost :
    let output := "[javac] A.java:3: error: lost\n[javac]   x\n[javac]   ^\n"
    let line := trim "[javac] A.java:3: error: lost"
    let process := ProcessOutcome.ofExit ⟨0, 0⟩ .killed none output 0
    Reports (lines output) [⟨"A.java", 3, 3, "lost", .error⟩] ∧
      (∃ r : Reading line.toList, r.Leads ∧
        ∀ other : Reading line.toList,
          r.stem.length ≤ other.stem.length ∨ ending <+: r.stem ++ ending) ∧
      (Verdict.ofJavac true output).success = false ∧
      (Verdict.ofJavac process.success process.output).errors ≠ [] := by
  intro output line process
  have hread := compiler_output_is_read true output
  have hreports : Reports (lines output) [⟨"A.java", 3, 3, "lost", .error⟩] :=
    (hread.1 _).mpr (by decide +kernel)
  have hline : ofJavacLine? 0 line.toList = some ⟨"A.java", 3, 0, "lost", .error⟩ := by
    decide +kernel
  obtain ⟨r, hleads, -⟩ := exists_leading (Text.endsVisibly_trim _) hline
  refine ⟨hreports, ⟨r, hleads, hread.2.1 _ r hleads⟩, ?_, fun hnil => ?_⟩
  · rw [← Bool.not_eq_true, hread.2.2.1, hreports.hasMessage_iff]
    simp
  · have hended := (hread.2.2.2 ⟨0, 0⟩ .killed none 0).mp hnil
    cases hended.1.2

/-- Where the name of the tool may be part of the file, the file is not always the shortest. -/
theorem file_not_shortest :
    let line := "[javac].java:1: error: x.java:2: error: y"
    ofJavac line = [⟨".java:1: error: x.java", 2, 0, "y", .error⟩] ∧
      ∃ r : Reading (trim line).toList,
        r.diagnostic 0 = ⟨"[javac].java", 1, 0, "x.java:2: error: y", .error⟩ := by
  refine ⟨by decide +kernel, ⟨[], "[javac]".toList, ?_, Or.inl rfl, by decide, ?_⟩, ?_⟩
  · exact {
      digits := ['1'], gap := [' '], level := .error, space := [' ']
      message := "x.java:2: error: y".toList
      digits_ne := by decide
      isDigit := List.forall_mem_singleton.mpr (by decide +kernel)
      gap_blank := List.forall_mem_singleton.mpr (by decide)
      space_blank := List.forall_mem_singleton.mpr (by decide)
      visible := ⟨'x', by decide, by decide⟩ }
  · decide +kernel
  · decide +kernel

end Amend.Build
