import Amend.Proofs.Extraction.Search
import Amend.Proofs.Extraction.Step

/-!
# A whole run

A run lifts one block after the other and parses the source again after each.  A block that returns
without a value becomes a call with a `return` behind it, and the search goes on in front of that
`return`: where single statements are blocks it is lifted in its turn, again and again.  In all
other cases the statements that are left to search become fewer with every step, so that a run ends
after at most as many steps as the method has statements.
-/

namespace Amend.Extraction

open Syntax Syntax.Node

section Run

variable {parse : Parser} {start : Nat} {settings : BlockSettings} {source : String}
  {method : Node} {resume : Nat} {b : Block}

/-! ## Steps one after the other -/

/-- The texts that a run comes to, each with the statement from which it goes on. -/
inductive Reaches (parse : Parser) (start : Nat) (settings : BlockSettings) (source : String) :
    String → Nat → Prop
  | here : Reaches parse start settings source source 0
  | next {text : String} {resume : Nat} {method : Node} {b : Block} {e : ExtractedMethod}
      {content : String} (hreach : Reaches parse start settings source text resume)
      (hstep : IsStep parse start settings text resume method b e content) :
      Reaches parse start settings source content (b.firstIndex + 1)

/-- A block that a run lifted, with the text and the method in which it found it. -/
structure LiftedBlock where
  source : String
  method : Node
  block : Block
  extraction : ExtractedMethod

/-- The blocks that a run lifts one after the other, and the text that it leaves. -/
inductive Lifting (parse : Parser) (start : Nat) (settings : BlockSettings) :
    String → Nat → List LiftedBlock → String → Prop
  | done {source : String} {resume : Nat}
      (hnext : next? parse source start settings resume = .ok none) :
      Lifting parse start settings source resume [] source
  | step {source : String} {resume : Nat} {method : Node} {b : Block} {e : ExtractedMethod}
      {content out : String} {steps : List LiftedBlock}
      (hstep : IsStep parse start settings source resume method b e content)
      (hrest : Lifting parse start settings content (b.firstIndex + 1) steps out) :
      Lifting parse start settings source resume (⟨source, method, b, e⟩ :: steps) out

theorem lift_step {e : ExtractedMethod} {content : String}
    (h : IsStep parse start settings source resume method b e content) (fuel : Nat) :
    lift parse start settings (fuel + 1) source resume = do
      let rest ← lift parse start settings fuel content (b.firstIndex + 1)
      return { rest with extractions := e :: rest.extractions } := by
  rw [lift, h.next]
  rfl

/-- With enough fuel lifting ends as the run does. -/
theorem Lifting.lift_eq {steps : List LiftedBlock} {out : String}
    (h : Lifting parse start settings source resume steps out) {fuel : Nat}
    (hfuel : steps.length < fuel) :
    lift parse start settings fuel source resume = .ok ⟨out, steps.map (·.extraction)⟩ := by
  induction h generalizing fuel with
  | done hnext =>
    obtain ⟨fuel, rfl⟩ := Nat.exists_eq_add_one_of_ne_zero (Nat.ne_zero_of_lt hfuel)
    rw [lift, hnext]
    rfl
  | step hstep _ ih =>
    obtain ⟨fuel, rfl⟩ := Nat.exists_eq_add_one_of_ne_zero (Nat.ne_zero_of_lt hfuel)
    rw [lift_step hstep, ih (Nat.lt_of_succ_lt_succ hfuel)]
    rfl

/-! ## Statements left to search -/

/-- A search from statement `resume` on meets a `return` without a value. -/
def MeetsReturn (method : Node) (resume : Nat) : Prop :=
  ∃ s ∈ (Java.bodyStatements method).drop resume, MethodFlow.isBareReturn s.tree = true

instance : Decidable (MeetsReturn method resume) :=
  inferInstanceAs (Decidable (∃ s ∈ (Java.bodyStatements method).drop resume, _ = true))

theorem meetsReturn_iff : MeetsReturn method resume ↔
    true ∈ ((Java.bodyStatements method).drop resume).map (MethodFlow.isBareReturn ·.tree) := by
  simp only [MeetsReturn, List.mem_map]

theorem meetsReturn_of_getElem? {i : Nat} {s : Node} (hi : resume ≤ i)
    (hs : (Java.bodyStatements method)[i]? = some s)
    (hreturn : MethodFlow.isBareReturn s.tree = true) : MeetsReturn method resume := by
  refine ⟨s, List.mem_of_getElem? (i := i - resume) ?_, hreturn⟩
  rw [List.getElem?_drop, Nat.add_sub_cancel' hi, hs]

theorem MeetsReturn.earlier {i : Nat} (h : MeetsReturn method resume) (hi : i ≤ resume) :
    MeetsReturn method i := by
  obtain ⟨s, hs, hreturn⟩ := h
  exact ⟨s, List.drop_subset_drop_left _ hi hs, hreturn⟩

/-- A block that returns without a value ends in such a `return`. -/
theorem meetsReturn_of_exit {rest : List Block}
    (h : findBlocksFrom method source settings resume = b :: rest) (hexit : b.returns = .exit) :
    MeetsReturn method resume := by
  obtain ⟨-, k, size, hk, -, hin, haccept⟩ := MethodFlow.exists_accept_of_blocksFrom h
  obtain ⟨a, ha, hreturn⟩ := MethodFlow.accept_exit haccept hin hexit
  obtain ⟨hfirst, -, first, last, hspans⟩ := MethodFlow.accept_spans haccept hin
  rw [MethodFlow.ofMethod, List.getElem?_map] at ha
  obtain ⟨s, hs, rfl⟩ := Option.map_eq_some_iff.mp ha
  exact meetsReturn_of_getElem? (Nat.le_trans (hfirst ▸ hk) hspans.ordered) hs hreturn

/-- A search that meets a `return` without a value where single statements are blocks finds a block,
and this returns without a value or leaves that `return` for later. -/
theorem MeetsReturn.exists_block (h : MeetsReturn method resume) (hmin : settings.minSize = 1)
    (source : String) : ∃ b rest, findBlocksFrom method source settings resume = b :: rest ∧
      (b.returns = .exit ∨ MeetsReturn method (b.lastIndex + 1)) := by
  obtain ⟨s, hs, hreturn⟩ := h
  obtain ⟨j, hj⟩ := List.mem_iff_getElem?.mp hs
  rw [List.getElem?_drop] at hj
  have hstatement : (MethodFlow.ofMethod method source).statements[resume + j]? =
      some (s, { hasReturn := true }) := by
    rw [MethodFlow.ofMethod, List.getElem?_map, hj, Option.map_some,
      MethodFlow.facts_of_isBareReturn source _ hreturn]
  obtain ⟨b, rest, hblocks, hb⟩ := MethodFlow.exists_block_at_return hmin
    (Nat.le_add_right resume j) hstatement hreturn
  refine ⟨b, rest, hblocks, hb.imp_right fun hlast => ?_⟩
  exact meetsReturn_of_getElem? hlast hj hreturn

/-- Statements that are written with at least one byte are no more than the bytes of their source. -/
theorem length_bodyStatements_le (hfits : method.tree.fits source = true)
    (hwritten : ∀ s ∈ Java.bodyStatements method, s.start < s.stop) :
    (Java.bodyStatements method).length ≤ source.utf8ByteSize := by
  cases hbody : method.childBy? .body with
  | none =>
    rw [Java.bodyStatements, hbody]
    exact Nat.zero_le _
  | some body =>
    have hstatements : (Java.bodyStatements method).map (·.tree) =
        body.tree.children.filter isPart := by
      rw [Java.bodyStatements, hbody, Option.map_some, Option.getD_some, parts_eq_filter,
        map_tree_filter_nodesFrom]
    obtain ⟨front, back, hchildren, -, -⟩ := exists_of_childBy? hbody
    obtain ⟨hthis, -, hstop⟩ := Tree.fits_of_mem (t := body.tree) (Tree.fits_iff.mp hfits).2.2
      (by simp [hchildren])
    have hlength := Tree.add_length_filter_le (p := isPart) (Tree.fits_iff.mp hthis).2.2
      (by rwa [← hstatements, List.forall_mem_map])
    have hsource := Text.le_of_isBoundary (Tree.fits_iff.mp hfits).2.1
    rw [← hstatements, List.length_map] at hlength
    omega

section Continues

variable {name : String} {method' : Node} {content : String}

/-- The `return` behind the call of a block that returned without a value is met next. -/
theorem Continues.meetsReturn_of_exit (h : Continues method source b name method' content)
    (hexit : b.returns = .exit) : MeetsReturn method' (b.firstIndex + 1) := by
  obtain ⟨s, rest, hdrop, hreturn⟩ := h.back hexit
  refine ⟨s, ?_, hreturn⟩
  have hmem : (s, { hasReturn := true }) ∈
      (MethodFlow.ofMethod method' content).statements.drop (b.firstIndex + 1) := by
    rw [hdrop]
    exact List.mem_cons_self
  rw [MethodFlow.ofMethod, ← List.map_drop] at hmem
  obtain ⟨t, ht, heq⟩ := List.mem_map.mp hmem
  cases (Prod.mk.inj heq).1
  exact ht

/-- Behind any other call the returns are those behind the block. -/
theorem Continues.meetsReturn_iff (h : Continues method source b name method' content)
    (hexit : b.returns ≠ .exit) :
    MeetsReturn method' (b.firstIndex + 1) ↔ MeetsReturn method (b.lastIndex + 1) := by
  have hbehind := h.behind
  rw [BlockReturn.callSize_eq_one hexit] at hbehind
  rw [Extraction.meetsReturn_iff, Extraction.meetsReturn_iff, hbehind]

/-- Fewer statements are left after a step than before. -/
theorem Continues.left_lt (h : Continues method source b name method' content) {rest : List Block}
    (hblocks : findBlocksFrom method source settings resume = b :: rest)
    (hsize : b.returns ≠ .exit ∨ 2 ≤ settings.minSize) :
    (Java.bodyStatements method').length - (b.firstIndex + 1) <
      (Java.bodyStatements method).length - resume := by
  have hmem : b ∈ findBlocksFrom method source settings resume := by
    rw [hblocks]
    exact List.mem_cons_self
  have hb := (MethodFlow.searched_blocksFrom method source settings resume).isBlock b hmem
  have hbehind := congrArg List.length h.behind
  rw [List.length_map, List.length_map, List.length_drop, List.length_drop] at hbehind
  have hcall : b.returns.callSize ≤ b.size := by
    rcases hsize with hexit | hmin
    · rw [BlockReturn.callSize_eq_one hexit]
      exact Nat.succ_le_of_lt (Nat.succ_pos _)
    · exact Nat.le_trans b.returns.callSize_le (Nat.le_trans hmin hb.minSize_le)
  have hfirst := hb.first_le
  have hordered := hb.ordered
  have hin := hb.inBody
  rw [Block.size] at hcall
  omega

end Continues

/-! ## Runs that end -/

section Search

variable {text : String}
  (hgrammar : ∀ source tree, parse.verify source = .ok tree → Grammatical source tree)
  (hreparses : ∀ {text resume method b e content}, Reaches parse start settings source text resume →
    IsStep parse start settings text resume method b e content →
      Reparses parse method text b e.methodName content)

include hgrammar hreparses

/-- What a step leaves along a run. -/
theorem exists_next (hreach : Reaches parse start settings source text resume)
    (hmethod : FindsMethod parse start text method) {rest : List Block}
    (hblocks : findBlocksFrom method text settings resume = b :: rest) :
    ∃ e content method', IsStep parse start settings text resume method b e content ∧
      e.methodName = methodName (Text.sliceD text b.start b.stop) (takenNames method text) ∧
      e.parameters = b.parameters ∧ e.returnType = b.returns.javaType ∧
      FindsMethod parse start content method' ∧
      Continues method text b e.methodName method' content ∧
      (KeepsTypes method text b method' content →
        Resumes settings text method b e.methodName content method') := by
  obtain ⟨e, content, c, d, q, u, hstep, hpieces, hname, hparameters, htype⟩ :=
    exists_step hgrammar hmethod hblocks
  obtain ⟨method', hmethod', hcontinues, hresumes⟩ :=
    exists_resumes hgrammar hmethod hblocks hpieces (hreparses hreach hstep)
  exact ⟨e, content, method', hstep, hname, hparameters, htype, hmethod', hcontinues, hresumes⟩

/-- Where single statements are blocks, a `return` without a value is lifted again and again. -/
theorem lift_endless (hmin : settings.minSize = 1) (fuel : Nat)
    (hreach : Reaches parse start settings source text resume)
    (hmethod : FindsMethod parse start text method) (hreturn : MeetsReturn method resume) :
    lift parse start settings fuel text resume = .error .endless := by
  induction fuel generalizing text resume method with
  | zero => rfl
  | succ fuel ih =>
    obtain ⟨b, blocks, hblocks, hb⟩ := hreturn.exists_block hmin text
    obtain ⟨e, content, method', hstep, -, -, -, hmethod', hcontinues, -⟩ :=
      exists_next hgrammar hreparses hreach hmethod hblocks
    have hreturn' : MeetsReturn method' (b.firstIndex + 1) := by
      by_cases hexit : b.returns = .exit
      · exact hcontinues.meetsReturn_of_exit hexit
      · exact (hcontinues.meetsReturn_iff hexit).mpr (hb.resolve_left hexit)
    rw [lift_step hstep, ih (.next hreach hstep) hmethod' hreturn']
    rfl

/-- Otherwise a run ends after at most as many steps as there are statements left. -/
theorem exists_lifting (left : Nat) (hleft : (Java.bodyStatements method).length - resume = left)
    (hreach : Reaches parse start settings source text resume)
    (hmethod : FindsMethod parse start text method)
    (hends : ¬ (settings.minSize = 1 ∧ MeetsReturn method resume)) :
    ∃ steps out, Lifting parse start settings text resume steps out ∧ steps.length ≤ left := by
  induction left using Nat.strong_induction_on generalizing text resume method with
  | h left ih =>
    cases hblocks : findBlocksFrom method text settings resume with
    | nil => exact ⟨[], text, .done (next?_eq_none hmethod hblocks), Nat.zero_le left⟩
    | cons b rest =>
      obtain ⟨e, content, method', hstep, -, -, -, hmethod', hcontinues, -⟩ :=
        exists_next hgrammar hreparses hreach hmethod hblocks
      have hexit (hmin : settings.minSize = 1) : b.returns ≠ .exit :=
        fun hexit => hends ⟨hmin, meetsReturn_of_exit hblocks hexit⟩
      have hsize : b.returns ≠ .exit ∨ 2 ≤ settings.minSize := by
        have hpos := settings.minSize_pos
        exact (Nat.eq_or_lt_of_le hpos).imp (fun hmin => hexit hmin.symm) id
      have hends' : ¬ (settings.minSize = 1 ∧ MeetsReturn method' (b.firstIndex + 1)) := by
        rintro ⟨hmin, hreturn⟩
        obtain ⟨hfirst, -, first, last, hspans⟩ := MethodFlow.blocksFrom_cons hblocks
        have hbehind := (hcontinues.meetsReturn_iff (hexit hmin)).mp hreturn
        exact hends ⟨hmin, hbehind.earlier
          (Nat.le_succ_of_le (Nat.le_trans hfirst hspans.ordered))⟩
      have hfewer := hcontinues.left_lt hblocks hsize
      obtain ⟨steps, out, hlifting, hlength⟩ :=
        ih _ (hleft ▸ hfewer) rfl (.next hreach hstep) hmethod' hends'
      refine ⟨⟨text, method, b, e⟩ :: steps, out, .step hstep hlifting, ?_⟩
      rw [List.length_cons]
      omega

/-- Lifting goes on without end exactly where single statements are blocks and one of the method's
is a `return` without a value; otherwise it ends, having lifted no more blocks than there are
statements. -/
theorem lift_ends (hmethod : FindsMethod parse start source method) :
    (settings.minSize = 1 ∧ MeetsReturn method 0 →
      ∀ fuel, lift parse start settings fuel source 0 = .error .endless) ∧
    (¬ (settings.minSize = 1 ∧ MeetsReturn method 0) → ∃ outcome : Outcome,
      outcome.extractions.length ≤ (Java.bodyStatements method).length ∧
      ∀ fuel, (Java.bodyStatements method).length < fuel →
        lift parse start settings fuel source 0 = .ok outcome) := by
  refine ⟨fun h fuel => lift_endless hgrammar hreparses h.1 fuel .here hmethod h.2, fun h => ?_⟩
  obtain ⟨steps, out, hlifting, hlength⟩ := exists_lifting hgrammar hreparses _ rfl .here hmethod h
  refine ⟨⟨out, steps.map (·.extraction)⟩, ?_, fun fuel hfuel => hlifting.lift_eq ?_⟩
  · rw [List.length_map]
    exact hlength
  · exact Nat.lt_of_le_of_lt hlength hfuel

/-- Where each statement is written with at least one byte, the fuel that the extraction is given is
enough. -/
theorem extractAll_ends (hmethod : FindsMethod parse start source method)
    (hwritten : ∀ s ∈ Java.bodyStatements method, s.start < s.stop) :
    if settings.minSize = 1 ∧ MeetsReturn method 0 then
      extractAll parse source start settings = .error .endless
    else ∃ outcome, extractAll parse source start settings = .ok outcome ∧
      outcome.extractions.length ≤ (Java.bodyStatements method).length := by
  obtain ⟨hendless, hends⟩ := lift_ends hgrammar hreparses hmethod
  split
  · rename_i h
    exact hendless h _
  · rename_i h
    obtain ⟨outcome, hlength, hlift⟩ := hends h
    have hfits := (hmethod.leads hgrammar).2.1
    have hbytes := length_bodyStatements_le hfits hwritten
    exact ⟨outcome, hlift _ (by omega), hlength⟩

end Search

end Run

end Amend.Extraction
