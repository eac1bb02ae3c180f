import Amend.Proofs.Extraction.Run
import Amend.Refactoring.LongMethod

/-!
# The report on a method and the lifting of its blocks

One refactoring reports the blocks of a method as they are in one tree; the other lifts a block,
parses again and looks for the next one behind the call.  Both come to the same blocks, one after
the other, as long as the parser gives back what was put in and the types of the variables behind
each block stay known as they were.
-/

namespace Amend.Extraction

open Syntax Syntax.Node

/-! ## A whole run -/

section Agreement

variable {parse : Parser} {start : Nat} {settings : BlockSettings} {source : String}
  {method : Node} {resume : Nat} {b : Block}

/-- The blocks of a report with the names that it suggests, each taken for those after it. -/
def suggestions (source : String) : List String → List Block → List (Block × String)
  | _, [] => []
  | taken, b :: blocks =>
    let name := methodName (Text.sliceD source b.start b.stop) taken
    (b, name) :: suggestions source (taken ++ [name]) blocks

/-- What is reported on a block under a name. -/
def noteOn : Block × String → String
  | (b, name) =>
    "lines " ++ toString b.firstLine ++ "-" ++ toString b.lastLine ++ ": " ++ b.returns.javaType ++
      " " ++ name ++ "(" ++
      ", ".intercalate (b.parameters.map fun p => p.javaType ++ " " ++ p.name) ++ ")"

/-- The report consists of the notes on the blocks under the suggested names. -/
theorem notes_eq (source : String) (taken : List String) (blocks : List Block) :
    Refactoring.LongMethod.notes source taken blocks =
      (suggestions source taken blocks).map noteOn := by
  induction blocks generalizing taken with
  | nil => rfl
  | cons b blocks ih =>
    rw [Refactoring.LongMethod.notes, suggestions, List.map_cons, ← ih]
    rfl

/-- A name is chosen by which names are taken, and not by their order. -/
theorem methodName_perm {taken taken' : List String} (h : taken.Perm taken') (text : String) :
    methodName text taken = methodName text taken' := by
  have hcontains (x : String) : taken.contains x = taken'.contains x := by
    rw [Bool.eq_iff_iff, List.contains_iff_mem, List.contains_iff_mem, h.mem_iff]
  simp only [methodName, Java.uniqueName, Java.numbered, hcontains, h.length_eq]

/-- A lifted block is the one that was reported, and became the method that was suggested for it;
its name is the one suggested where the method is declared directly in a class. -/
structure Agrees (method : Node) (source : String) (reported : Block × String)
    (lifted : LiftedBlock) : Prop where
  block : MethodFlow.SameBlock (.ofMethod method source)
    (.ofMethod lifted.method lifted.source) reported.1 lifted.block
  parameters : lifted.extraction.parameters = reported.1.parameters
  returnType : lifted.extraction.returnType = reported.1.returns.javaType
  methodName : DeclaredInClass method → lifted.extraction.methodName = reported.2

theorem suggestions_congr {F F' : MethodFlow} {blocks blocks' : List Block}
    {taken taken' : List String} {direct : Prop}
    (hblocks : List.Forall₂ (MethodFlow.SameBlock F F') blocks blocks')
    (htaken : direct → taken.Perm taken') :
    List.Forall₂ (fun r r' => MethodFlow.SameBlock F F' r.1 r'.1 ∧ (direct → r.2 = r'.2))
      (suggestions F.source taken blocks) (suggestions F'.source taken' blocks') := by
  induction hblocks generalizing taken taken' with
  | nil => exact .nil
  | @cons b b' blocks blocks' hb hrest ih =>
    have hname (h : direct) : methodName (Text.sliceD F.source b.start b.stop) taken =
        methodName (Text.sliceD F'.source b'.start b'.stop) taken' := by
      rw [hb.text, methodName_perm (htaken h)]
    rw [suggestions, suggestions]
    generalize methodName (Text.sliceD F.source b.start b.stop) taken = name,
      methodName (Text.sliceD F'.source b'.start b'.stop) taken' = name' at hname ⊢
    refine .cons ⟨hb, hname⟩ (ih fun h => ?_)
    rw [hname h]
    exact (htaken h).append_right _

theorem forall₂_trans {α β γ : Type} {R : α → β → Prop} {S : β → γ → Prop} {T : α → γ → Prop}
    (h : ∀ {a b c}, R a b → S b c → T a c) {as : List α} {bs : List β} {cs : List γ}
    (hab : List.Forall₂ R as bs) (hbc : List.Forall₂ S bs cs) : List.Forall₂ T as cs := by
  induction hab generalizing cs with
  | nil =>
    cases hbc
    exact .nil
  | cons hhead _ ih =>
    cases hbc with
    | cons hhead' hrest => exact .cons (h hhead hhead') (ih hrest)

section Run

variable {text : String}
  (hgrammar : ∀ source tree, parse.verify source = .ok tree → Grammatical source tree)
  (hreparses : ∀ {text resume method b e content}, Reaches parse start settings source text resume →
    IsStep parse start settings text resume method b e content →
      Reparses parse method text b e.methodName content)
  (htypes : ∀ {text resume method b e content method'},
    Reaches parse start settings source text resume →
      IsStep parse start settings text resume method b e content →
        FindsMethod parse start content method' → KeepsTypes method text b method' content)

include hgrammar hreparses htypes

/-- From every text that a run comes to, it lifts the blocks that would be reported there. -/
theorem lift_agrees (fuel : Nat) (hreach : Reaches parse start settings source text resume)
    (hmethod : FindsMethod parse start text method)
    (hends : lift parse start settings fuel text resume ≠ .error .endless) :
    ∃ outcome steps, lift parse start settings fuel text resume = .ok outcome ∧
      Lifting parse start settings text resume steps outcome.content ∧
      outcome.extractions = steps.map (·.extraction) ∧
      List.Forall₂ (Agrees method text) (suggestions text (takenNames method text)
        (findBlocksFrom method text settings resume)) steps := by
  induction fuel generalizing text resume method with
  | zero => exact absurd rfl hends
  | succ fuel ih =>
    cases hblocks : findBlocksFrom method text settings resume with
    | nil =>
      have hnext := next?_eq_none hmethod hblocks
      refine ⟨⟨text, []⟩, [], ?_, .done hnext, rfl, .nil⟩
      rw [lift, hnext]
      rfl
    | cons b rest =>
      obtain ⟨e, content, method', hstep, hname, hparameters, htype, hmethod', hcontinues,
        hresumes⟩ := exists_next hgrammar hreparses hreach hmethod hblocks
      have hresumes := hresumes (htypes hreach hstep hmethod')
      obtain ⟨-, hrest, -⟩ := MethodFlow.blocksFrom_cons hblocks
      rw [lift_step hstep] at hends ⊢
      have hends' :
          lift parse start settings fuel content (b.firstIndex + 1) ≠ .error .endless := by
        intro hendless
        rw [hendless] at hends
        exact hends rfl
      have hgoesOn : b.returns ≠ .exit ∨ 2 ≤ settings.minSize := by
        by_contra hnot
        obtain ⟨hexit, hmin⟩ := not_or.mp hnot
        have hone : settings.minSize = 1 := by
          have hpos := settings.minSize_pos
          omega
        exact hends' (lift_endless hgrammar hreparses hone fuel (.next hreach hstep) hmethod'
          (hcontinues.meetsReturn_of_exit (not_not.mp hexit)))
      obtain ⟨outcome, steps, hlift, hlifting, hextractions, hagree⟩ :=
        ih (.next hreach hstep) hmethod' hends'
      refine ⟨{ outcome with extractions := e :: outcome.extractions },
        ⟨text, method, b, e⟩ :: steps, ?_, .step hstep hlifting, ?_, ?_⟩
      · rw [hlift]
        rfl
      · rw [hextractions, List.map_cons]
      · have htaken (hdirect : DeclaredInClass method) : (takenNames method text ++
            [e.methodName]).Perm (takenNames method' content) :=
          (List.perm_append_singleton _ _).trans (hresumes.names hdirect).2.symm
        have hbehind := suggestions_congr (hresumes.blocks hgoesOn) htaken
        rw [suggestions, ← hname, hrest]
        refine .cons ⟨.refl _ _, hparameters, htype, fun _ => rfl⟩
          (forall₂_trans (fun hab hbc => ?_) hbehind hagree)
        exact ⟨hab.1.trans hbc.block, hbc.parameters.trans hab.1.parameters.symm,
          hbc.returnType.trans (congrArg BlockReturn.javaType hab.1.returns.symm), fun hdirect =>
            (hbc.methodName (hresumes.names hdirect).1).trans (hab.2 hdirect).symm⟩

end Run

/-- The report and the lifting agree.  Where the source after each step parses as the grammar has it
to the tree before it with the call in place of the block and the new method behind the old one, and
where each step leaves the variables behind its block known by the types that they had, a run that
ends lifts the reported blocks one after the other: as many, each covering the statements of the
reported one, with its parameters and return type, and with the suggested name if the method is
declared directly in a class or record. -/
theorem extractAll_agrees
    (hgrammar : ∀ source tree, parse.verify source = .ok tree → Grammatical source tree)
    (hmethod : FindsMethod parse method.start source method)
    (hreparses : ∀ {text resume method' b e content},
      Reaches parse method.start settings source text resume →
        IsStep parse method.start settings text resume method' b e content →
          Reparses parse method' text b e.methodName content)
    (htypes : ∀ {text resume method' b e content method''},
      Reaches parse method.start settings source text resume →
        IsStep parse method.start settings text resume method' b e content →
          FindsMethod parse method.start content method'' →
            KeepsTypes method' text b method'' content)
    (hends : extractAll parse source method.start settings ≠ .error .endless) :
    ∃ outcome steps, extractAll parse source method.start settings = .ok outcome ∧
      Lifting parse method.start settings source 0 steps outcome.content ∧
      outcome.extractions = steps.map (·.extraction) ∧
      List.Forall₂ (Agrees method source) (suggestions source (takenNames method source)
        (findBlocks method source settings)) steps :=
  lift_agrees hgrammar hreparses htypes _ .here hmethod hends

end Agreement

/-! ### A type that a nested block hides

In the method of one class a statement declares `x` and the next one assigns it.  In the method of
another a nested block comes first that declares another `x`, so that the type of `x` is not known
until that block is lifted.
-/

namespace Sample

/-- A tree without children. -/
def leaf (kind : Kind) (field : Field) (i j : Nat) : Tree := ⟨kind, some field, false, i, j, []⟩

/-- The call of a lifted method. -/
def call (field : Option Field) (i : Nat) : Tree :=
  ⟨.methodInvocation, field, false, i, i + 17,
    [leaf .identifier .name i (i + 15), leaf .argumentList .arguments (i + 15) (i + 17)]⟩

/-- The call as a statement. -/
def callStatement (i : Nat) : Tree :=
  ⟨.expressionStatement, none, false, i, i + 18, [call none i]⟩

/-- The block that declares `A x`. -/
def inner (i : Nat) : Tree :=
  ⟨.block, none, false, i, i + 6,
    [⟨.localVariableDeclaration, none, false, i + 1, i + 5,
      [leaf .typeIdentifier .type (i + 1) (i + 2),
        ⟨.variableDeclarator, some .declarator, false, i + 3, i + 4,
          [leaf .identifier .name (i + 3) (i + 4)]⟩]⟩]⟩

/-- The declaration of `int x` with a value. -/
def declaration (i : Nat) (value : Tree) : Tree :=
  ⟨.localVariableDeclaration, none, false, i, value.stop + 1,
    [leaf .integralType .type i (i + 3),
      ⟨.variableDeclarator, some .declarator, false, i + 4, value.stop,
        [leaf .identifier .name (i + 4) (i + 5), value]⟩]⟩

/-- The declaration with the value 1. -/
def one (i : Nat) : Tree := declaration i (leaf .decimalIntegerLiteral .value (i + 6) (i + 7))

/-- The declaration with the value that a lifted method returns. -/
def handed (i : Nat) : Tree := declaration i (call (some .value) (i + 8))

/-- The statement that assigns `x`. -/
def assignment (i : Nat) : Tree :=
  ⟨.expressionStatement, none, false, i, i + 4,
    [⟨.assignmentExpression, none, false, i, i + 3,
      [leaf .identifier .left i (i + 1), leaf (.token "=") .operator (i + 1) (i + 2),
        leaf .decimalIntegerLiteral .right (i + 2) (i + 3)]⟩]⟩

/-- The statement that returns `x`. -/
def handBack (i : Nat) : Tree :=
  ⟨.returnStatement, none, false, i, i + 9, [⟨.identifier, none, false, i + 7, i + 8, []⟩]⟩

/-- The method that is lifted from. -/
def method (stop : Nat) (statements : List Tree) : Tree :=
  ⟨.methodDeclaration, none, false, 8, stop,
    [leaf .voidType .type 8 12, leaf .identifier .name 13 14,
      leaf .formalParameters .parameters 14 16, ⟨.block, some .body, false, 16, stop, statements⟩]⟩

/-- A lifted method whose type ends at `j`. -/
def lifted (type : Kind) (i j stop : Nat) (statements : List Tree) : Tree :=
  ⟨.methodDeclaration, none, false, i, stop,
    [⟨.modifiers, none, false, i, i + 7, []⟩, leaf type .type (i + 8) j,
      leaf .identifier .name (j + 1) (j + 16), leaf .formalParameters .parameters (j + 16) (j + 18),
      ⟨.block, some .body, false, j + 19, stop, statements⟩]⟩

/-- The body of the class. -/
def classBody (stop : Nat) (methods : List Tree) : Tree :=
  ⟨.classBody, some .body, false, 7, stop, methods⟩

/-- The class. -/
def classDeclaration (stop : Nat) (methods : List Tree) : Tree :=
  ⟨.classDeclaration, none, false, 0, stop, [leaf .identifier .name 6 7, classBody stop methods]⟩

/-- The source file. -/
def file (stop : Nat) (methods : List Tree) : Tree :=
  ⟨.program, none, false, 0, stop, [classDeclaration stop methods]⟩

/-- The first method of the file. -/
def first (stop : Nat) (m : Tree) (later : List Tree) : Node :=
  ⟨m, [(classBody stop (m :: later), 0), (classDeclaration stop (m :: later), 1),
    (file stop (m :: later), 0)]⟩

/-- The class without the nested block. -/
def plain : String := "class A\x7bvoid f()\x7b\nint x=1;\nx=2;\x7d\x7d"

/-- Its method. -/
def plainMethod : Node := first 33 (method 32 [one 18, assignment 27]) []

/-- The declaration in it. -/
def plainBlock : Block := ⟨0, 0, 2, 2, 18, 26, {}, ⟨["x"]⟩, [], .variable "x" "int"⟩

/-- The class without the nested block after the declaration was lifted. -/
def plainLifted : String :=
  "class A\x7bvoid f()\x7b\nint x = extractedBlock1();\nx=2;\x7d\n\n" ++
    "private int extractedBlock1() \x7b\nint x=1;\nreturn x;\n\x7d\x7d"

/-- Its method. -/
def plainLiftedMethod : Node :=
  first 105 (method 50 [handed 18, assignment 45])
    [lifted .integralType 52 63 104 [one 84, handBack 93]]

/-- The class with the nested block. -/
def nested : String := "class A\x7bvoid f()\x7b\n\x7bA x;\x7d\nint x=1;\nx=2;\x7d\x7d"

/-- Its method. -/
def nestedMethod : Node := first 40 (method 39 [inner 18, one 25, assignment 34]) []

/-- The nested block in it. -/
def nestedBlock : Block := ⟨0, 0, 2, 2, 18, 24, {}, ⟨["x"]⟩, [], .nothing⟩

/-- The class with the nested block after that block was lifted. -/
def nestedLifted : String :=
  "class A\x7bvoid f()\x7b\nextractedBlock1();\nint x=1;\nx=2;\x7d\n\n" ++
    "private void extractedBlock1() \x7b\n\x7bA x;\x7d\n\x7d\x7d"

/-- Its method. -/
def nestedLiftedMethod : Node :=
  first 95 (method 51 [callStatement 18, one 37, assignment 46])
    [lifted .voidType 53 65 94 [inner 86]]

/-- The declaration in it. -/
def nestedLiftedBlock : Block := ⟨1, 1, 3, 3, 37, 45, {}, ⟨["x"]⟩, [], .variable "x" "int"⟩

/-- The class with the nested block after the declaration was lifted, too. -/
def bothLifted : String :=
  "class A\x7bvoid f()\x7b\nextractedBlock1();\nint x = extractedBlock2();\nx=2;\x7d\n\n" ++
    "private int extractedBlock2() \x7b\nint x=1;\nreturn x;\n\x7d\n\n" ++
    "private void extractedBlock1() \x7b\n\x7bA x;\x7d\n\x7d\x7d"

/-- Its method. -/
def bothLiftedMethod : Node :=
  first 167 (method 69 [callStatement 18, handed 37, assignment 64])
    [lifted .integralType 71 82 123 [one 103, handBack 112],
      lifted .voidType 125 137 166 [inner 158]]

/-- The texts, each with the method in it. -/
def samples : List (String × Node) :=
  [(plain, plainMethod), (plainLifted, plainLiftedMethod), (nested, nestedMethod),
    (nestedLifted, nestedLiftedMethod), (bothLifted, bothLiftedMethod)]

/-- The file that a method is in. -/
def fileOf (n : Node) : Tree := (n.above.getLast?.map (·.1)).getD n.tree

/-- The parser of these texts. -/
def parse : Parser := fun text => (samples.find? (·.1 = text)).map fun e => fileOf e.2

deriving instance DecidableEq for Block

theorem grammatical (source : String) (tree : Tree) (h : parse.verify source = .ok tree) :
    Grammatical source tree := by
  have hall : ∀ e ∈ samples, Grammatical e.1 (fileOf e.2) := by decide +kernel
  rw [Parser.verify, parse] at h
  cases hfind : samples.find? (·.1 = source) with
  | none =>
    rw [hfind] at h
    cases h
  | some e =>
    rw [hfind, Option.map_some] at h
    cases herror : (fileOf e.2).hasError with
    | true => simp [herror] at h
    | false =>
      have hsource : e.1 = source := by simpa using List.find?_some hfind
      have htree : fileOf e.2 = tree := by simpa [herror] using h
      exact hsource ▸ htree ▸ hall e (List.mem_of_find?_eq_some hfind)

theorem findsMethod {source : String} {stop n : Nat} {statements later : List Tree}
    (h : parse.verify source = .ok (file stop (method n statements :: later))) :
    FindsMethod parse 8 source (first stop (method n statements) later) :=
  ⟨_, h, rfl⟩

/-- The blocks found in the texts on the way. -/
theorem blocks : findBlocksFrom plainMethod plain (.of 1 1) 0 = [plainBlock] ∧
    findBlocksFrom plainLiftedMethod plainLifted (.of 1 1) 1 = [] ∧
    findBlocksFrom nestedMethod nested (.of 1 1) 0 = [nestedBlock] ∧
    findBlocksFrom nestedLiftedMethod nestedLifted (.of 1 1) 1 = [nestedLiftedBlock] ∧
    findBlocksFrom bothLiftedMethod bothLifted (.of 1 1) 2 = [] := by
  decide +kernel

theorem declaredName?_lifted (source : String) (type : Kind) (i j stop : Nat)
    (statements : List Tree) : Java.declaredName? (.root (lifted type i j stop statements)) source =
      some (Text.sliceD source (j + 1) (j + 16)) :=
  rfl

/-- The names chosen on the way, and those of the lifted methods. -/
theorem names :
    methodName (Text.sliceD plain 18 26) (takenNames plainMethod plain) = "extractedBlock1" ∧
    methodName (Text.sliceD nested 18 24) (takenNames nestedMethod nested) = "extractedBlock1" ∧
    methodName (Text.sliceD nestedLifted 37 45) (takenNames nestedLiftedMethod nestedLifted) =
      "extractedBlock2" ∧
    Text.sliceD plainLifted 64 79 = "extractedBlock1" ∧
    Text.sliceD nestedLifted 66 81 = "extractedBlock1" ∧
    Text.sliceD bothLifted 83 98 = "extractedBlock2" := by
  decide +kernel

/-- The methods written on the way. -/
theorem declarations :
    declarationText plainMethod plain plainBlock "extractedBlock1" =
      "\n\nprivate int extractedBlock1() \x7b\nint x=1;\nreturn x;\n\x7d" ∧
    declarationText nestedMethod nested nestedBlock "extractedBlock1" =
      "\n\nprivate void extractedBlock1() \x7b\n\x7bA x;\x7d\n\x7d" ∧
    declarationText nestedLiftedMethod nestedLifted nestedLiftedBlock "extractedBlock2" =
      "\n\nprivate int extractedBlock2() \x7b\nint x=1;\nreturn x;\n\x7d" := by
  decide +kernel

theorem step_plain : IsStep parse 8 (.of 1 1) plain 0 plainMethod plainBlock
    ⟨"extractedBlock1", 2, 2, [], "int"⟩ plainLifted := by
  have hpieces : Pieces plainMethod plain plainBlock "extractedBlock1" plainLifted
      "class A\x7bvoid f()\x7b\n" "int x=1;" "\nx=2;\x7d" "\x7d" := by
    refine ⟨⟨rfl, rfl, rfl⟩, rfl, ?_⟩
    rw [declarations.1]
    rfl
  exact isStep_of_pieces (findsMethod rfl) (congrArg List.head? blocks.1) names.1 hpieces

theorem step_nested : IsStep parse 8 (.of 1 1) nested 0 nestedMethod nestedBlock
    ⟨"extractedBlock1", 2, 2, [], "void"⟩ nestedLifted := by
  have hpieces : Pieces nestedMethod nested nestedBlock "extractedBlock1" nestedLifted
      "class A\x7bvoid f()\x7b\n" "\x7bA x;\x7d" "\nint x=1;\nx=2;\x7d" "\x7d" := by
    refine ⟨⟨rfl, rfl, rfl⟩, rfl, ?_⟩
    rw [declarations.2.1]
    rfl
  exact isStep_of_pieces (findsMethod rfl) (congrArg List.head? blocks.2.2.1) names.2.1 hpieces

theorem step_nestedLifted : IsStep parse 8 (.of 1 1) nestedLifted 1 nestedLiftedMethod
    nestedLiftedBlock ⟨"extractedBlock2", 3, 3, [], "int"⟩ bothLifted := by
  have hpieces : Pieces nestedLiftedMethod nestedLifted nestedLiftedBlock "extractedBlock2"
      bothLifted "class A\x7bvoid f()\x7b\nextractedBlock1();\n" "int x=1;" "\nx=2;\x7d"
      "\n\nprivate void extractedBlock1() \x7b\n\x7bA x;\x7d\n\x7d\x7d" := by
    refine ⟨⟨rfl, rfl, rfl⟩, rfl, ?_⟩
    rw [declarations.2.2]
    rfl
  exact isStep_of_pieces (findsMethod rfl) (congrArg List.head? blocks.2.2.2.1) names.2.2.1 hpieces

theorem reparses_plain :
    Reparses parse plainMethod plain plainBlock "extractedBlock1" plainLifted := by
  refine ⟨[handed 18], lifted .integralType 52 63 104 [one 84, handBack 93], plainLiftedMethod.tree,
    ⟨_, rfl⟩, rfl, ?_, rfl, ?_⟩
  · rw [declaredName?_lifted, names.2.2.2.1]
  · rw [declarations.1]
    rfl

theorem reparses_nested :
    Reparses parse nestedMethod nested nestedBlock "extractedBlock1" nestedLifted := by
  refine ⟨[callStatement 18], lifted .voidType 53 65 94 [inner 86], nestedLiftedMethod.tree,
    ⟨_, rfl⟩, rfl, ?_, rfl, ?_⟩
  · rw [declaredName?_lifted, names.2.2.2.2.1]
  · rw [declarations.2.1]
    rfl

set_option maxRecDepth 1000 in
theorem reparses_nestedLifted :
    Reparses parse nestedLiftedMethod nestedLifted nestedLiftedBlock "extractedBlock2"
      bothLifted := by
  refine ⟨[handed 37], lifted .integralType 71 82 123 [one 103, handBack 112],
    bothLiftedMethod.tree, ⟨_, rfl⟩, rfl, ?_, rfl, ?_⟩
  · rw [declaredName?_lifted, names.2.2.2.2.2]
  · rw [declarations.2.2]
    rfl

theorem next?_plainLifted : next? parse plainLifted 8 (.of 1 1) 1 = .ok none :=
  next?_eq_none (findsMethod rfl) blocks.2.1

set_option maxRecDepth 1000 in
theorem next?_bothLifted : next? parse bothLifted 8 (.of 1 1) 2 = .ok none :=
  next?_eq_none (findsMethod rfl) blocks.2.2.2.2

theorem reaches_plain {text : String} {resume : Nat}
    (h : Reaches parse 8 (.of 1 1) plain text resume) :
    (text, resume) = (plain, 0) ∨ (text, resume) = (plainLifted, 1) := by
  induction h with
  | here => exact Or.inl rfl
  | next _ hstep ih =>
    rcases ih with h | h <;> cases h
    · obtain ⟨-, rfl, -, rfl⟩ := hstep.unique step_plain
      exact Or.inr rfl
    · cases hstep.next.symm.trans next?_plainLifted

theorem reaches_nested {text : String} {resume : Nat}
    (h : Reaches parse 8 (.of 1 1) nested text resume) :
    (text, resume) = (nested, 0) ∨ (text, resume) = (nestedLifted, 1) ∨
      (text, resume) = (bothLifted, 2) := by
  induction h with
  | here => exact Or.inl rfl
  | next _ hstep ih =>
    rcases ih with h | h | h <;> cases h
    · obtain ⟨-, rfl, -, rfl⟩ := hstep.unique step_nested
      exact Or.inr (Or.inl rfl)
    · obtain ⟨-, rfl, -, rfl⟩ := hstep.unique step_nestedLifted
      exact Or.inr (Or.inr rfl)
    · cases hstep.next.symm.trans next?_bothLifted

theorem suggestions_plain : suggestions plain (takenNames plainMethod plain)
    (findBlocks plainMethod plain (.of 1 1)) = [(plainBlock, "extractedBlock1")] := by
  rw [findBlocks, blocks.1, suggestions, suggestions]
  exact congrArg (fun name => [(plainBlock, name)]) names.1

/-- In the class without the nested block the declaration is reported and lifted. -/
theorem plain_agrees : ∃ outcome steps,
    extractAll parse plain plainMethod.start (.of 1 1) = .ok outcome ∧
      Lifting parse plainMethod.start (.of 1 1) plain 0 steps outcome.content ∧
      outcome.extractions = steps.map (·.extraction) ∧
      List.Forall₂ (Agrees plainMethod plain) [(plainBlock, "extractedBlock1")] steps := by
  rw [← suggestions_plain]
  refine extractAll_agrees grammatical (findsMethod rfl) (fun hreach hstep => ?_)
    (fun hreach hstep hfinds => ?_) ?_
  · rcases reaches_plain hreach with h | h <;> cases h
    · obtain ⟨rfl, rfl, rfl, rfl⟩ := hstep.unique step_plain
      exact reparses_plain
    · cases hstep.next.symm.trans next?_plainLifted
  · rcases reaches_plain hreach with h | h <;> cases h
    · obtain ⟨rfl, rfl, rfl, rfl⟩ := hstep.unique step_plain
      have hlifted : FindsMethod parse 8 plainLifted plainLiftedMethod := findsMethod rfl
      obtain rfl := hfinds.unique hlifted
      decide +kernel
    · cases hstep.next.symm.trans next?_plainLifted
  · have hlift := (Lifting.step step_plain (.done next?_plainLifted)).lift_eq
      (show 1 < plain.utf8ByteSize + 2 by decide)
    intro hendless
    cases hlift.symm.trans hendless

/-- In the class with the nested block only that block is reported, but the declaration is lifted,
too. -/
theorem nested_disagrees :
    (∀ source tree, parse.verify source = .ok tree → Grammatical source tree) ∧
    FindsMethod parse nestedMethod.start nested nestedMethod ∧
    (∀ text resume m b e content, Reaches parse nestedMethod.start (.of 1 1) nested text resume →
      IsStep parse nestedMethod.start (.of 1 1) text resume m b e content →
        Reparses parse m text b e.methodName content) ∧
    findBlocks nestedMethod nested (.of 1 1) = [nestedBlock] ∧
    extractAll parse nested nestedMethod.start (.of 1 1) = .ok ⟨bothLifted,
      [⟨"extractedBlock1", 2, 2, [], "void"⟩, ⟨"extractedBlock2", 3, 3, [], "int"⟩]⟩ := by
  refine ⟨grammatical, findsMethod rfl, fun text resume m b e content hreach hstep => ?_,
    blocks.2.2.1, ?_⟩
  · rcases reaches_nested hreach with h | h | h <;> cases h
    · obtain ⟨rfl, rfl, rfl, rfl⟩ := hstep.unique step_nested
      exact reparses_nested
    · obtain ⟨rfl, rfl, rfl, rfl⟩ := hstep.unique step_nestedLifted
      exact reparses_nestedLifted
    · cases hstep.next.symm.trans next?_bothLifted
  · exact (Lifting.step step_nested (.step step_nestedLifted (.done next?_bothLifted))).lift_eq
      (show 2 < nested.utf8ByteSize + 2 by decide)

end Sample

end Amend.Extraction
