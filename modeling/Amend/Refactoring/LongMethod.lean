import Amend.Refactoring.Rewrite

/-!
# Long methods

Two refactorings answer a long method: one reports the blocks that could become methods, the
other lifts them.
-/

namespace Amend.Refactoring.LongMethod

open Syntax Extraction

/-- The method that a defect points at and its name, if it has more than `threshold`
statements. -/
def target (refactoring : String) (threshold : Nat) (d : Defect) (source : String)
    (tree : Tree) : Except RewriteError (Node × String) :=
  match Java.findMethod? (.root tree) source d.elementName? d.startLine with
  | none => .error (.refused refactoring .noMethod)
  | some method =>
    let name := (Java.declaredName? method source).getD "<anonymous>"
    let count := (Java.bodyStatements method).length
    if count ≤ threshold then
      .error (.refused refactoring (.fewStatements name count threshold))
    else .ok (method, name)

/-- The note on a block and the name suggested for it, none of the taken ones. -/
def note (source : String) (taken : List String) (block : Block) : String × String :=
  let suggested := methodName (Text.sliceD source block.start block.stop) taken
  let params := ", ".intercalate (block.parameters.map fun p => p.javaType ++ " " ++ p.name)
  ("lines " ++ toString block.firstLine ++ "-" ++ toString block.lastLine ++ ": " ++
    block.returns.javaType ++ " " ++ suggested ++ "(" ++ params ++ ")", suggested)

/-- The notes on blocks in order; each suggested name is taken for the next. -/
def notes (source : String) : List String → List Block → List String
  | _, [] => []
  | taken, block :: blocks =>
    let (text, suggested) := note source taken block
    text :: notes source (taken ++ [suggested]) blocks

/-- The report on a long method. -/
def advise (threshold : Nat) (settings : BlockSettings) (d : Defect) (source : String)
    (tree : Tree) : Except RewriteError Rewrite := do
  let (method, name) ← target "extract-method-advisory" threshold d source tree
  let found := notes source (takenNames method source) (findBlocks method source settings)
  if found.isEmpty then
    return .advice (name ++ " is long but no block can be extracted safely") []
  else
    return .advice (toString found.length ++ " extractable block(s) in " ++ name) found

/-- The rewrite of a long method. Its shift counts the lines that the source gains. -/
def extract (threshold : Nat) (settings : BlockSettings) (parse : Parser) (d : Defect)
    (source : String) (tree : Tree) : Except RewriteError Rewrite := do
  let (method, name) ← target "extract-method" threshold d source tree
  match extractAll parse source method.start settings with
  | .error e => throw (.extraction e)
  | .ok outcome =>
    if outcome.extractions.isEmpty then throw (.refused "extract-method" (.nothingToExtract name))
    else
      let delta : Int := (Text.lineCount outcome.content : Int) - Text.lineCount source
      let names := ", ".intercalate (outcome.extractions.map (·.methodName))
      return .edit outcome.content [⟨method.lastLine source, delta⟩]
        ("Extracted " ++ names ++ " from " ++ name)

end LongMethod

/-- Reports the blocks of a long method that could become methods. -/
def adviseExtraction (threshold : Nat) (settings : Extraction.BlockSettings) : Refactoring where
  name := "extract-method-advisory"
  categories := ["long-method"]
  advisory := true
  rewrite := fun _ d source tree => LongMethod.advise threshold settings d source tree

/-- Lifts the blocks of a long method into methods. -/
def extractMethod (threshold : Nat) (settings : Extraction.BlockSettings) : Refactoring where
  name := "extract-method"
  categories := ["long-method"]
  rewrite := LongMethod.extract threshold settings

end Amend.Refactoring
