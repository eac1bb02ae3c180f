import Amend.Build.Command
import Amend.Project
import Amend.Validation.Verdict

/-!
# Checking single files

A file is parsed and, if it parses and a compiler can be asked, compiled alone into a directory
that is removed afterwards.
-/

namespace Amend

/-- What it takes to check the files of a project. -/
structure Validator where
  parse : Syntax.Parser
  launch : Build.Launcher
  policy : Build.TerminationPolicy
  compiles : Bool
  /-- The compiler to ask. -/
  javac : Option Path
  classpath : Option String
  sourceRoots : List Path

namespace Validator

/-- The source directories of the settings, else those that the project has. -/
def rootsOf (w : World) (root : Path) (s : ValidatorSettings) : List Path :=
  if s.sourceRoots.isEmpty then Project.sourceRoots w root else s.sourceRoots.map root.join

/-- The validator of a project. -/
def ofSettings (parse : Syntax.Parser) (launch : Build.Launcher) (w : World) (root : Path)
    (s : ValidatorSettings) (b : BuildSettings) : Validator where
  parse
  launch
  policy := .ofSettings b
  compiles := s.compiles
  javac := s.javac.or (w.program? "javac")
  classpath := s.classpath.or (Project.classpath? w root)
  sourceRoots := rootsOf w root s

/-- The compiler, if it can be there: a lone name is looked for when it is started. -/
def compiler? (v : Validator) (w : World) : Option Path :=
  v.javac.filter fun j => w.pathExists j || j.components.length = 1

/-- The command line that compiles a file into a directory. -/
def command (v : Validator) (compiler dir file : Path) : List String :=
  [compiler.text, "-d", dir.text, "-proc:none", "-implicit:none"] ++
    (if v.sourceRoots.isEmpty then []
      else ["-sourcepath", (Project.joinPaths? v.sourceRoots).getD ""]) ++
    (match v.classpath with
      | some cp => ["-cp", cp]
      | none => []) ++
    [file.text]

/-- Compiles a file into a directory of its own and removes the directory. -/
def compile (v : Validator) (compiler file : Path) : Act Build.RunError Build.ProcessOutcome := do
  let dir ← World.makeTemporaryDirectory.mapError fun e => .toolExecution "javac" e.message
  let result ← (v.launch v.policy (v.command compiler dir file) (file.parent?.getD ⟨"."⟩)).outcome
  World.removeTree dir
  Act.ofExcept result

/-- The verdict on a file. -/
def check (v : Validator) (file : Path) : StateM World Verdict := do
  match ← (World.readText file).settle with
  | .error e => return .failure 0 ("cannot read " ++ file.text ++ ": " ++ e.message) "io"
  | .ok source =>
    let verdict := Verdict.ofSyntax v.parse source
    if !verdict.success || !v.compiles then return verdict
    match v.compiler? (← get) with
    | none => return verdict.degrade
    | some compiler =>
      match ← (v.compile compiler file).settle with
      | .ok process => return .ofJavac process.success process.output
      | .error _ => return verdict.degrade

end Validator

end Amend
