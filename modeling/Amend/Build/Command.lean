import Amend.Build.Step
import Amend.World

/-!
# Build commands

Which command lines build and test a project: those of its settings, else those of the tool that
the project declares, called through the project's own script if it has one.
-/

namespace Amend.Build

/-- What starts programs: under a time policy, a command line, in a directory. -/
abbrev Launcher := TerminationPolicy → List String → Path → Act RunError ProcessOutcome

/-- The tool that a project declares. -/
def Tool.declared? (w : World) (root : Path) : Option Tool :=
  (Tool.manifests.find? fun (_, files) => files.any fun f => w.pathExists (root ++ f)).map (·.1)

/-- The program that runs a tool: the script of the project, else the installed one. -/
def Tool.executable? (t : Tool) (w : World) (root : Path) : Option Path :=
  let own := (t.wrapper?.map fun script => root ++ script).filter w.isFile
  own.or (w.program? t.binary)

/-- Why no command line is known. -/
inductive Missing where
  /-- The project declares no tool. -/
  | noManifest
  /-- The tool is not installed. -/
  | noProgram (tool : Tool)
deriving DecidableEq

/-- The report of a missing command. -/
def Missing.message : Missing → String
  | .noManifest => "no pom.xml, build.gradle or build.xml in project root"
  | .noProgram tool => tool.binary ++ " not found on PATH"

/-- The command lines of a project. -/
structure Commands where
  tool : Option Tool
  compile : Option (List String)
  test : Option (List String)
  missing : Option Missing := none

namespace Commands

/-- The command lines of the settings; an empty one counts as none. -/
def ofSettings (tool : Option Tool) (s : BuildSettings) : Commands where
  tool
  compile := s.compileCommand.filter (!·.isEmpty)
  test := s.testCommand.filter (!·.isEmpty)

/-- The command lines with those of a tool where there is none yet. -/
def complete (c : Commands) (t : Tool) (program : Path) : Commands :=
  { c with compile := c.compile.or (some (program.text :: t.compileArgs))
           test := c.test.or (some (program.text :: t.testArgs)) }

/-- The command lines of a project. -/
def resolve (w : World) (root : Path) (s : BuildSettings) : Commands :=
  let c := ofSettings (Tool.declared? w root) s
  if c.compile.isSome && c.test.isSome then c
  else
    match c.tool with
    | none => { c with missing := some .noManifest }
    | some t =>
      match t.executable? w root with
      | none => { c with missing := some (.noProgram t) }
      | some program => c.complete t program

/-- Written command lines. -/
def toJson (c : Commands) : Json :=
  .obj [("tool", .opt (.str ·.name) c.tool), ("compile", .opt (.list .str) c.compile),
    ("test", .opt (.list .str) c.test), ("missing", .opt (.str ·.message) c.missing)]

/-- The steps of a project with these command lines. -/
def verifier (c : Commands) (s : BuildSettings) : Verifier :=
  let runner (step : String) (command : List String) : Runner :=
    { name := (c.tool.map (·.name)).getD "build" ++ " " ++ step, command
      timeoutSecs := some s.timeout }
  { tool := c.tool
    compile := c.compile.map (runner "compile")
    test := c.test.map (runner "test")
    missing := c.missing.map (·.message)
    requireTool := s.requiresBuildTool }

end Commands

/-- Runs a step in a directory. -/
def runIn (launch : Launcher) (s : BuildSettings) (dir : Path) : Verifier.Run World :=
  fun runner w => (launch (.ofSettings s) runner.command dir).apply w

end Amend.Build
