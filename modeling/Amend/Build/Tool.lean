import Amend.Build.TestCounts

/-!
# Build tools

The build tools that a project can declare, how each is called, and in which form each writes its
messages and test summaries.
-/

namespace Amend.Build

/-- A build tool. -/
inductive Tool where
  | maven
  | gradle
  | ant
deriving DecidableEq

namespace Tool

/-- The name of the tool. -/
def name : Tool → String
  | .maven => "maven"
  | .gradle => "gradle"
  | .ant => "ant"

/-- The program of the tool. -/
def binary : Tool → String
  | .maven => "mvn"
  | .gradle => "gradle"
  | .ant => "ant"

/-- The script in a project that runs its own copy of the tool. -/
def wrapper? : Tool → Option String
  | .maven => some "mvnw"
  | .gradle => some "gradlew"
  | .ant => none

/-- The files of which one declares the tool, in the order in which tools are looked for. -/
def manifests : List (Tool × List String) :=
  [(.maven, ["pom.xml"]), (.gradle, ["build.gradle", "build.gradle.kts"]), (.ant, ["build.xml"])]

/-- The arguments of the compile step. -/
def compileArgs : Tool → List String
  | .maven => ["-B", "-q", "clean", "compile"]
  | .gradle => ["clean", "compileJava", "compileTestJava"]
  | .ant => ["clean", "compile"]

/-- The arguments of the test step. -/
def testArgs : Tool → List String
  | .maven => ["-B", "-q", "test"]
  | .gradle => ["test"]
  | .ant => ["test"]

end Tool

/-- The compiler messages in the output of a build step. Without a known tool both forms count. -/
def diagnostics (tool : Option Tool) (output : String) : List Diagnostic :=
  match tool with
  | some .maven =>
    let found := Diagnostic.ofMaven output
    if found.isEmpty then Diagnostic.ofJavac output else found
  | some .gradle | some .ant => Diagnostic.ofJavac output
  | none => Diagnostic.ofJavac output ++ Diagnostic.ofMaven output

/-- The totals in the output of a test step. Without a known tool the first form wins. -/
def testCounts? (tool : Option Tool) (output : String) : Option TestCounts :=
  match tool with
  | some .maven | some .ant => TestCounts.ofSurefire? output
  | some .gradle => TestCounts.ofGradle? output
  | none => (TestCounts.ofSurefire? output).or (TestCounts.ofGradle? output)

end Amend.Build
