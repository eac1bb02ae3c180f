import Amend.World

/-!
# Project directories

Where a project starts, where its sources lie and which compiled classes it has at hand, all told
from the names of files and directories alone.
-/

namespace Amend.Project

/-- Files of which one marks the root of a project. -/
def rootMarkers : List String :=
  ["pom.xml", "build.gradle", "build.gradle.kts", "settings.gradle", "settings.gradle.kts",
   "build.xml"]

/-- Whether a directory holds a marker. -/
def isRoot (w : World) (dir : Path) : Bool := rootMarkers.any fun m => w.isFile (dir ++ m)

/-- The nearest directory, upwards from a start, that is the root of a project. A start that is a
file stands for its directory. -/
def findRoot? (w : World) (start : Path) : Option Path :=
  let first? := if w.isFile start then start.parent? else some start
  first?.bind fun first => first.ancestors.find? (isRoot w)

/-- Conventional places of sources below a root. -/
def sourceDirs : List String := ["src/main/java", "src/test/java", "src"]

/-- The conventional source directories that there are. -/
def sourceRoots (w : World) (root : Path) : List Path :=
  (sourceDirs.map fun dir => root ++ dir).filter w.isDirectory

/-- Directories of compiled classes that build tools leave behind. -/
def outputDirs : List String :=
  ["target/classes", "target/test-classes", "build/classes/java/main", "build/classes/java/test"]

/-- Directories whose archives are on the class path. -/
def archiveDirs : List String := ["target/dependency", "build/dependencies", "lib", "libs"]

/-- The archives in a directory, sorted by name. -/
def archivesIn (w : World) (dir : Path) : List Path :=
  match w.disk.locate (w.absolute dir) with
  | .ok l => ((w.disk.names l).map fun name => dir ++ name).filter (·.extension? == some "jar")
  | .error _ => []

/-- Paths in one text with colons between them; none if a path holds a colon itself. -/
def joinPaths? (paths : List Path) : Option String :=
  if paths.any fun p => Text.contains p.text ":" then none
  else some (":".intercalate (paths.map (·.text)))

/-- The class path that the build output and the archives of a project make up; none if there is
nothing to put on it. -/
def classpath? (w : World) (root : Path) : Option String :=
  let entries := (outputDirs.map fun dir => root ++ dir).filter w.isDirectory ++
    archiveDirs.flatMap fun dir => archivesIn w (root ++ dir)
  if entries.isEmpty then none else joinPaths? entries

end Amend.Project
