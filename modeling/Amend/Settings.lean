import Amend.Refactoring.Catalog

/-!
# Settings

The settings file of a project. Every setting may be left out; what then holds is stated by the
reader of each setting, so that no other part sees an absent value.
-/

namespace Amend

/-- What a wrong checksum means when a snapshot is restored. -/
inductive ChecksumPolicy where
  /-- The restore fails. -/
  | strict
  /-- The restore goes on. -/
  | advisory
deriving DecidableEq

/-- The written name of a policy. -/
def ChecksumPolicy.name : ChecksumPolicy → String
  | .strict => "strict"
  | .advisory => "advisory"

/-- Settings of the snapshot store. -/
structure SnapshotSettings where
  dir : Option Path := none
  keep : Option Nat := none
  checksumPolicy : Option ChecksumPolicy := none
  lockStaleSecs : Option Nat := none

/-- Settings of build and test runs. -/
structure BuildSettings where
  timeoutSecs : Option Nat := none
  graceSecs : Option Nat := none
  compileCommand : Option (List String) := none
  testCommand : Option (List String) := none
  requireBuildTool : Option Bool := none

/-- Settings of the check of single files. -/
structure ValidatorSettings where
  fullCompile : Option Bool := none
  javac : Option Path := none
  classpath : Option String := none
  sourceRoots : List Path := []

/-- Settings of a workflow run. -/
structure WorkflowSettings where
  dryRun : Option Bool := none
  stopOnFirstFailure : Option Bool := none
  runBuild : Option Bool := none
  runTests : Option Bool := none

/-- Settings of the lifting of blocks. -/
structure ExtractMethodSettings where
  threshold : Option Nat := none
  minBlock : Option Nat := none
  maxBlock : Option Nat := none
  autoApply : Option Bool := none

/-- All settings of a project. -/
structure Settings where
  snapshots : SnapshotSettings := {}
  build : BuildSettings := {}
  validator : ValidatorSettings := {}
  workflow : WorkflowSettings := {}
  extractMethod : ExtractMethodSettings := {}
  maxParameters : Option Nat := none

namespace SnapshotSettings

/-- The directory of snapshots, below the project root unless absolute. -/
def directory (s : SnapshotSettings) (root : Path) : Path :=
  root.join (s.dir.getD ⟨".refit/backups"⟩)

/-- How many snapshots of a file are kept, at least one. -/
def kept (s : SnapshotSettings) : Nat := max (s.keep.getD 5) 1

/-- What a wrong checksum means. -/
def policy (s : SnapshotSettings) : ChecksumPolicy := s.checksumPolicy.getD .strict

/-- The age in seconds from which a lock counts as abandoned. -/
def staleSecs (s : SnapshotSettings) : Nat := s.lockStaleSecs.getD 600

/-- The fields of the written section. -/
def fieldNames : List (String × Bool) :=
  [("dir", false), ("keep", false), ("checksum_policy", false), ("lock_stale_secs", false)]

/-- Reads the section. -/
def ofJson? (j : Json) : Option SnapshotSettings := do
  match ← j.fields? fieldNames with
  | [dir, keep, policy, stale] =>
    return { dir := (← (dir.getD .null).nullable? Json.str?).map Path.mk
             keep := ← (keep.getD .null).nullable? Json.word?
             checksumPolicy := ← (policy.getD .null).nullable?
               (Json.case? [("strict", .strict), ("advisory", .advisory)])
             lockStaleSecs := ← (stale.getD .null).nullable? Json.word? }
  | _ => none

end SnapshotSettings

namespace BuildSettings

/-- The time in seconds after which a build step is stopped, between ten seconds and an hour. -/
def timeout (s : BuildSettings) : Nat := min (max (s.timeoutSecs.getD 300) 10) 3600

/-- The time in seconds that a stopped step has to end by itself. -/
def grace (s : BuildSettings) : Nat := s.graceSecs.getD 5

/-- Whether a project without build tool is an error. -/
def requiresBuildTool (s : BuildSettings) : Bool := s.requireBuildTool.getD false

/-- The fields of the written section. -/
def fieldNames : List (String × Bool) :=
  [("timeout_secs", false), ("grace_secs", false), ("compile_command", false),
   ("test_command", false), ("require_build_tool", false)]

/-- Reads the section. -/
def ofJson? (j : Json) : Option BuildSettings := do
  match ← j.fields? fieldNames with
  | [timeout, grace, compile, test, require] =>
    return { timeoutSecs := ← (timeout.getD .null).nullable? Json.word?
             graceSecs := ← (grace.getD .null).nullable? Json.word?
             compileCommand := ← (compile.getD .null).nullable? (Json.list? Json.str?)
             testCommand := ← (test.getD .null).nullable? (Json.list? Json.str?)
             requireBuildTool := ← (require.getD .null).nullable? Json.bool? }
  | _ => none

end BuildSettings

namespace ValidatorSettings

/-- Whether files are compiled and not only parsed. -/
def compiles (s : ValidatorSettings) : Bool := s.fullCompile.getD true

/-- The fields of the written section. -/
def fieldNames : List (String × Bool) :=
  [("full_compile", false), ("javac", false), ("classpath", false), ("source_roots", true)]

/-- Reads the section. -/
def ofJson? (j : Json) : Option ValidatorSettings := do
  match ← j.fields? fieldNames with
  | [full, javac, classpath, roots] =>
    return { fullCompile := ← (full.getD .null).nullable? Json.bool?
             javac := (← (javac.getD .null).nullable? Json.str?).map Path.mk
             classpath := ← (classpath.getD .null).nullable? Json.str?
             sourceRoots := (← (roots.getD (.arr [])).list? Json.str?).map Path.mk }
  | _ => none

end ValidatorSettings

namespace WorkflowSettings

/-- Whether nothing is written. -/
def isDryRun (s : WorkflowSettings) : Bool := s.dryRun.getD false

/-- Whether the first failing action ends the run. -/
def stopsOnFailure (s : WorkflowSettings) : Bool := s.stopOnFirstFailure.getD true

/-- Whether the project is built after the actions. -/
def builds (s : WorkflowSettings) : Bool := s.runBuild.getD true

/-- Whether the tests are run after the build. -/
def tests (s : WorkflowSettings) : Bool := s.runTests.getD true

/-- The fields of the written section. -/
def fieldNames : List (String × Bool) :=
  [("dry_run", false), ("stop_on_first_failure", false), ("run_build", false),
   ("run_tests", false)]

/-- Reads the section. -/
def ofJson? (j : Json) : Option WorkflowSettings := do
  match ← j.fields? fieldNames with
  | [dry, stop, build, tests] =>
    return { dryRun := ← (dry.getD .null).nullable? Json.bool?
             stopOnFirstFailure := ← (stop.getD .null).nullable? Json.bool?
             runBuild := ← (build.getD .null).nullable? Json.bool?
             runTests := ← (tests.getD .null).nullable? Json.bool? }
  | _ => none

end WorkflowSettings

namespace ExtractMethodSettings

/-- The fields of the written section. -/
def fieldNames : List (String × Bool) :=
  [("threshold", false), ("min_block", false), ("max_block", false), ("auto_apply", false)]

/-- The least size of a block, at least one statement. -/
def least (s : ExtractMethodSettings) : Nat := max (s.minBlock.getD 5) 1

/-- The greatest size of a block, at least the least. -/
def greatest (s : ExtractMethodSettings) : Nat := max (s.maxBlock.getD 15) s.least

/-- Reads the section. -/
def ofJson? (j : Json) : Option ExtractMethodSettings := do
  match ← j.fields? fieldNames with
  | [threshold, least, greatest, auto] =>
    return { threshold := ← (threshold.getD .null).nullable? Json.word?
             minBlock := ← (least.getD .null).nullable? Json.word?
             maxBlock := ← (greatest.getD .null).nullable? Json.word?
             autoApply := ← (auto.getD .null).nullable? Json.bool? }
  | _ => none

end ExtractMethodSettings

namespace Settings

/-- The place of the settings file in a project. -/
def defaultFile : String := ".refit/config.json"

/-- What the refactorings are tuned by. -/
def tuning (s : Settings) : Tuning where
  extractThreshold := s.extractMethod.threshold.getD 15
  extractMinBlock := s.extractMethod.least
  extractMaxBlock := s.extractMethod.greatest
  autoExtract := s.extractMethod.autoApply.getD false
  maxParameters := s.maxParameters.getD 3

/-- The sections of the file. -/
def sectionNames : List (String × Bool) :=
  [("snapshots", true), ("build", true), ("validator", true), ("workflow", true),
   ("extract_method", true), ("parameter_object", true)]

/-- A section read by `f`, or its default when it is left out. -/
def readSection? {α : Type} (f : Json → Option α) (default : α) : Option Json → Option α
  | none => some default
  | some j => f j

/-- Reads the section on parameter objects. -/
def maxParametersOfJson? (j : Json) : Option (Option Nat) := do
  match ← j.fields? [("max_parameters", false)] with
  | [limit] => (limit.getD .null).nullable? Json.word?
  | _ => none

/-- Reads the settings. -/
def ofJson? (j : Json) : Option Settings := do
  match ← j.fields? sectionNames with
  | [snapshots, build, validator, workflow, extract, parameters] =>
    return { snapshots := ← readSection? SnapshotSettings.ofJson? {} snapshots
             build := ← readSection? BuildSettings.ofJson? {} build
             validator := ← readSection? ValidatorSettings.ofJson? {} validator
             workflow := ← readSection? WorkflowSettings.ofJson? {} workflow
             extractMethod := ← readSection? ExtractMethodSettings.ofJson? {} extract
             maxParameters := ← readSection? maxParametersOfJson? none parameters }
  | _ => none

/-- The settings in force below a project root: every absent one is replaced by what then holds.
The names of the refactorings that are asked come last. -/
def inForce (s : Settings) (root : Path) : Json :=
  let t := s.tuning
  .obj [
    ("snapshots", .obj [("dir", .str (s.snapshots.directory root).text),
      ("keep", .nat s.snapshots.kept), ("checksum_policy", .str s.snapshots.policy.name),
      ("lock_stale_secs", .nat s.snapshots.staleSecs)]),
    ("build", .obj [("timeout_secs", .nat s.build.timeout), ("grace_secs", .nat s.build.grace),
      ("compile_command", .opt (.list .str) s.build.compileCommand),
      ("test_command", .opt (.list .str) s.build.testCommand),
      ("require_build_tool", .bool s.build.requiresBuildTool)]),
    ("validator", .obj [("full_compile", .bool s.validator.compiles),
      ("javac", .opt (.str ·.text) s.validator.javac),
      ("classpath", .opt .str s.validator.classpath),
      ("source_roots", .list (.str ·.text) s.validator.sourceRoots)]),
    ("workflow", .obj [("dry_run", .bool s.workflow.isDryRun),
      ("stop_on_first_failure", .bool s.workflow.stopsOnFailure),
      ("run_build", .bool s.workflow.builds), ("run_tests", .bool s.workflow.tests)]),
    ("options", .obj [("extract_threshold", .nat t.extractThreshold),
      ("extract_min_block", .nat t.extractMinBlock),
      ("extract_max_block", .nat t.extractMaxBlock),
      ("auto_extract", .bool t.autoExtract), ("max_parameters", .nat t.maxParameters)]),
    ("strategies", .list .str (Catalog.standard t).names)]

end Settings

end Amend
