import Amend.Json.Reader
import Amend.Settings
import Amend.World

/-!
# Reading the settings of a project

The settings file has a usual place in a project and may be missing there; a file that was asked
for by name has to be there.
-/

namespace Amend

/-- Why settings could not be read. -/
inductive SettingsError where
  | read (file : Path) (cause : SystemError)
  /-- The file does not hold settings. -/
  | malformed (file : Path)
deriving DecidableEq

/-- The report of a failure. -/
def SettingsError.message : SettingsError → String
  | .read file cause => "Failed to read config " ++ file.text ++ ": " ++ cause.message
  | .malformed file => "Malformed config " ++ file.text

namespace Settings

/-- The settings in a text. -/
def ofText? (text : String) : Option Settings := (Json.parse? text).bind ofJson?

/-- The settings in a file. -/
def ofFile (file : Path) : Act SettingsError Settings := do
  let text ← (World.readText file).mapError (.read file)
  match ofText? text with
  | some s => return s
  | none => throw (.malformed file)

/-- The settings of a project: those of the file asked for, else those in the usual place, else
the defaults. -/
def load (root : Path) (asked : Option Path) : Act SettingsError Settings := do
  match asked with
  | some file => ofFile file
  | none =>
    let usual := root ++ defaultFile
    if ← Act.look (·.pathExists usual) then ofFile usual else return {}

end Settings

end Amend
