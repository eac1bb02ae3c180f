import Amend.Refactoring.Conditional
import Amend.Refactoring.Constant
import Amend.Refactoring.DeadCode
import Amend.Refactoring.Dispatch
import Amend.Refactoring.Import
import Amend.Refactoring.Inline
import Amend.Refactoring.LongMethod
import Amend.Refactoring.ParameterObject
import Amend.Refactoring.Rename
import Amend.Refactoring.Resource

/-!
# The catalog of refactorings

Refactorings in the order in which they are asked: the first one that handles a defect gets it.
-/

namespace Amend

/-- What the refactorings can be tuned by. -/
structure Tuning where
  /-- A method with more statements is long. -/
  extractThreshold : Nat := 15
  extractMinBlock : Nat := 5
  extractMaxBlock : Nat := 15
  /-- Whether blocks of long methods are lifted and not only reported. -/
  autoExtract : Bool := false
  /-- A method with more parameters gets a parameter object. -/
  maxParameters : Nat := 3
deriving DecidableEq

/-- Refactorings in the order in which they are asked. -/
structure Catalog where
  entries : List Refactoring

namespace Catalog

open Refactoring

/-- The catalog without refactorings. -/
def empty : Catalog := ⟨[]⟩

/-- All refactorings. The simplifier comes before the dispatch table for the category that both
handle, and lifting, where it is wanted, before reporting. -/
def standard (t : Tuning) : Catalog :=
  let settings := Extraction.BlockSettings.of t.extractMinBlock t.extractMaxBlock
  ⟨[extractConstant, removeUnusedImport, removeDeadCode, simplifyConditional, tryWithResources,
    introduceParameterObject t.maxParameters, replaceSwitchWithDispatch, inlineMethod,
    renameVariable] ++
    (if t.autoExtract then [extractMethod t.extractThreshold settings] else []) ++
    [adviseExtraction t.extractThreshold settings]⟩

/-- The first refactoring that handles a defect. -/
def firstMatch? (c : Catalog) (d : Defect) : Option Refactoring := c.entries.find? (·.handles d)

/-- The refactoring of that name. -/
def find? (c : Catalog) (name : String) : Option Refactoring := c.entries.find? (·.name = name)

/-- The names in order. -/
def names (c : Catalog) : List String := c.entries.map (·.name)

end Catalog

end Amend
