import Amend.Refactoring.Catalog

/-!
# Plans

A plan binds each defect that may be mended to the first refactoring that handles it. Paths are
resolved against the project root, and a defect outside the root is rejected.
-/

namespace Amend

/-- A defect bound to the refactoring that mends it. -/
structure PlannedAction where
  defect : Defect
  refactoring : String
  advisory : Bool

/-- A defect whose file is outside the project. -/
structure RejectedDefect where
  defect : Defect
  reason : Path.OutsideRoot

/-- Ordered actions, and the defects for which there is none. -/
structure Plan where
  actions : List PlannedAction := []
  unmatched : List Defect := []
  rejected : List RejectedDefect := []

namespace Plan

/-- The plan with one more defect. -/
def add (root : Path) (catalog : Catalog) (p : Plan) (d : Defect) : Plan :=
  if !d.autoFixable then p
  else
    match Path.resolveWithin root d.file with
    | .error e => { p with rejected := p.rejected ++ [⟨d, e⟩] }
    | .ok file =>
      let d := { d with file }
      match catalog.firstMatch? d with
      | some r => { p with actions := p.actions ++ [⟨d, r.name, r.advisory⟩] }
      | none => { p with unmatched := p.unmatched ++ [d] }

/-- The plan for a list of defects, in their order. -/
def build (root : Path) (catalog : Catalog) (defects : List Defect) : Plan :=
  defects.foldl (add root catalog) {}

/-- The first of each group of paths with one identity, in order. -/
def distinct (identity : Path → Path) : List Path → List Path
  | [] => []
  | p :: ps => p :: (distinct identity ps).filter fun q => identity q ≠ identity p

/-- The target files, each once, by first appearance. -/
def affectedFiles (p : Plan) (identity : Path → Path) : List Path :=
  distinct identity (p.actions.map (·.defect.file))

/-- The target files of the actions that may write, each once, by first appearance. -/
def mutatingFiles (p : Plan) (identity : Path → Path) : List Path :=
  distinct identity ((p.actions.filter (!·.advisory)).map (·.defect.file))

/-- A written plan. -/
def toJson (p : Plan) : Json :=
  .obj [("actions", .list (fun a => .obj [("record", a.defect.toJson),
      ("strategy", .str a.refactoring), ("advisory", .bool a.advisory)]) p.actions),
    ("unmatched", .list Defect.toJson p.unmatched),
    ("rejected", .list (fun r => .obj [("record", r.defect.toJson),
      ("reason", .str r.reason.message)]) p.rejected)]

end Plan

end Amend
