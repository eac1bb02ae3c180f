import Amend.Refactoring.Catalog

/-!
# What a catalog says of a defect

A written account of a defect: what its fields come down to, which lines it covers and which
refactorings of a catalog handle it.
-/

namespace Amend

/-- Everything about a defect that does not depend on a catalog, with whether it covers some
lines. -/
def Defect.reportFields (d : Defect) (lines : List Nat) : List (String × Json) :=
  [("record", d.toJson), ("category", .str d.normalizedCategory), ("end_line", .nat d.lastLine),
    ("element", .opt .str d.elementName?), ("auto_fixable", .bool d.autoFixable),
    ("covers", .list (fun l => .bool (d.coversLine l)) lines)]

namespace Catalog

/-- The refactorings that handle a defect, in order. -/
def claimants (c : Catalog) (d : Defect) : List Refactoring := c.entries.filter (·.handles d)

theorem firstMatch?_eq_head?_claimants (c : Catalog) (d : Defect) :
    c.firstMatch? d = (c.claimants d).head? := by
  simp [firstMatch?, claimants, List.head?_filter]

/-- The account of a defect. -/
def report (c : Catalog) (d : Defect) (lines : List Nat) : Json :=
  let first := c.firstMatch? d
  .obj (d.reportFields lines ++
    [("first_match", .opt (.str ·.name) first),
      ("claimants", .list (.str ·.name) (c.claimants d)),
      ("advisory", .opt (.bool ·.advisory) first), ("registry_size", .nat c.entries.length),
      ("registry_empty", .bool c.entries.isEmpty)])

end Catalog

end Amend
