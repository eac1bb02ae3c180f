import Amend.Refactoring.Rewrite

/-!
# Removing unused imports

An import of one name goes, with its line, when no identifier or type outside the imports and the
package declaration is spelled like its last part.
-/

namespace Amend.Refactoring.Import

open Syntax

/-- The qualified name of an import. -/
def importedName? (n : Node) (source : String) : Option String :=
  (n.parts.find? (·.isOneOf [.scopedIdentifier, .identifier])).map (·.text source)

/-- What follows the last point of a qualified name. -/
def lastPart (qualified : String) : String :=
  .ofList (qualified.toList.reverse.takeWhile (· != '.')).reverse

/-- The import that a defect points at: the first one whose name or last part is the element, or
else the first one on an affected line. -/
def find? (root : Node) (source : String) (d : Defect) : Option Node :=
  let imports := root.parts.filter (·.kind = .importDeclaration)
  let byName := d.elementName?.bind fun element =>
    imports.find? fun i => (importedName? i source).any fun name =>
      name = element || lastPart name = element
  byName.or (imports.find? fun i => d.coversLine (i.firstLine source))

/-- Whether an identifier or type outside the imports and the package declaration has the name. -/
def isReferenced (root : Node) (source name : String) : Bool :=
  (root.visit fun n => !n.isOneOf [.importDeclaration, .packageDeclaration]).any fun n =>
    n.isOneOf [.identifier, .typeIdentifier] && n.text source = name

/-- The rewrite for a defect. -/
def rewrite (d : Defect) (source : String) (tree : Tree) : Except RewriteError Rewrite := do
  let refuse {α : Type} (why : Refusal) : Except RewriteError α :=
    .error (.refused "import-removal" why)
  let root := Node.root tree
  match find? root source d with
  | none => refuse .noImport
  | some found =>
    if found.children.any (·.kind = .asterisk) then refuse .wildcardImport
    else
      match importedName? found source with
      | none => refuse .importWithoutName
      | some qualified =>
        if isReferenced root source (lastPart qualified) then
          refuse (.stillReferenced (lastPart qualified))
        else
          let span := (Text.fullLineSpan? source found.start found.stop).getD found.span
          Rewrite.ofEdits source
            [.delete span.start span.stop ("remove import " ++ qualified)]
            ("Removed unused import " ++ qualified)

end Import

/-- Removes an unused import of one name. -/
def removeUnusedImport : Refactoring where
  name := "import-removal"
  categories := ["unused-import"]
  rewrite := fun _ d source tree => Import.rewrite d source tree

end Amend.Refactoring
