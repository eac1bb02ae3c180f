import Amend.Java.Declaration
import Amend.Java.Variable
import Amend.Json
import Amend.Layout.Removal

/-!
# Outlines

What a Java source declares, as JSON: its types, its methods and constructors, and where some
names occur in it.
-/

namespace Amend.Java

open Syntax

/-- A span of bytes as a pair. -/
def spanJson (s : Span) : Json := .list .nat [s.start, s.stop]

/-- The first and last line of a node. -/
def linesJson (n : Node) (source : String) : Json :=
  .list .nat [n.firstLine source, n.lastLine source]

/-- The modifiers that an outline tells. -/
def outlinedModifiers : List String :=
  ["public", "protected", "private", "static", "final", "abstract", "synchronized", "default"]

/-- The outline of a type. -/
def typeOutline (source : String) (n : Node) : Json :=
  .obj [("kind", .str n.kind.name), ("name", .opt .str (declaredName? n source)),
    ("lines", linesJson n source),
    ("members", .opt (fun b => .list .str (memberNames b source)) (n.childBy? .body)),
    ("class_body", .opt (spanJson ·.span) (enclosingClassBody? n))]

/-- The outline of a method or constructor. -/
def callableOutline (source : String) (n : Node) : Json :=
  .obj [("kind", .str n.kind.name), ("name", .opt .str (declaredName? n source)),
    ("lines", linesJson n source), ("span", spanJson n.span),
    ("params", .opt (.list fun (t, x) => .list .str [t, x]) (parameters? n source)),
    ("return_type", .str (returnType n source)),
    ("modifiers", .list .str (outlinedModifiers.filter (hasModifier n source ·))),
    ("statements", .list (.str ·.kind.name) (bodyStatements n)),
    ("class_members", .opt (fun b => .list .str (memberNames b source)) (enclosingClassBody? n)),
    ("removal", spanJson (Layout.removalSpan source n))]

/-- The outline of a call. -/
def callOutline (source : String) (call : Node) : Json :=
  .obj [("at", .nat call.start), ("line", .nat (call.firstLine source)),
    ("args", .list (fun a => .arr [.str (a.text source), .bool (hasSideEffects a)])
      (callArguments call))]

/-- Where a name occurs. -/
def nameOutline (source : String) (root : Node) (name : String) : Json :=
  .obj [("occurrences", .list (fun n => .arr [.nat n.start, .bool (isDeclarationSite n)])
      (variableOccurrences root source name)),
    ("references", .list (.nat ·.start) (variableReferences root source name)),
    ("calls", .list (callOutline source) (localCalls root source name))]

/-- The outline of a source, with the given names. -/
def outline (source : String) (root : Node) (names : List String) : Json :=
  .obj [("types", .list (typeOutline source) (root.descendants typeDeclarations)),
    ("callables", .list (callableOutline source) (callables root)),
    ("names", .obj (names.map fun name => (name, nameOutline source root name)))]

end Amend.Java
