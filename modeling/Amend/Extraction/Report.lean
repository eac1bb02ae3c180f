import Amend.Extraction.Method
import Amend.Java.Outline

/-!
# Written forms of the analysis

Facts about statements, the blocks found in a method and the result of lifting them, as JSON.
-/

namespace Amend.Extraction

open Syntax

/-- A written set. -/
def Names.toJson (s : Names) : Json := .list .str s.members

/-- A written scope: each name with its type, if that is known. -/
def MethodScope.toJson (s : MethodScope) : Json :=
  .list (fun (x, t) => .arr [.str x, .opt .str t]) s.types

/-- The written facts about a statement. -/
def StatementFacts.toJson (f : StatementFacts) (statement : Node) (source : String) : Json :=
  .obj [("kind", .str statement.kind.name), ("line", .nat (statement.firstLine source)),
    ("used", f.used.toJson), ("declared", f.declared.toJson),
    ("declared_top_level", f.declaredTopLevel.toJson), ("assigned", f.assigned.toJson),
    ("defined", f.defined.toJson), ("reads_in_order", .list .str f.readsInOrder),
    ("has_return", .bool f.hasReturn), ("has_escaping_jump", .bool f.hasEscapingJump)]

/-- A written parameter. -/
def BlockParameter.toJson (p : BlockParameter) : Json :=
  .obj [("name", .str p.name), ("java_type", .str p.javaType)]

/-- A written way to leave a block. -/
def BlockReturn.toJson : BlockReturn → Json
  | .nothing => .obj [("kind", .str "nothing")]
  | .exit => .obj [("kind", .str "exit")]
  | .value t => .obj [("kind", .str "value"), ("java_type", .str t)]
  | .variable x t => .obj [("kind", .str "variable"), ("name", .str x), ("java_type", .str t)]

/-- A written block. -/
def Block.toJson (b : Block) : Json :=
  .obj [("start_index", .nat b.firstIndex), ("end_index", .nat b.lastIndex),
    ("start_line", .nat b.firstLine), ("end_line", .nat b.lastLine), ("start_byte", .nat b.start),
    ("end_byte", .nat b.stop), ("used", b.used.toJson), ("defined", b.defined.toJson),
    ("parameters", .list BlockParameter.toJson b.parameters), ("returns", b.returns.toJson)]

/-- A written new method. -/
def ExtractedMethod.toJson (e : ExtractedMethod) : Json :=
  .obj [("method_name", .str e.methodName), ("start_line", .nat e.firstLine),
    ("end_line", .nat e.lastLine), ("parameters", .list BlockParameter.toJson e.parameters),
    ("return_type", .str e.returnType)]

/-- A written result of lifting. -/
def Outcome.toJson (o : Outcome) : Json :=
  .obj [("content", .str o.content), ("extractions", .list ExtractedMethod.toJson o.extractions)]

/-- The written analysis of a method: its scope, the facts about its statements, and the blocks that
can be lifted from a first statement on. -/
def methodReport (source : String) (method : Node) (settings : BlockSettings) (first : Nat) : Json :=
  let flow := MethodFlow.ofMethod method source
  let blocks := findBlocksFrom method source settings first
  .obj [("method", Java.callableOutline source method), ("scope", flow.scope.toJson),
    ("facts", .list (fun (n, f) => f.toJson n source) flow.statements),
    ("blocks", .list Block.toJson blocks), ("block_sizes", .list (.nat ·.size) blocks),
    ("block_parameters",
      .list (fun b => (Names.ofList (b.parameters.map (·.name))).toJson) blocks)]

end Amend.Extraction
