import Amend.Json
import Amend.Syntax.Node

/-!
# Syntax faults

A source is accepted when its tree holds neither a missing node nor a counted error. Otherwise
every error and missing node that can be reached through marked nodes is reported, in pre-order.
-/

namespace Amend.Syntax

/-- One place where a source does not parse; line and column count from 1. -/
structure Fault where
  line : Nat
  column : Nat
  context : String
  nodeKind : String
deriving DecidableEq

/-- A written fault. -/
def Fault.toJson (f : Fault) : Json :=
  .obj [("line", .nat f.line), ("column", .nat f.column), ("context", .str f.context),
    ("node_kind", .str f.nodeKind)]

/-- Why a text is not accepted. -/
inductive ParseError where
  /-- The parser gave no tree. -/
  | noTree
  /-- The tree has faults. -/
  | faults (found : List Fault)

/-- The report of a text that is not accepted. -/
def ParseError.message : ParseError → String
  | .noTree => "Parser produced no tree"
  | .faults found =>
    toString found.length ++ " syntax error(s), first at line " ++
      toString ((found.head?.map (·.line)).getD 0)

namespace Tree

/-- Whether the root is an error or a missing node. -/
def isFault (t : Tree) : Bool := t.kind.isError || t.missing

/-- The children that are marked: faults are looked for in these only. -/
def marked (t : Tree) : List Tree := t.children.filter fun c => c.hasError || c.missing

/-- The marked children of a tree hold fewer nodes than the tree. -/
theorem sizeAll_marked_lt (t : Tree) : sizeAll t.marked < size t := by
  have hle : sizeAll t.marked ≤ sizeAll t.children := sizeAll_filter_le _ _
  obtain ⟨kind, field, missing, start, stop, children⟩ := t
  rw [size]
  exact Nat.lt_of_le_of_lt hle (Nat.lt_add_of_pos_left Nat.one_pos)

/-- The error and missing nodes that are met in taking trees off a stack one by one, its top at the
head: the marked children of a tree take its place, the first of them on top. -/
def faultsOnStack : List Tree → List Tree
  | [] => []
  | t :: stack => (if t.isFault then [t] else []) ++ faultsOnStack (t.marked ++ stack)
termination_by stack => sizeAll stack
decreasing_by
  rw [sizeAll_append, sizeAll]
  exact Nat.add_lt_add_right (sizeAll_marked_lt t) _

/-- The error and missing nodes of a tree that are reached through marked nodes. -/
def faultTrees (t : Tree) : List Tree := faultsOnStack [t]

/-- The report on an error or missing node. -/
def fault (source : String) (lines : Array String) (t : Tree) : Fault where
  line := Text.rowOf source t.start + 1
  column := Text.columnOf source t.start + 1
  context := (lines[Text.rowOf source t.start]?.map Text.trim).getD ""
  nodeKind := if t.missing then "MISSING " ++ t.kind.name else t.kind.name

/-- The faults of a source with this tree. -/
def faults (t : Tree) (source : String) : List Fault :=
  let lines := (Text.lines source).toArray
  t.faultTrees.map (fault source lines)

end Tree

/-- A parser: the tree of a text, or nothing when it gives up. -/
abbrev Parser := String → Option Tree

/-- The tree of a source that parses without fault. -/
def Parser.verify (parse : Parser) (source : String) : Except ParseError Tree :=
  match parse source with
  | none => .error .noTree
  | some t => if t.hasError then .error (.faults (t.faults source)) else .ok t

/-- The faults of a source, none when it parses cleanly. -/
def Parser.faults (parse : Parser) (source : String) : Except ParseError (List Fault) :=
  match parse.verify source with
  | .ok _ => .ok []
  | .error (.faults found) => .ok found
  | .error .noTree => .error .noTree

end Amend.Syntax
