import Amend.Json
import Amend.Syntax.Tree
import Amend.Text.Hex

/-!
# Trees as lists of numbers

A tree is written as its nodes in pre-order, four numbers each: what the node is, the bytes
between the node before and its start, the bytes that it covers, and the number of its children.
The first number adds the kind's number, a thousand times the field's number, and a million for a
missing node. A text is told by its size and a 64-bit hash.
-/

namespace Amend.Syntax

namespace Listing

mutual

/-- Reads one node that starts `gap` bytes after `at_`. The fuel bounds the number of nodes. -/
def tree? : Nat → Nat → List Nat → Option (Tree × List Nat)
  | fuel + 1, at_, code :: gap :: length :: count :: rest => do
    let kind ← Kind.ofId? (code % 1000)
    let start := at_ + gap
    let (children, rest) ← trees? fuel count start rest
    return (⟨kind, Field.ofId? (code / 1000 % 1000), code / 1000000 = 1, start, start + length,
      children⟩, rest)
  | _, _, _ => none

/-- Reads `count` siblings, the first of them after `at_`. -/
def trees? : Nat → Nat → Nat → List Nat → Option (List Tree × List Nat)
  | _, 0, _, rest => some ([], rest)
  | 0, _, _, _ => none
  | fuel + 1, count + 1, at_, rest => do
    let (t, rest) ← tree? fuel at_ rest
    let (ts, rest) ← trees? fuel count t.stop rest
    return (t :: ts, rest)

end

end Listing

/-- The tree that a list of numbers writes. -/
def Tree.ofListing? (numbers : List Nat) : Option Tree :=
  match Listing.tree? (numbers.length + 1) 0 numbers with
  | some (t, []) => some t
  | _ => none

/-- The 64-bit FNV-1a hash of a text. -/
def fingerprint (s : String) : UInt64 :=
  s.toUTF8.foldl (fun h b => (h ^^^ b.toUInt64) * 0x100000001b3) 0xcbf29ce484222325

/-- A text whose tree is known. A text without a tree parses without error, and only that is
known of it. -/
structure ParsedText where
  hash : UInt64
  size : Nat
  tree : Option Tree

/-- Reads an entry: the hash in hexadecimal digits, the size, and the list that writes the tree. -/
def ParsedText.ofJson? (j : Json) : Option ParsedText := do
  let digits ← (← j.get? "fnv").str?
  let hash := (← Text.ofHex? digits).foldl (fun (n : UInt64) b => 256 * n + b.toUInt64) 0
  let size ← (← j.get? "len").word?
  let numbers := (j.get? "tree").bind (Json.list? Json.word?)
  return { hash, size, tree := numbers.bind Tree.ofListing? }

/-- The entries of a list; what is not an entry is passed over. -/
def ParsedText.listOfJson (j : Json) : List ParsedText :=
  match j with
  | .arr xs => xs.filterMap ofJson?
  | _ => []

/-- The entry for a text. -/
def ParsedText.find? (known : List ParsedText) (s : String) : Option ParsedText :=
  let hash := fingerprint s
  known.find? fun p => p.hash = hash && p.size = s.utf8ByteSize

/-- A tree without nodes below its root, for a text of which only that it parses is known. -/
def Tree.bare (size : Nat) : Tree := ⟨.program, none, false, 0, size, []⟩

/-- A parser that looks texts up among known ones. -/
def ParsedText.parser (known : List ParsedText) (s : String) : Option Tree :=
  (ParsedText.find? known s).map fun p => p.tree.getD (.bare s.utf8ByteSize)

end Amend.Syntax
