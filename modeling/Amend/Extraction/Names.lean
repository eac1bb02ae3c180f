/-!
# Sets of names

A set of names is kept as the increasing list of its members.
-/

namespace Amend.Extraction

/-- A set of names: its members in increasing order, each once. -/
structure Names where
  members : List String := []
deriving DecidableEq

namespace Names

/-- The set without members. -/
def empty : Names := {}

/-- Whether a name is a member. -/
def has (s : Names) (name : String) : Bool := s.members.contains name

/-- A name put in its place in an increasing list. -/
def insertSorted (name : String) : List String → List String
  | [] => [name]
  | x :: xs =>
    if name = x then x :: xs
    else if name < x then name :: x :: xs
    else x :: insertSorted name xs

/-- The set with one more member. -/
def insert (s : Names) (name : String) : Names := ⟨insertSorted name s.members⟩

/-- The members of a list. -/
def ofList (names : List String) : Names := names.foldl insert empty

/-- The members of either set. -/
def union (s t : Names) : Names := t.members.foldl insert s

/-- The members of all the sets that the elements of a list give. -/
def unionOf {α : Type} (f : α → Names) (xs : List α) : Names :=
  xs.foldl (fun s x => s.union (f x)) empty

/-- The members of the first set that are none of the second. -/
def diff (s t : Names) : Names := ⟨s.members.filter (!t.has ·)⟩

/-- Whether no name is a member of both. -/
def disjoint (s t : Names) : Bool := s.members.all (!t.has ·)

/-- Whether there is no member. -/
def isEmpty (s : Names) : Bool := s.members.isEmpty

end Names

/-- The list without repetitions, each element at its first place. -/
def firstOccurrences {α : Type} [BEq α] (xs : List α) : List α :=
  (xs.foldl (fun seen x => if seen.contains x then seen else x :: seen) []).reverse

end Amend.Extraction
