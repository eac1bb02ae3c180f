/-!
# Character classes

A class of characters is kept as the sorted list of code points at which membership changes, so
a character belongs to it exactly when an odd number of changes lies at or below it.
-/

namespace Amend.Text

/-- A set of characters: `bounds` holds, in increasing order, the code points at which
membership flips, starting from "not a member". -/
structure CharClass where
  bounds : Array Nat

namespace CharClass

/-- The number of entries of `bounds[lo:hi]` and below that are at most `n`, by bisection: all
entries before `lo` are at most `n`, none from `hi` on is. -/
def rankBetween (bounds : Array Nat) (n lo hi : Nat) : Nat :=
  if h : lo < hi then
    let mid := (lo + hi) / 2
    if bounds.getD mid 0 ≤ n then rankBetween bounds n (mid + 1) hi
    else rankBetween bounds n lo mid
  else lo
termination_by hi - lo

/-- Whether the class holds the character. -/
def mem (k : CharClass) (c : Char) : Bool :=
  rankBetween k.bounds c.toNat 0 k.bounds.size % 2 == 1

end CharClass

end Amend.Text
