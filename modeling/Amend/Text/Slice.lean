/-!
# Texts by byte offset

Positions in a source text are UTF-8 byte offsets. An offset delimits text only when it lies
inside the text and between two characters; cutting or replacing at any other offset has no
result.
-/

namespace Amend

/-- A half-open range of byte offsets. -/
structure Span where
  start : Nat
  stop : Nat
deriving DecidableEq, Inhabited

namespace Text

/-- Whether `i` is the offset of a character of `s` or of its end. -/
def isBoundary (s : String) (i : Nat) : Bool := String.Pos.Raw.isValid s ⟨i⟩

/-- The bytes `start` to `stop` of `s` as a text, if both offsets are boundaries in this order. -/
def slice? (s : String) (start stop : Nat) : Option String :=
  if h : start ≤ stop ∧ isBoundary s start = true ∧ isBoundary s stop = true then
    some (@String.extract s ⟨⟨start⟩, String.Pos.Raw.isValid_eq_true_iff.mp h.2.1⟩
      ⟨⟨stop⟩, String.Pos.Raw.isValid_eq_true_iff.mp h.2.2⟩)
  else none

/-- The text before `stop`. -/
def upTo? (s : String) (stop : Nat) : Option String := slice? s 0 stop

/-- The text from `start` on. -/
def from? (s : String) (start : Nat) : Option String := slice? s start s.utf8ByteSize

/-- The text of a span, empty where the span delimits none. -/
def sliceD (s : String) (start stop : Nat) : String := (slice? s start stop).getD ""

/-- `s` with the bytes `start` to `stop` replaced. -/
def splice? (s : String) (start stop : Nat) (replacement : String) : Option String := do
  let _ ← slice? s start stop
  let before ← upTo? s start
  let after ← from? s stop
  return before ++ replacement ++ after

/-- The byte at an offset, if there is one. -/
def byte? (s : String) (i : Nat) : Option UInt8 :=
  if h : (⟨i⟩ : String.Pos.Raw) < s.rawEndPos then some (s.getUTF8Byte ⟨i⟩ h) else none

/-- The texts between the occurrences of a separator character: one more than it occurs. -/
def splitChars (p : Char → Bool) (cs : List Char) : List (List Char) :=
  match cs with
  | [] => [[]]
  | c :: cs =>
    match splitChars p cs with
    | [] => [[]]
    | part :: rest => if p c then [] :: part :: rest else (c :: part) :: rest

/-- The texts between the occurrences of characters satisfying `p`. -/
def split (p : Char → Bool) (s : String) : List String := (splitChars p s.toList).map .ofList

/-- What follows `pre` in `cs`, if `cs` starts with it. -/
def afterChars? : List Char → List Char → Option (List Char)
  | [], cs => some cs
  | _, [] => none
  | p :: ps, c :: cs => if p == c then afterChars? ps cs else none

/-- Whether `needle` occurs in `cs`. -/
def containsChars (needle : List Char) : List Char → Bool
  | [] => needle.isEmpty
  | c :: cs => (afterChars? needle (c :: cs)).isSome || containsChars needle cs

/-- Whether `needle` occurs in `s`. -/
def contains (s needle : String) : Bool := containsChars needle.toList s.toList

end Text

end Amend
