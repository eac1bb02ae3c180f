/-!
# Blank characters

The characters that count as white space, and trimming them off the ends of a text. The class is
the Unicode property White_Space, so a no-break space or an ideographic space is blank too.
-/

namespace Amend.Text

/-- Whether `c` has the Unicode property White_Space. -/
def isBlank (c : Char) : Bool :=
  let n := c.toNat
  (9 ≤ n && n ≤ 13) || n == 0x20 || n == 0x85 || n == 0xA0 || n == 0x1680 ||
    (0x2000 ≤ n && n ≤ 0x200A) || n == 0x2028 || n == 0x2029 || n == 0x202F || n == 0x205F ||
    n == 0x3000

/-- The text without its longest suffix of characters satisfying `p`. -/
def dropEndWhile (p : Char → Bool) (cs : List Char) : List Char :=
  (cs.reverse.dropWhile p).reverse

/-- The text without leading blanks. -/
def trimStart (s : String) : String := .ofList (s.toList.dropWhile isBlank)

/-- The text without trailing blanks. -/
def trimEnd (s : String) : String := .ofList (dropEndWhile isBlank s.toList)

/-- The text without blanks at either end. -/
def trim (s : String) : String := .ofList (dropEndWhile isBlank (s.toList.dropWhile isBlank))

/-- Whether a text holds nothing but blanks. -/
def allBlank (s : String) : Bool := s.toList.all isBlank

/-- The maximal runs of non-blank characters, in order. -/
def words (s : String) : List String :=
  let rec go : List Char → List Char → List String
    | [], w => if w.isEmpty then [] else [String.ofList w.reverse]
    | c :: cs, w =>
      if isBlank c then if w.isEmpty then go cs [] else String.ofList w.reverse :: go cs []
      else go cs (c :: w)
  go s.toList []

end Amend.Text
