import Amend.Text.CaseTable

/-!
# Changing letter case

Full case mapping: a character may become several (`ß` becomes `SS`), and a capital sigma at the
end of a word becomes the final form `ς`.
-/

namespace Amend.Text

/-- Whether `c` has the property Uppercase. -/
def isUpper (c : Char) : Bool := uppercase.mem c

/-- Whether `c` has the property Lowercase. -/
def isLower (c : Char) : Bool := lowercase.mem c

/-- The code point that `n` moves to under a table of runs, `n` itself outside all runs. -/
def CaseRun.apply (table : Array CaseRun) (n : Nat) : Nat :=
  match table.find? fun r =>
      r.first ≤ n && (n - r.first) % r.stride == 0 && (n - r.first) / r.stride < r.count with
  | some r => (n + r.offset).toNat
  | none => n

/-- The upper-case form of one character. -/
def upperChar (c : Char) : List Char :=
  match upperExpansions.lookup c.toNat with
  | some cs => cs.map Char.ofNat
  | none => [Char.ofNat (CaseRun.apply upperRuns c.toNat)]

/-- The lower-case form of one character, whatever surrounds it. -/
def lowerChar (c : Char) : List Char :=
  match lowerExpansions.lookup c.toNat with
  | some cs => cs.map Char.ofNat
  | none => [Char.ofNat (CaseRun.apply lowerRuns c.toNat)]

/-- Whether the first character that is not case-ignorable is a cased letter. -/
def meetsCased (cs : List Char) : Bool :=
  match cs.dropWhile caseIgnorable.mem with
  | c :: _ => cased.mem c
  | [] => false

/-- The lower-case form of a text. `before` holds the characters already passed, last first; a
capital sigma that ends a word there takes its final form. -/
def lowerChars : List Char → List Char → List Char
  | _, [] => []
  | before, c :: cs =>
    let form :=
      if c == 'Σ' then if meetsCased before && !meetsCased cs then ['ς'] else ['σ']
      else lowerChar c
    form ++ lowerChars (c :: before) cs

/-- The lower-case form of a text. -/
def lower (s : String) : String := .ofList (lowerChars [] s.toList)

end Amend.Text
