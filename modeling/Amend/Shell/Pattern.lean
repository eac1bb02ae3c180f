/-!
# File name patterns

`*` stands for any text, `?` for any character and `[...]` for one of a set. A quoted character
stands for itself. A pattern as long as its text takes it in whole.
-/

namespace Amend.Shell

/-- A set of characters by ranges. -/
structure CharSet where
  negated : Bool
  ranges : List (Char × Char)

/-- Whether a character is in a set. -/
def CharSet.mem (s : CharSet) (c : Char) : Bool :=
  (s.ranges.any fun (lo, hi) => lo ≤ c && c ≤ hi) != s.negated

/-- A part of a pattern. -/
inductive PatternPart where
  | char (c : Char)
  | one
  | any
  | among (s : CharSet)

/-- A pattern. -/
abbrev Pattern := List PatternPart

/-- A character of an expanded word, and whether it can only stand for itself. -/
abbrev Glyph := Char × Bool

/-- Named classes of characters. -/
def namedClasses : List (String × List (Char × Char)) :=
  [("alpha", [('a', 'z'), ('A', 'Z')]), ("digit", [('0', '9')]),
   ("alnum", [('a', 'z'), ('A', 'Z'), ('0', '9')]), ("upper", [('A', 'Z')]),
   ("lower", [('a', 'z')]), ("space", [(' ', ' '), ('\t', '\x0d')]),
   ("blank", [(' ', ' '), ('\t', '\t')]), ("xdigit", [('0', '9'), ('a', 'f'), ('A', 'F')]),
   ("punct", [('!', '/'), (':', '@'), ('[', '\x60'), ('\x7b', '~')])]

/-- The ranges of the inside of brackets and what follows the closing one. A closing bracket that
comes first is a member. -/
def setRanges : Nat → Bool → List Char → Option (List (Char × Char) × List Char)
  | 0, _, _ => none
  | fuel + 1, first, cs =>
    let more (range : List (Char × Char)) (rest : List Char) :=
      (setRanges fuel false rest).map fun (ranges, after) => (range ++ ranges, after)
    match cs with
    | [] => none
    | ']' :: rest => if first then more [(']', ']')] rest else some ([], rest)
    | '[' :: ':' :: rest =>
      let name := rest.takeWhile Char.isAlpha
      match rest.drop name.length with
      | ':' :: ']' :: after => more ((namedClasses.lookup (.ofList name)).getD []) after
      | _ => more [('[', '[')] (':' :: rest)
    | lo :: '-' :: hi :: rest =>
      if hi == ']' then more [(lo, lo)] ('-' :: hi :: rest) else more [(lo, hi)] rest
    | c :: rest => more [(c, c)] rest

/-- The set that follows an opening bracket, and what follows it. -/
def charSet? (cs : List Char) : Option (CharSet × List Char) :=
  let (negated, inside) : Bool × List Char := match cs with
    | '!' :: rest | '^' :: rest => (true, rest)
    | _ => (false, cs)
  (setRanges (inside.length + 1) true inside).map fun (ranges, rest) => (⟨negated, ranges⟩, rest)

/-- The pattern of an expanded word. -/
def patternOf : Nat → List Glyph → Pattern
  | 0, _ => []
  | fuel + 1, gs =>
    match gs with
    | [] => []
    | ('*', false) :: rest => .any :: patternOf fuel rest
    | ('?', false) :: rest => .one :: patternOf fuel rest
    | ('[', false) :: rest =>
      match charSet? (rest.map (·.1)) with
      | some (set, after) => .among set :: patternOf fuel (rest.drop (rest.length - after.length))
      | none => .char '[' :: patternOf fuel rest
    | (c, _) :: rest => .char c :: patternOf fuel rest

/-- The pattern of a whole word. -/
def Pattern.ofGlyphs (gs : List Glyph) : Pattern := patternOf (gs.length + 1) gs

/-- Whether a word has a character that makes it a pattern. -/
def isPattern (gs : List Glyph) : Bool :=
  gs.any fun (c, literal) => !literal && (c == '*' || c == '?' || c == '[')

/-- Whether a condition holds of a text or one of its ends. -/
def anySuffix (p : List Char → Bool) : List Char → Bool
  | [] => p []
  | c :: cs => p (c :: cs) || anySuffix p cs

/-- Whether a pattern takes a text in whole. -/
def Pattern.accepts : Pattern → List Char → Bool
  | [], cs => cs.isEmpty
  | .any :: rest, cs => anySuffix (Pattern.accepts rest) cs
  | part :: rest, c :: cs =>
    (match part with
      | .char d => c == d
      | .one => true
      | .among s => s.mem c
      | .any => false) && Pattern.accepts rest cs
  | _ :: _, [] => false

/-- The text without its shortest or longest start that a pattern takes. -/
def Pattern.cutStart (p : Pattern) (longest : Bool) (cs : List Char) : List Char :=
  let lengths := (List.range (cs.length + 1)).filter fun n => p.accepts (cs.take n)
  match (if longest then lengths.getLast? else lengths.head?) with
  | some n => cs.drop n
  | none => cs

/-- The text without its shortest or longest end that a pattern takes. -/
def Pattern.cutEnd (p : Pattern) (longest : Bool) (cs : List Char) : List Char :=
  let lengths := (List.range (cs.length + 1)).filter fun n => p.accepts (cs.drop n)
  match (if longest then lengths.head? else lengths.getLast?) with
  | some n => cs.take n
  | none => cs

end Amend.Shell
