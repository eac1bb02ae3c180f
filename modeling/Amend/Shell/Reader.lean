import Amend.Shell.Script
import Amend.Text.Slice

/-!
# Read (scripts × Source)

A script is read one complete command at a time, as it is run, so that the commands before a
mistake take effect. Each reading function takes fuel, for which the number of characters left is
always enough.
-/

namespace Amend.Shell

/-- Script text that is still to be read, with the number of the line on which it starts. Lines
that were read ahead of their turn are added at the next line break. -/
structure Source where
  chars : List Char
  line : Nat := 1
  ahead : Nat := 0

namespace Source

/-- The source of a text. -/
def ofText (s : String) : Source := { chars := s.toList }

/-- The source behind its first line break, which `rest` follows. -/
def newline (s : Source) (rest : List Char) : Source :=
  { chars := rest, line := s.line + 1 + s.ahead }

/-- The source with other characters on the same line. -/
def move (s : Source) (rest : List Char) : Source := { s with chars := rest }

end Source

/-- What reading yields, or why and on which line the text is no script. -/
abbrev Read := Except (ScriptError × Nat)

/-- A reading that fails on the line of a source. -/
def Source.fail {α : Type} (s : Source) (e : ScriptError) : Read α := .error (e, s.line)

/-! ## Words -/

/-- Characters that end an unquoted word. -/
def isWordEnd (c : Char) : Bool := " \t\n;&|<>()".toList.contains c

/-- Whether a character can start a name. -/
def isNameStart (c : Char) : Bool := c.isAlpha || c == '_'

/-- Whether a character can stand in a name. -/
def isNameChar (c : Char) : Bool := c.isAlphanum || c == '_'

/-- Whether a text is a name. -/
def isName (s : String) : Bool :=
  match s.toList with
  | c :: cs => isNameStart c && cs.all isNameChar
  | [] => false

/-- The text up to the bracket that closes one already open, and what follows that bracket.
Quoted brackets do not count. -/
def closing (opening close : Char) : Nat → Nat → List Char → Option (List Char × List Char)
  | 0, _, _ => none
  | fuel + 1, depth, cs =>
    let keep (taken rest : List Char) (depth : Nat) :=
      (closing opening close fuel depth rest).map fun (inside, after) => (taken ++ inside, after)
    match cs with
    | [] => none
    | '\\' :: c :: rest => keep ['\\', c] rest depth
    | '\'' :: rest =>
      let inside := rest.takeWhile (· != '\'')
      keep ('\'' :: inside ++ ['\'']) ((rest.dropWhile (· != '\'')).drop 1) depth
    | c :: rest =>
      if c == close then
        if depth = 0 then some ([], rest) else keep [c] rest (depth - 1)
      else keep [c] rest (if c == opening then depth + 1 else depth)

/-- The form of a parameter by what follows its name in braces. -/
def formOf (cs : List Char) : Option ParameterForm :=
  match cs with
  | [] => some .plain
  | ':' :: '-' :: w => some (.orElse true (.ofList w))
  | '-' :: w => some (.orElse false (.ofList w))
  | ':' :: '=' :: w => some (.orAssign true (.ofList w))
  | '=' :: w => some (.orAssign false (.ofList w))
  | ':' :: '?' :: w => some (.orFail true (.ofList w))
  | '?' :: w => some (.orFail false (.ofList w))
  | ':' :: '+' :: w => some (.instead true (.ofList w))
  | '+' :: w => some (.instead false (.ofList w))
  | '%' :: '%' :: w => some (.cutEnd true (.ofList w))
  | '%' :: w => some (.cutEnd false (.ofList w))
  | '#' :: '#' :: w => some (.cutStart true (.ofList w))
  | '#' :: w => some (.cutStart false (.ofList w))
  | _ => none

/-- Names of parameters that are one special character. -/
def specialParameters : List Char := ['?', '$', '!', '#', '@', '*', '-']

/-- The name at the start of a text, a special one if there is no other, and what follows. -/
def nameAtStart (cs : List Char) : List Char × List Char :=
  match cs with
  | c :: rest =>
    if isNameStart c then (cs.takeWhile isNameChar, cs.dropWhile isNameChar)
    else if c.isDigit then (cs.takeWhile Char.isDigit, cs.dropWhile Char.isDigit)
    else if specialParameters.contains c then ([c], rest)
    else ([], cs)
  | [] => ([], [])

/-- The parameter that stands in braces. -/
def bracedParameter (inside : List Char) (quoted : Bool) : Option Piece :=
  match inside with
  | '#' :: rest@(_ :: _) =>
    match nameAtStart rest with
    | (name@(_ :: _), []) => some (.parameter (.ofList name) .length quoted)
    | _ => none
  | _ =>
    match nameAtStart inside with
    | ([], _) => none
    | (name, rest) => (formOf rest).map fun form => .parameter (.ofList name) form quoted

/-- The number of line breaks in a text. -/
def lineBreaks (cs : List Char) : Nat := (cs.filter (· == '\n')).length

/-- The expansion behind a dollar sign. A sign that starts none stands for itself. -/
def dollar (s : Source) (cs : List Char) (quoted : Bool) : Read (Piece × Source) :=
  let beyond (inside after : List Char) : Source :=
    { s with chars := after, line := s.line + lineBreaks inside }
  match cs with
  | '(' :: '(' :: rest =>
    match closing '(' ')' (rest.length + 1) 0 rest with
    | some (inside, ')' :: after) =>
      .ok (.arithmetic (.ofList inside) quoted, beyond inside after)
    | some _ | none =>
      match closing '(' ')' (rest.length + 2) 0 ('(' :: rest) with
      | some (inside, after) => .ok (.output (.ofList inside) quoted, beyond inside after)
      | none => s.fail .unterminatedArithmetic
  | '(' :: rest =>
    match closing '(' ')' (rest.length + 1) 0 rest with
    | some (inside, after) => .ok (.output (.ofList inside) quoted, beyond inside after)
    | none => s.fail .unterminatedSubstitution
  | '{' :: rest =>
    match closing '{' '}' (rest.length + 1) 0 rest with
    | some (inside, after) =>
      match bracedParameter inside quoted with
      | some piece => .ok (piece, beyond inside after)
      | none => s.fail .badSubstitution
    | none => s.fail .unterminatedBraces
  | c :: rest =>
    if c.isDigit then .ok (.parameter (.singleton c) .plain quoted, s.move rest)
    else
      match nameAtStart cs with
      | ([], _) => .ok (.text "$" quoted, s.move cs)
      | (name, rest) => .ok (.parameter (.ofList name) .plain quoted, s.move rest)
  | [] => .ok (.text "$" quoted, s.move [])

/-- The text up to a backquote, in which a backslash guards itself, a dollar sign, a backquote and,
inside quotes, a quote, and what follows. -/
def backquoted (quoted : Bool) : List Char → Option (List Char × List Char)
  | [] => none
  | '\x60' :: rest => some ([], rest)
  | '\\' :: c :: rest =>
    (backquoted quoted rest).map fun (inside, after) =>
      ((if c == '\x60' || c == '\\' || c == '$' || (quoted && c == '"') then [c]
        else ['\\', c]) ++ inside, after)
  | c :: rest => (backquoted quoted rest).map fun (inside, after) => (c :: inside, after)

/-- Puts a character in front of pieces, into the first if that is text quoted alike. -/
def pushChar (c : Char) (quoted : Bool) (pieces : List Piece) : List Piece :=
  match pieces with
  | .text s q :: rest =>
    if q == quoted then .text (String.singleton c ++ s) q :: rest
    else .text (.singleton c) quoted :: pieces
  | _ => .text (.singleton c) quoted :: pieces

/-- The pieces between double quotes, up to the closing quote if `closed`, else up to the end. -/
def quotedPieces (closed : Bool) : Nat → Source → Read (List Piece × Source)
  | 0, s => s.fail .unterminatedQuote
  | fuel + 1, s => do
    let plain (c : Char) (s : Source) : Read (List Piece × Source) := do
      let (pieces, s) ← quotedPieces closed fuel s
      return (pushChar c true pieces, s)
    match s.chars with
    | [] => if closed then s.fail .unterminatedQuote else return ([], s)
    | '"' :: rest => if closed then return ([], s.move rest) else plain '"' (s.move rest)
    | '\\' :: '\n' :: rest => quotedPieces closed fuel (s.newline rest)
    | '\\' :: c :: rest =>
      if c == '$' || c == '\x60' || c == '\\' || (closed && c == '"') then plain c (s.move rest)
      else plain '\\' (s.move (c :: rest))
    | '$' :: rest =>
      let (piece, s) ← dollar s rest true
      let (pieces, s) ← quotedPieces closed fuel s
      return (piece :: pieces, s)
    | '\x60' :: rest =>
      match backquoted true rest with
      | some (inside, after) =>
        let (pieces, s) ← quotedPieces closed fuel (s.move after)
        return (.output (.ofList inside) true :: pieces, s)
      | none => s.fail .unterminatedQuote
    | '\n' :: rest => plain '\n' (s.newline rest)
    | c :: rest => plain c (s.move rest)

/-- The pieces of a word, up to where it ends. In a whole text every character belongs to it. -/
def wordPieces (whole : Bool) : Nat → Source → Read (List Piece × Source)
  | 0, s => .ok ([], s)
  | fuel + 1, s => do
    match s.chars with
    | [] => return ([], s)
    | '\\' :: '\n' :: rest => wordPieces whole fuel (s.newline rest)
    | '\\' :: c :: rest =>
      let (pieces, s) ← wordPieces whole fuel (s.move rest)
      return (.text (.singleton c) true :: pieces, s)
    | '\'' :: rest =>
      let inside := rest.takeWhile (· != '\'')
      match rest.dropWhile (· != '\'') with
      | [] => s.fail .unterminatedQuote
      | _ :: after =>
        let s := { s with chars := after, line := s.line + lineBreaks inside }
        let (pieces, s) ← wordPieces whole fuel s
        return (.text (.ofList inside) true :: pieces, s)
    | '"' :: rest =>
      let (inside, s) ← quotedPieces true (rest.length + 1) (s.move rest)
      let (pieces, s) ← wordPieces whole fuel s
      return ((if inside.isEmpty then [.text "" true] else inside) ++ pieces, s)
    | '$' :: rest =>
      let (piece, s) ← dollar s rest false
      let (pieces, s) ← wordPieces whole fuel s
      return (piece :: pieces, s)
    | '\x60' :: rest =>
      match backquoted false rest with
      | some (inside, after) =>
        let (pieces, s) ← wordPieces whole fuel (s.move after)
        return (.output (.ofList inside) false :: pieces, s)
      | none => s.fail .unterminatedQuote
    | c :: rest =>
      if !whole && isWordEnd c then return ([], s)
      else
        let (pieces, s) ← wordPieces whole fuel (s.move rest)
        return (pushChar c false pieces, s)

/-- The word that a whole text is. -/
def wordOfText (text : String) : Read Word :=
  (wordPieces true (text.length + 1) (.ofText text)).map (·.1)

/-- The quoted word that a whole text is. -/
def quotedOfText (text : String) : Read Word :=
  (quotedPieces false (text.length + 1) (.ofText text)).map (·.1)

/-! ## Tokens -/

/-- The number that decimal digits write. -/
def numberOf (digits : List Char) : Nat := digits.foldl (fun n c => 10 * n + (c.toNat - 48)) 0

/-- A token of a script. -/
inductive Token where
  | eof
  | newline
  | operator (s : String)
  /-- The number of a file that is redirected. -/
  | number (n : Nat)
  | word (w : Word)

/-- Operators, longer ones before those that they start with. -/
def operators : List String :=
  ["&&", "||", ";;", "<<-", "<<", ">>", "<&", ">&", "<>", ">|", ";", "&", "|", "<", ">", "(", ")"]

/-- The source behind blanks and comments. -/
def skipBlanks : Nat → Source → Source
  | 0, s => s
  | fuel + 1, s =>
    match s.chars with
    | ' ' :: rest | '\t' :: rest => skipBlanks fuel (s.move rest)
    | '\\' :: '\n' :: rest => skipBlanks fuel (s.newline rest)
    | '#' :: rest => s.move (rest.dropWhile (· != '\n'))
    | _ => s

/-- The next token. -/
def nextToken (s : Source) : Read (Token × Source) := do
  let s := skipBlanks (s.chars.length + 1) s
  match s.chars with
  | [] => return (.eof, s)
  | '\n' :: rest => return (.newline, s.newline rest)
  | cs =>
    match operators.find? fun o => o.toList.isPrefixOf cs with
    | some o => return (.operator o, s.move (cs.drop o.length))
    | none =>
      let digits := cs.takeWhile Char.isDigit
      let after := cs.drop digits.length
      if !digits.isEmpty && (after.head? == some '<' || after.head? == some '>') then
        return (.number (numberOf digits), s.move after)
      let (w, s) ← wordPieces false (cs.length + 1) s
      return (.word w, s)

/-- The text of a word that is one unquoted piece of text. -/
def bareText (w : Word) : String :=
  match w with
  | [.text s false] => s
  | _ => ""

/-- Words that have a meaning of their own where a command starts. -/
def reservedWords : List String :=
  ["if", "then", "else", "elif", "fi", "while", "until", "do", "done", "for", "in", "case",
   "esac", "\x7b", "\x7d", "!"]

/-- A token as messages name it. -/
def Token.describe : Token → String
  | .eof => "end of file"
  | .newline => "newline"
  | .operator o => "\"" ++ o ++ "\""
  | .number _ => "redirection"
  | .word w => if reservedWords.contains (bareText w) then "\"" ++ bareText w ++ "\"" else "word"

/-- The failure of a token that cannot stand where it does. -/
def Source.reject {α : Type} (s : Source) (t : Token) (expected : Option String := none) :
    Read α :=
  s.fail (.unexpected t.describe (expected.map fun e => "\"" ++ e ++ "\""))

/-- Skips line breaks. -/
def skipNewlines : Nat → Source → Source
  | 0, s => s
  | fuel + 1, s =>
    let t := skipBlanks (s.chars.length + 1) s
    match t.chars with
    | '\n' :: rest => skipNewlines fuel (t.newline rest)
    | _ => t

/-! ## Redirections -/

/-- The lines of an inline text up to the one that ends it, and what follows. -/
def inlineBody (stop : String) (stripTabs : Bool) : Nat → List Char → List Char × List Char
  | 0, cs => ([], cs)
  | fuel + 1, cs =>
    match cs with
    | [] => ([], [])
    | _ =>
      let line := cs.takeWhile (· != '\n')
      let rest := (cs.drop line.length).drop 1
      let line := if stripTabs then line.dropWhile (· == '\t') else line
      if String.ofList line == stop then ([], rest)
      else
        let (body, after) := inlineBody stop stripTabs fuel rest
        (line ++ '\n' :: body, after)

/-- The text of a word without its quotes, and whether it has any. -/
def unquotedText (w : Word) : String × Bool :=
  w.foldl (fun (text, quoted) piece =>
    match piece with
    | .text s q => (text ++ s, quoted || q)
    | .parameter name _ _ => (text ++ "$" ++ name, quoted)
    | .arithmetic source _ | .output source _ => (text ++ source, quoted)) ("", false)

/-- Reads an inline text that starts on the next line. The rest of the line comes first. -/
def inlineText (s : Source) (mark : Word) (stripTabs : Bool) : Read (Word × Source) := do
  let (stop, quoted) := unquotedText mark
  let line := s.chars.takeWhile (· != '\n')
  let below := (s.chars.drop line.length).drop 1
  let (body, after) := inlineBody stop stripTabs (below.length + 1) below
  let text := String.ofList body
  let word ← if quoted then pure [.text text true] else quotedOfText text
  return (word, { s with chars := line ++ '\n' :: after
                         ahead := s.ahead + (lineBreaks below - lineBreaks after) })

/-- The redirection that an operator starts. -/
def redirectOf (o : String) (number : Option Nat) (s : Source) : Read (Redirect × Source) := do
  let (t, after) ← nextToken s
  match t with
  | .word w =>
    let entry (n : Nat) (kind : RedirectKind) : Read (Redirect × Source) :=
      .ok (⟨number.getD n, kind, w⟩, after)
    match o with
    | "<" => entry 0 .read
    | ">" | ">|" => entry 1 .write
    | ">>" => entry 1 .append
    | "<>" => entry 0 .readWrite
    | "<&" => entry 0 .duplicate
    | ">&" => entry 1 .duplicate
    | _ =>
      let (body, after) ← inlineText after w (o == "<<-")
      return (⟨number.getD 0, .inline, body⟩, after)
  | t => s.reject t

/-- Whether an operator starts a redirection. -/
def isRedirection (o : String) : Bool :=
  ["<", ">", ">|", ">>", "<>", "<&", ">&", "<<", "<<-"].contains o

/-- The redirections at the start of a source. -/
def redirects : Nat → Source → Read (List Redirect × Source)
  | 0, s => .ok ([], s)
  | fuel + 1, s => do
    let (t, after) ← nextToken s
    match t with
    | .number n =>
      match ← nextToken after with
      | (.operator o, after) =>
        let (r, s) ← redirectOf o (some n) after
        let (rs, s) ← redirects fuel s
        return (r :: rs, s)
      | (t, _) => s.reject t
    | .operator o =>
      if isRedirection o then
        let (r, s) ← redirectOf o none after
        let (rs, s) ← redirects fuel s
        return (r :: rs, s)
      else return ([], s)
    | _ => return ([], s)

/-! ## Commands -/

/-- A word that assigns a value to a name. -/
def assignment? (w : Word) : Option (String × Word) :=
  match w with
  | .text s false :: rest =>
    let cs := s.toList
    let name := cs.takeWhile (· != '=')
    match cs.drop name.length with
    | _ :: value =>
      if isName (.ofList name) then
        some (.ofList name, if value.isEmpty then rest else .text (.ofList value) false :: rest)
      else none
    | [] => none
  | _ => none

/-- The rest of a simple command: further assignments while there are no words, words and
redirections, each list given last first. -/
def simpleRest (line : Nat) : Nat → List (String × Word) → List Word → List Redirect → Source →
    Read (Script × Source)
  | 0, assigned, words, rs, s =>
    .ok (.simple line assigned.reverse words.reverse rs.reverse, s)
  | fuel + 1, assigned, words, rs, s => do
    let (t, after) ← nextToken s
    match t with
    | .word w =>
      match (if words.isEmpty then assignment? w else none) with
      | some a => simpleRest line fuel (a :: assigned) words rs after
      | none => simpleRest line fuel assigned (w :: words) rs after
    | .number n =>
      match ← nextToken after with
      | (.operator o, after) =>
        let (r, s) ← redirectOf o (some n) after
        simpleRest line fuel assigned words (r :: rs) s
      | (t, _) => s.reject t
    | .operator o =>
      if isRedirection o then
        let (r, s) ← redirectOf o none after
        simpleRest line fuel assigned words (r :: rs) s
      else return (.simple line assigned.reverse words.reverse rs.reverse, s)
    | _ => return (.simple line assigned.reverse words.reverse rs.reverse, s)

/-- Goes over a reserved word that has to come next. -/
def expectWord (expected : String) (s : Source) : Read Source := do
  let (t, after) ← nextToken s
  match t with
  | .word w =>
    if bareText w == expected then return after
    else s.reject t (some expected)
  | t => s.reject t (some expected)

/-- The words up to the end of the line or a semicolon. -/
def wordsToLineEnd : Nat → Source → Read (List Word × Source)
  | 0, s => .ok ([], s)
  | fuel + 1, s => do
    let (t, after) ← nextToken s
    match t with
    | .word w =>
      let (ws, s) ← wordsToLineEnd fuel after
      return (w :: ws, s)
    | .newline | .operator ";" => return ([], after)
    | t => s.reject t

/-- The patterns of an arm, up to the closing bracket. -/
def armPatterns : Nat → Source → Read (List Word × Source)
  | 0, s => .ok ([], s)
  | fuel + 1, s => do
    let (t, after) ← nextToken s
    match t with
    | .word w =>
      match ← nextToken after with
      | (.operator "|", after) =>
        let (ws, s) ← armPatterns fuel after
        return (w :: ws, s)
      | (.operator ")", after) => return ([w], after)
      | (t, _) => s.reject t (some ")")
    | t => s.reject t

/-- Words that end a list of commands. -/
def listEnds : List String := ["then", "else", "elif", "fi", "do", "done", "esac", "\x7d"]

mutual

/-- Commands up to a word or bracket that ends them; on one line only, if so marked, together with
its end. -/
def commandList : Nat → Bool → Source → Read (Script × Source)
  | 0, _, s => .ok (.empty, s)
  | fuel + 1, oneLine, s => do
    let s := if oneLine then s else skipNewlines (s.chars.length + 1) s
    let (t, after) ← nextToken s
    let stops : Bool := match t with
      | .eof | .operator ")" | .operator ";;" => true
      | .word w => listEnds.contains (bareText w)
      | _ => false
    match stops, oneLine, t with
    | true, true, .eof | true, false, _ => return (.empty, s)
    | true, true, _ => s.reject t
    | false, _, .newline => return (.empty, after)
    | false, _, _ =>
      let (first, s) ← andOr fuel s
      match ← nextToken s with
      | (.operator ";", after) =>
        let (rest, s) ← commandList fuel oneLine after
        return (.sequence first rest, s)
      | (.operator "&", after) =>
        let (rest, s) ← commandList fuel oneLine after
        return (.sequence (.background first) rest, s)
      | (.newline, after) =>
        if oneLine then return (first, after)
        let (rest, s) ← commandList fuel oneLine after
        return (.sequence first rest, s)
      | (.eof, _) => return (first, s)
      | (t, _) => if oneLine then s.reject t else return (first, s)

/-- Pipelines of which each depends on the success or failure of the one before. -/
def andOr : Nat → Source → Read (Script × Source)
  | 0, s => .ok (.empty, s)
  | fuel + 1, s => do
    let (first, s) ← pipeline fuel s
    andOrRest fuel first s

/-- What follows a pipeline that the next one depends on. -/
def andOrRest : Nat → Script → Source → Read (Script × Source)
  | 0, first, s => .ok (first, s)
  | fuel + 1, first, s => do
    match ← nextToken s with
    | (.operator "&&", after) =>
      let (second, s) ← pipeline fuel (skipNewlines (after.chars.length + 1) after)
      andOrRest fuel (.both first second) s
    | (.operator "||", after) =>
      let (second, s) ← pipeline fuel (skipNewlines (after.chars.length + 1) after)
      andOrRest fuel (.either first second) s
    | _ => return (first, s)

/-- Commands of which each reads what the one before writes. -/
def pipeline : Nat → Source → Read (Script × Source)
  | 0, s => .ok (.empty, s)
  | fuel + 1, s => do
    let (t, after) ← nextToken s
    match t with
    | .word w =>
      if bareText w == "!" then
        let (inner, s) ← pipeline fuel after
        return (.not inner, s)
      else pipelineFrom fuel s
    | _ => pipelineFrom fuel s

/-- A pipeline that starts with a command. -/
def pipelineFrom : Nat → Source → Read (Script × Source)
  | 0, s => .ok (.empty, s)
  | fuel + 1, s => do
    let (first, s) ← command fuel s
    match ← nextToken s with
    | (.operator "|", after) =>
      let (rest, s) ← pipelineFrom fuel (skipNewlines (after.chars.length + 1) after)
      return (.pipe first rest, s)
    | _ => return (first, s)

/-- A list of commands that must not be empty, unless the script ends there. -/
def someCommands : Nat → Source → Read (Script × Source)
  | 0, s => .ok (.empty, s)
  | fuel + 1, s => do
    let (body, after) ← commandList fuel false s
    match body with
    | .empty =>
      match ← nextToken after with
      | (.eof, _) => return (.empty, after)
      | (t, _) => after.reject t
    | body => return (body, after)

/-- A compound command with the redirections behind it. -/
def withRedirects : Nat → Script → Source → Read (Script × Source)
  | 0, body, s => .ok (body, s)
  | fuel + 1, body, s => do
    let (rs, s) ← redirects fuel s
    return (if rs.isEmpty then body else .redirected body rs, s)

/-- One command. -/
def command : Nat → Source → Read (Script × Source)
  | 0, s => .ok (.empty, s)
  | fuel + 1, s => do
    let start := skipBlanks (s.chars.length + 1) s
    let (t, after) ← nextToken start
    match t with
    | .operator "(" =>
      let (body, s) ← someCommands fuel after
      match ← nextToken s with
      | (.operator ")", s) => withRedirects fuel (.subshell body) s
      | (t, _) => s.reject t (some ")")
    | .operator o => if isRedirection o then simpleRest start.line fuel [] [] [] s else s.reject t
    | .number _ => simpleRest start.line fuel [] [] [] s
    | .eof | .newline => s.reject t
    | .word w =>
      match bareText w with
      | "\x7b" =>
        let (body, s) ← someCommands fuel after
        withRedirects fuel body (← expectWord "\x7d" s)
      | "if" =>
        let (body, s) ← branches fuel after
        withRedirects fuel body s
      | "while" | "until" =>
        let (condition, s) ← someCommands fuel after
        let (body, s) ← someCommands fuel (← expectWord "do" s)
        withRedirects fuel (.loop (bareText w == "until") condition body) (← expectWord "done" s)
      | "for" => forLoop fuel after
      | "case" => choice fuel after
      | name =>
        if reservedWords.contains name then s.reject t
        else
          match ← nextToken after with
          | (.operator "(", inner) =>
            match ← nextToken inner with
            | (.operator ")", s) =>
              if !isName name then s.reject t
              let (body, s) ← command fuel (skipNewlines (s.chars.length + 1) s)
              return (.define name body, s)
            | (t, _) => inner.reject t (some ")")
          | _ => simpleRest start.line fuel [] [] [] s

/-- The rest of a conditional command. -/
def branches : Nat → Source → Read (Script × Source)
  | 0, s => .ok (.empty, s)
  | fuel + 1, s => do
    let (condition, s) ← someCommands fuel s
    let (yes, s) ← someCommands fuel (← expectWord "then" s)
    let (t, after) ← nextToken s
    match t with
    | .word w =>
      match bareText w with
      | "fi" => return (.branch condition yes .empty, after)
      | "elif" =>
        let (no, s) ← branches fuel after
        return (.branch condition yes no, s)
      | "else" =>
        let (no, s) ← someCommands fuel after
        return (.branch condition yes no, ← expectWord "fi" s)
      | _ => s.reject t (some "fi")
    | t => s.reject t (some "fi")

/-- The rest of a loop over words. -/
def forLoop : Nat → Source → Read (Script × Source)
  | 0, s => .ok (.empty, s)
  | fuel + 1, s => do
    match ← nextToken s with
    | (.word w, s) =>
      let name := bareText w
      if !isName name then s.fail .badLoopVariable
      let t := skipNewlines (s.chars.length + 1) s
      let (words, s) ← (do
        match ← nextToken t with
        | (.word w, after) =>
          if bareText w == "in" then
            let (ws, s) ← wordsToLineEnd (after.chars.length + 1) after
            pure (some ws, s)
          else pure (none, t)
        | (.operator ";", after) => pure (none, after)
        | _ => pure (none, t))
      let s ← expectWord "do" (skipNewlines (s.chars.length + 1) s)
      let (body, s) ← someCommands fuel s
      withRedirects fuel (.each name words body) (← expectWord "done" s)
    | _ => s.fail .badLoopVariable

/-- The rest of a choice by patterns. -/
def choice : Nat → Source → Read (Script × Source)
  | 0, s => .ok (.empty, s)
  | fuel + 1, s => do
    match ← nextToken s with
    | (.word subject, s) =>
      let s ← expectWord "in" (skipNewlines (s.chars.length + 1) s)
      let (all, s) ← arms fuel s
      withRedirects fuel (.choice subject all) (← expectWord "esac" s)
    | (t, _) => s.fail (.unexpected t.describe (some "word"))

/-- The arms of a choice. -/
def arms : Nat → Source → Read (Script × Source)
  | 0, s => .ok (.empty, s)
  | fuel + 1, s => do
    let s := skipNewlines (s.chars.length + 1) s
    let (t, after) ← nextToken s
    match t with
    | .word w => if bareText w == "esac" then return (.empty, s) else armFrom fuel s
    | .operator "(" => armFrom fuel after
    | t => s.reject t (some ")")

/-- An arm and those behind it. -/
def armFrom : Nat → Source → Read (Script × Source)
  | 0, s => .ok (.empty, s)
  | fuel + 1, s => do
    let (patterns, s) ← armPatterns (s.chars.length + 1) s
    let (body, s) ← commandList fuel false s
    match ← nextToken s with
    | (.operator ";;", after) =>
      let (rest, s) ← arms fuel after
      return (.arm patterns body rest, s)
    | _ => return (.arm patterns body .empty, s)

end

/-- The next complete command of a source and what is left of it; none at the end. -/
def nextCommand (s : Source) : Read (Option (Script × Source)) := do
  let s := skipNewlines (s.chars.length + 1) s
  match s.chars with
  | [] => return none
  | cs =>
    let (script, rest) ← commandList (8 * cs.length + 16) true s
    if rest.chars.length < cs.length then return some (script, rest)
    else
      let (t, _) ← nextToken rest
      rest.reject t

end Amend.Shell
