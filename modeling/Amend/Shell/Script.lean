/-!
# Shell scripts

The shape of a script: words with the expansions in them, redirections, and commands built from
simple ones. Text that is expanded only when it is reached, such as the inside of a command
substitution, is kept as written.
-/

namespace Amend.Shell

/-- What is done with the value of a parameter. A flag on a form tells whether an empty value
counts as none, or, for cuts, whether the longest match is cut. -/
inductive ParameterForm where
  | plain
  | length
  | orElse (emptyToo : Bool) (word : String)
  | orAssign (emptyToo : Bool) (word : String)
  | orFail (emptyToo : Bool) (word : String)
  | instead (emptyToo : Bool) (word : String)
  | cutEnd (longest : Bool) (pattern : String)
  | cutStart (longest : Bool) (pattern : String)

/-- A piece of a word. A quoted piece is neither split nor matched against file names. -/
inductive Piece where
  | text (s : String) (quoted : Bool)
  | parameter (name : String) (form : ParameterForm) (quoted : Bool)
  | arithmetic (source : String) (quoted : Bool)
  | output (source : String) (quoted : Bool)

/-- A word of a command. -/
abbrev Word := List Piece

/-- What a redirection does with a file number. -/
inductive RedirectKind where
  | read
  | write
  | append
  | readWrite
  /-- The number becomes another name of an open file. -/
  | duplicate
  /-- The text stands in the script itself. -/
  | inline

/-- A redirection of a file number. -/
structure Redirect where
  number : Nat
  kind : RedirectKind
  target : Word

/-- A script. The arms of a choice are a chain of `arm`. -/
inductive Script where
  | empty
  | simple (line : Nat) (assignments : List (String × Word)) (words : List Word)
      (redirects : List Redirect)
  | sequence (first second : Script)
  | both (first second : Script)
  | either (first second : Script)
  | not (s : Script)
  | pipe (first second : Script)
  | background (s : Script)
  | subshell (s : Script)
  | redirected (s : Script) (redirects : List Redirect)
  | branch (condition yes no : Script)
  /-- Runs the body as long as the condition succeeds, or fails if so marked. -/
  | loop (untilSuccess : Bool) (condition body : Script)
  | each (name : String) (words : Option (List Word)) (body : Script)
  | choice (subject : Word) (arms : Script)
  | arm (patterns : List Word) (body rest : Script)
  | define (name : String) (body : Script)
deriving Inhabited

/-- Why a script cannot be read. -/
inductive ScriptError where
  /-- A token that cannot stand where it does; what should stand there, if one thing. -/
  | unexpected (token : String) (expected : Option String)
  | unterminatedQuote
  | unterminatedSubstitution
  | unterminatedArithmetic
  | unterminatedBraces
  | badSubstitution
  | badLoopVariable

/-- The report of an error. -/
def ScriptError.message : ScriptError → String
  | .unexpected token expected =>
    "Syntax error: " ++ token ++ " unexpected" ++
      (match expected with
        | some e => " (expecting " ++ e ++ ")"
        | none => "")
  | .unterminatedQuote => "Syntax error: Unterminated quoted string"
  | .unterminatedSubstitution => "Syntax error: end of file unexpected (expecting \")\")"
  | .unterminatedBraces => "Syntax error: Missing '\x7d'"
  | .unterminatedArithmetic => "Syntax error: Missing '))'"
  | .badSubstitution => "Bad substitution"
  | .badLoopVariable => "Syntax error: Bad for loop variable"

end Amend.Shell
