import Amend.Text.Alphabet
import Amend.Text.Blank
import Amend.Text.LetterCase
import Amend.Text.Slice

/-!
# Names in Java

What is a legal identifier, how a name is spelled in each naming convention, and how a fresh name
is found among taken ones.
-/

namespace Amend.Java

/-- The words that are no identifiers. -/
def keywords : List String :=
  ["abstract", "assert", "boolean", "break", "byte", "case", "catch", "char", "class",
   "const", "continue", "default", "do", "double", "else", "enum", "extends", "final",
   "finally", "float", "for", "goto", "if", "implements", "import", "instanceof", "int",
   "interface", "long", "native", "new", "package", "private", "protected", "public",
   "return", "short", "static", "strictfp", "super", "switch", "synchronized", "this",
   "throw", "throws", "transient", "try", "void", "volatile", "while", "true", "false",
   "null", "var", "yield", "record"]

/-- Whether a word is reserved. -/
def isKeyword (word : String) : Bool := keywords.contains word

/-- Whether an identifier may start with `c`. -/
def isNameStart (c : Char) : Bool := Text.isLetter c || c == '_' || c == '$'

/-- Whether an identifier may go on with `c`. -/
def isNamePart (c : Char) : Bool := Text.isAlphanumeric c || c == '_' || c == '$'

/-- Whether a word is a legal identifier. -/
def isIdentifier (word : String) : Bool :=
  match word.toList with
  | [] => false
  | first :: rest => isNameStart first && rest.all isNamePart && !isKeyword word

/-- The name with its first character in upper case: `createUser` becomes `CreateUser`. -/
def toPascalCase (name : String) : String :=
  match name.toList with
  | [] => ""
  | first :: rest => .ofList (Text.upperChar first ++ rest)

/-- The name with its first character in lower case, and all of it when nothing in it is lower
case: `BufferedReader` becomes `bufferedReader`, `URL` becomes `url`. -/
def toLowerCamel (name : String) : String :=
  match name.toList with
  | [] => ""
  | first :: rest =>
    if (first :: rest).all fun c => !Text.isLower c then Text.lower name
    else .ofList (Text.lowerChar first ++ rest)

/-- The characters of the upper-snake spelling, last first: `out` holds those so far, and
`wasLower` says whether the character before was a lower-case letter or a digit. -/
def snakeStep : List Char × Bool → Char → List Char × Bool
  | (out, wasLower), c =>
    if Text.isAlphanumeric c then
      let out :=
        if Text.isUpper c && wasLower && out.head? != some '_' then '_' :: out else out
      ((Text.upperChar c).reverse ++ out, Text.isLower c || ('0' ≤ c && c ≤ '9'))
    else if !out.isEmpty && out.head? != some '_' then ('_' :: out, false)
    else (out, false)

/-- The upper-snake spelling: `createUser` and `create user` both become `CREATE_USER`. -/
def toUpperSnake (name : String) : String :=
  let (out, _) := name.toList.foldl snakeStep ([], false)
  .ofList (out.dropWhile (· == '_')).reverse

/-- The candidates after the base itself: the base followed by 2, 3 and so on, one more of them
than there are taken names, so one is free. -/
def numbered (base : String) (taken : List String) : List String :=
  (List.range (taken.length + 1)).map fun i => base ++ toString (i + 2)

/-- The base if it is not taken, else the base with the smallest number from 2 on that makes it
free. -/
def uniqueName (base : String) (taken : List String) : String :=
  if taken.contains base then
    ((numbered base taken).find? fun name => !taken.contains name).getD base
  else base

/-- A type's name without type arguments, dimensions and qualifier:
`java.util.List<String>[]` becomes `List`. -/
def simpleTypeName (typeText : String) : String :=
  let base := (Text.trim (.ofList (typeText.toList.takeWhile fun c => c != '<' && c != '[')))
  .ofList ((base.toList.reverse.takeWhile (· != '.')).reverse)

/-- The class that stands for a primitive type as a type argument; any other type stands for
itself. -/
def boxed (typeText : String) : String :=
  match typeText with
  | "int" => "Integer"
  | "long" => "Long"
  | "short" => "Short"
  | "byte" => "Byte"
  | "char" => "Character"
  | "boolean" => "Boolean"
  | "double" => "Double"
  | "float" => "Float"
  | other => other

end Amend.Java
