/-!
# Why a refactoring is refused

Every reason for which a refactoring leaves a source alone, with its wording.
-/

namespace Amend.Refactoring

/-- A reason not to rewrite. -/
inductive Refusal where
  | noMethod
  | methodWithoutName
  | varargs
  | notInClass
  | fewStatements (method : String) (count threshold : Nat)
  | nothingToExtract (method : String)
  | nothingToSimplify (first last : Nat)
  | noImport
  | wildcardImport
  | importWithoutName
  | stillReferenced (type : String)
  | notInType
  | typeWithoutBody
  | enumConstantArgument
  | noConstantsIn (kind : String)
  | noLiteral (line : Nat)
  | stillCalled (method : String)
  | fieldStillUsed (field : String)
  | noDeclaration (element : String)
  | stillUsed (element : String)
  | sharedDeclaration (element : String)
  | effectfulInitializer (element : String)
  | nothingUnreachable (first last : Nat)
  | notPrivate (method : String)
  | notSingleStatement (method : String)
  | recursive (method : String)
  | noCallers (method : String)
  | usedAsValue (method : String) (line : Nat)
  | argumentCount (line found expected : Nat)
  | effectfulArgument (parameter : String) (line uses : Nat)
  | effectsOutOfOrder (earlier later : String) (line : Nat)
  | isConstructor
  | receiverParameter
  | fewParameters (method : String) (count limit : Nat)
  | withoutBody
  | parameterNamedParams
  | overloaded (method : String)
  | noParameterList
  | variableNotGiven
  | notInMethod
  | notDeclared (name : String)
  | noNameForType (name : String)
  | sameName (name : String)
  | notIdentifier (name : String)
  | nameInUse (name : String)
  | voidMethod
  | notSingleSwitch (method : String)
  | noSelector
  | selectorNotParameter
  | noDefaultBranch
  | switchWithoutBody
  | arrowCase
  | caseNotSingleReturn
  | defaultGoesOn
  | caseWithoutValue
  | noCases
  | resourceNotInBlock
  | declarationNotInBlock
  | resourceNeverUsed (resource : String)
  | usedAfterClose (resource : String)
  | localUsedAfterClose (name : String)
  | noAllocation (line : Nat)
  | declaratorWithoutName
  | severalDeclarators
deriving DecidableEq

/-- The wording of a reason. -/
def Refusal.reason : Refusal → String
  | .noMethod => "no method at the defect location"
  | .methodWithoutName => "method has no name"
  | .varargs => "varargs are not supported"
  | .notInClass => "method is not inside a class"
  | .fewStatements method count threshold =>
    method ++ " has " ++ toString count ++ " statements, threshold is " ++ toString threshold
  | .nothingToExtract method => "no block in " ++ method ++ " can be extracted safely"
  | .nothingToSimplify first last =>
    "nothing to simplify in lines " ++ toString first ++ "-" ++ toString last
  | .noImport => "no import matches the defect"
  | .wildcardImport => "wildcard imports are not removed automatically"
  | .importWithoutName => "import has no name"
  | .stillReferenced type => type ++ " is still referenced"
  | .notInType => "literal is not inside a type"
  | .typeWithoutBody => "enclosing type has no body"
  | .enumConstantArgument => "literal in an enum constant cannot use a later field"
  | .noConstantsIn kind => "cannot declare a constant in " ++ kind
  | .noLiteral line => "no extractable literal on line " ++ toString line
  | .stillCalled method => method ++ "() is still called"
  | .fieldStillUsed field => "field " ++ field ++ " is still used"
  | .noDeclaration element => "no removable declaration of " ++ element
  | .stillUsed element => element ++ " is still used"
  | .sharedDeclaration element => element ++ " shares its declaration with other variables"
  | .effectfulInitializer element => "initializer of " ++ element ++ " has side effects"
  | .nothingUnreachable first last =>
    "no unreachable statements in lines " ++ toString first ++ "-" ++ toString last
  | .notPrivate method => method ++ " is not private"
  | .notSingleStatement method => method ++ " is not a single statement"
  | .recursive method => method ++ " is recursive"
  | .noCallers method => method ++ " has no callers to inline into"
  | .usedAsValue method line =>
    "void " ++ method ++ "() is used as a value at line " ++ toString line
  | .argumentCount line found expected =>
    "call at line " ++ toString line ++ " has " ++ toString found ++ " arguments, expected " ++
      toString expected
  | .effectfulArgument parameter line uses =>
    "argument for " ++ parameter ++ " at line " ++ toString line ++
      " has side effects and is used " ++ toString uses ++ " times"
  | .effectsOutOfOrder earlier later line =>
    "arguments for " ++ earlier ++ " and " ++ later ++ " at line " ++ toString line ++
      " have side effects and would run out of order"
  | .isConstructor => "constructors are not rewritten"
  | .receiverParameter => "varargs and receiver parameters are not supported"
  | .fewParameters method count limit =>
    method ++ " has " ++ toString count ++ " parameters, limit is " ++ toString limit
  | .withoutBody => "abstract methods are not rewritten"
  | .parameterNamedParams => "a parameter is already named params"
  | .overloaded method => method ++ " is overloaded; call sites are ambiguous"
  | .noParameterList => "method has no parameter list"
  | .variableNotGiven => "record does not name the variable"
  | .notInMethod => "variable is not inside a method"
  | .notDeclared name => name ++ " is not declared in this method"
  | .noNameForType name => "cannot infer a name for " ++ name
  | .sameName name => name ++ " already has that name"
  | .notIdentifier name => name ++ " is not a valid identifier"
  | .nameInUse name => name ++ " is already used in this method"
  | .voidMethod => "void methods have nothing to dispatch"
  | .notSingleSwitch method => method ++ " is not a single switch"
  | .noSelector => "switch has no selector"
  | .selectorNotParameter => "switch selector is not a plain parameter"
  | .noDefaultBranch => "switch has no default branch"
  | .switchWithoutBody => "switch has no body"
  | .arrowCase => "only colon-style case groups are supported"
  | .caseNotSingleReturn => "every case must be a single return"
  | .defaultGoesOn => "default must return or throw"
  | .caseWithoutValue => "every case must return a value"
  | .noCases => "switch has no case arms"
  | .resourceNotInBlock => "resource is not declared in a block"
  | .declarationNotInBlock => "declaration not found in its block"
  | .resourceNeverUsed resource => resource ++ " is never used"
  | .usedAfterClose resource => resource ++ " is used after it is closed"
  | .localUsedAfterClose name =>
    name ++ " is declared inside the resource scope and used after it"
  | .noAllocation line => "no resource allocation on line " ++ toString line
  | .declaratorWithoutName => "declarator has no name"
  | .severalDeclarators => "declaration introduces more than one variable"

end Amend.Refactoring
