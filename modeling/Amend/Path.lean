import Amend.Text.Slice

/-!
# File paths

A path is a text of names separated by slashes. Repeated slashes, a trailing slash and inner `.`
components mean nothing; two paths are the same when their components are. Resolving a path here
never looks at a file system: `..` drops the component before it.
-/

namespace Amend

/-- A path as it was written. -/
structure Path where
  text : String
deriving DecidableEq, Inhabited

namespace Path

/-- A component of a path. `current` occurs only at the front of a relative path. -/
inductive Component where
  | root
  | current
  | parent
  | normal (name : String)
deriving DecidableEq

/-- Whether the path starts at the root. -/
def isAbsolute (p : Path) : Bool := p.text.toList.head? == some '/'

/-- The component that a name between two slashes stands for; none for an empty name or `.`. -/
def Component.ofName? (name : String) : Option Component :=
  if name = "" ∨ name = "." then none
  else if name = ".." then some .parent
  else some (.normal name)

/-- The components of a path. -/
def components (p : Path) : List Component :=
  let names := Text.split (· == '/') p.text
  let lead :=
    if p.isAbsolute then [Component.root]
    else if names.head? = some "." then [Component.current]
    else []
  lead ++ names.filterMap Component.ofName?

/-- Whether two paths have the same components. -/
def same (p q : Path) : Bool := p.components == q.components

/-- `p` with `q` appended; an absolute `q` replaces `p`. -/
def join (p q : Path) : Path :=
  if q.isAbsolute then q
  else if p.text = "" ∨ p.text.toList.getLast? = some '/' then ⟨p.text ++ q.text⟩
  else ⟨p.text ++ "/" ++ q.text⟩

instance : HAppend Path String Path := ⟨fun p name => p.join ⟨name⟩⟩

/-- The path of an absolute or relative list of names. -/
def ofNames (absolute : Bool) (names : List String) : Path :=
  ⟨(if absolute then "/" else "") ++ "/".intercalate names⟩

/-- One step of resolution: the names so far, last first, after a component. -/
def resolveStep (names : List String) : Component → List String
  | .root => []
  | .current => names
  | .parent => names.tail
  | .normal name => name :: names

/-- The names that a path comes down to once every `..` has dropped the name before it. -/
def resolvedNames (p : Path) : List String := (p.components.foldl resolveStep []).reverse

/-- The path without `.` and `..`; a `..` that has nothing to drop vanishes. -/
def normalize (p : Path) : Path := ofNames p.isAbsolute p.resolvedNames

/-- Whether the components of `base` are the first components of `p`. -/
def startsWith (p base : Path) : Bool := base.components.isPrefixOf p.components

/-- The text of a path with the slashes and `.` components at its end dropped, given and
returned last character first; a root slash stays. -/
def dropTail : List Char → List Char
  | '/' :: c :: cs => dropTail (c :: cs)
  | '.' :: '/' :: cs => dropTail ('/' :: cs)
  | cs => cs

/-- The path without its last component; none for a root or an empty path. -/
def parent? (p : Path) : Option Path :=
  match p.components.getLast? with
  | none | some .root => none
  | some _ =>
    let trimmed := dropTail p.text.toList.reverse
    let before := trimmed.dropWhile (· != '/')
    some ⟨.ofList (dropTail before).reverse⟩

/-- The last component, if it is a name. -/
def fileName? (p : Path) : Option String :=
  match p.components.getLast? with
  | some (.normal name) => some name
  | _ => none

/-- What follows the last point of the file name, unless that point is its first character. -/
def extension? (p : Path) : Option String := do
  let name ← p.fileName?
  let back := name.toList.reverse
  let ext := back.takeWhile (· != '.')
  if ext.length + 1 < back.length then some (.ofList ext.reverse) else none

/-- The path and all paths above it, nearest first. -/
def ancestors (p : Path) : List Path :=
  go p.components.length p
where
  /-- The path and at most `n` paths above it. -/
  go : Nat → Path → List Path
    | 0, p => [p]
    | n + 1, p =>
      match p.parent? with
      | none => [p]
      | some q => p :: go n q

/-- A path that leads out of the directory it has to stay in. -/
structure OutsideRoot where
  path : Path
  root : Path

/-- The report of a path outside its root. -/
def OutsideRoot.message (e : OutsideRoot) : String :=
  e.path.text ++ " resolves outside the project root " ++ e.root.text

/-- `path` joined onto `root` and resolved, refused when the result is not below `root`. -/
def resolveWithin (root path : Path) : Except OutsideRoot Path :=
  let resolved := (root.join path).normalize
  if resolved.startsWith root.normalize then .ok resolved else .error ⟨path, root⟩

end Path

end Amend
