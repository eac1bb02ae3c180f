import Amend.MachineWord

/-!
# JSON values

The values of the data format that settings, defect records and reports are written in. An object
keeps its fields in the order in which they were written, repeated names included, so a reader of
a record can refuse a repeated field. A number written with neither fraction nor exponent is a
whole number; any other number keeps its text, because no field of any record takes it.
-/

namespace Amend

/-- A JSON value. `unpaired` is a string with an escape that is half of a surrogate pair: it can
be written, but no text is its value. -/
inductive Json where
  | null
  | bool (b : Bool)
  | int (n : Int)
  | real (text : String)
  | str (s : String)
  | unpaired
  | arr (xs : List Json)
  | obj (fields : List (String × Json))
deriving Inhabited

namespace Json

/-- A whole number that is not negative. -/
def nat (n : Nat) : Json := .int n

/-- `null` for an absent value. -/
def opt {α : Type} (f : α → Json) : Option α → Json
  | none => .null
  | some a => f a

/-- A list of values. -/
def list {α : Type} (f : α → Json) (xs : List α) : Json := .arr (xs.map f)

/-- The field of an object, the last one if the name is repeated. -/
def get? (j : Json) (name : String) : Option Json :=
  match j with
  | .obj fields => fields.reverse.lookup name
  | _ => none

/-- Whether the value is an object. -/
def isObj : Json → Bool
  | .obj _ => true
  | _ => false

/-- Whether the value is `null`. -/
def isNull : Json → Bool
  | .null => true
  | _ => false

/-- The text of a string. -/
def str? : Json → Option String
  | .str s => some s
  | _ => none

/-- The truth value. -/
def bool? : Json → Option Bool
  | .bool b => some b
  | _ => none

/-- A whole number in a range. -/
def intIn? (lo hi : Int) : Json → Option Int
  | .int n => if lo ≤ n ∧ n ≤ hi then some n else none
  | _ => none

/-- A whole number from 0 to 2^64 - 1. -/
def word? (j : Json) : Option Nat := (j.intIn? 0 (MachineWord.card - 1)).map Int.toNat

/-- A whole number from -2^63 to 2^63 - 1. -/
def signedWord? (j : Json) : Option Int := j.intIn? (-0x8000000000000000) 0x7fffffffffffffff

/-- A whole number from -2^31 to 2^31 - 1. -/
def signedHalfWord? (j : Json) : Option Int := j.intIn? (-0x80000000) 0x7fffffff

/-- The elements of a list, each read by `f`. -/
def list? {α : Type} (f : Json → Option α) : Json → Option (List α)
  | .arr xs => xs.mapM f
  | _ => none

/-- A value that may be `null`. -/
def nullable? {α : Type} (f : Json → Option α) : Json → Option (Option α)
  | .null => some none
  | j => (f j).map some

/-- One of several named cases, written as its name or as an object that gives it no value. -/
def case? {α : Type} (cases : List (String × α)) : Json → Option α
  | .str s => cases.lookup s
  | .obj [(s, .null)] => cases.lookup s
  | _ => none

/-- The values of a record's fields, in the order of `names`. An object may have further fields
but none of these twice. The record may also be written as the list of its values, from the first
field on, with only such fields left out at the end as `names` marks for it. -/
def fields? (names : List (String × Bool)) : Json → Option (List (Option Json))
  | .obj fields =>
    if names.all fun (name, _) => (fields.filter (·.1 == name)).length ≤ 1 then
      some (names.map fun (name, _) => fields.lookup name)
    else none
  | .arr xs =>
    if xs.length ≤ names.length ∧ (names.drop xs.length).all (·.2) then
      some ((names.mapIdx fun i _ => xs[i]?))
    else none
  | _ => none

end Json

end Amend
