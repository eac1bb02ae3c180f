import Amend.Text.Hex
import Amend.Text.Slice

/-!
# Identifiers

Snapshots and sets of snapshots are named by 32 hexadecimal digits. They are written in groups of
8, 4, 4, 4 and 12, and read without regard to case, also in one piece, in braces or as a name of
the `urn:uuid` space.
-/

namespace Amend

/-- An identifier. -/
structure Uid where
  digits : Vector (Fin 16) 32
deriving DecidableEq

namespace Uid

/-- The identifier that names nothing. -/
def nil : Uid := ⟨.replicate 32 ⟨0, Nat.zero_lt_succ 15⟩⟩

instance : Inhabited Uid := ⟨nil⟩

/-- The identifier whose digits write a number, cut to 128 bits. -/
def ofNat (n : Nat) : Uid :=
  ⟨Vector.ofFn fun i => ⟨n / Nat.pow 16 (31 - i.val) % 16, Nat.mod_lt _ (by decide)⟩⟩

/-- The identifier that a number gives with the marks of a random identifier: a 4 as thirteenth
digit and one of 8 to b as seventeenth. -/
def random (n : Nat) : Uid :=
  let place (k : Nat) : Nat := Nat.pow 16 k
  ofNat (n / place 20 * place 20 + 4 * place 19 + n % place 19 / place 16 * place 16 +
    (8 + n / place 15 % 4) * place 15 + n % place 15)

/-- The number that the digits write. -/
def toNat (u : Uid) : Nat := u.digits.toList.foldl (fun n d => 16 * n + d.val) 0

/-- The written identifier. -/
def render (u : Uid) : String :=
  let cs := u.digits.toList.map fun d => Text.hexDigit d.val
  let part (start size : Nat) : String := .ofList ((cs.drop start).take size)
  "-".intercalate [part 0 8, part 8 4, part 12 4, part 16 4, part 20 12]

/-- The digit of a character. -/
def digit? (c : Char) : Option (Fin 16) := do
  let n ← Text.hexValue? c
  if h : n < 16 then return ⟨n, h⟩ else none

/-- The identifier of 32 digits. -/
def ofDigits? (cs : List Char) : Option Uid := do
  let ds ← cs.mapM digit?
  if h : ds.toArray.size = 32 then return ⟨⟨ds.toArray, h⟩⟩ else none

/-- The identifier of groups of 8, 4, 4, 4 and 12 digits. -/
def ofGroups? (cs : List Char) : Option Uid :=
  let groups := Text.splitChars (· == '-') cs
  if groups.map (·.length) = [8, 4, 4, 4, 12] then ofDigits? groups.flatten else none

/-- Reads an identifier. -/
def ofText? (s : String) : Option Uid :=
  match s.toList with
  | '\x7b' :: rest => if rest.getLast? = some '\x7d' then ofGroups? rest.dropLast else none
  | cs =>
    match Text.afterChars? "urn:uuid:".toList cs with
    | some rest => ofGroups? rest
    | none => if cs.length = 32 then ofDigits? cs else ofGroups? cs

end Uid

end Amend
