/-!
# Bytes shown as text

Bytes that are no UTF-8 are shown by the replacement character, one for each longest start of a
character that is broken off, so that the rest of the text stays readable.
-/

namespace Amend.Text

/-- What stands for bytes that are no text. -/
def replacement : Char := '\ufffd'

/-- How many bytes may follow a first byte, and the least and greatest second byte. -/
def sequenceShape? (b : UInt8) : Option (Nat × UInt8 × UInt8) :=
  if b < 0x80 then some (0, 0, 0)
  else if b < 0xc2 then none
  else if b < 0xe0 then some (1, 0x80, 0xbf)
  else if b = 0xe0 then some (2, 0xa0, 0xbf)
  else if b = 0xed then some (2, 0x80, 0x9f)
  else if b < 0xf0 then some (2, 0x80, 0xbf)
  else if b = 0xf0 then some (3, 0x90, 0xbf)
  else if b < 0xf4 then some (3, 0x80, 0xbf)
  else if b = 0xf4 then some (3, 0x80, 0x8f)
  else none

/-- The bytes behind a first one that continue it, at most `n`. -/
def continuation (n : Nat) (lo hi : UInt8) (bs : List UInt8) : List UInt8 :=
  match n, bs with
  | n + 1, b :: rest =>
    if lo ≤ b && b ≤ hi then b :: continuation n 0x80 0xbf rest else []
  | _, _ => []

/-- The code point of a first byte and the bytes that continue it. -/
def codePoint (first : UInt8) (more : List UInt8) : Nat :=
  let lead := match more.length with
    | 0 => first.toNat
    | 1 => first.toNat % 32
    | 2 => first.toNat % 16
    | _ => first.toNat % 8
  more.foldl (fun n b => 64 * n + b.toNat % 64) lead

/-- The characters of bytes, at most as many as the fuel. -/
def decodeChars : Nat → List UInt8 → List Char
  | 0, _ => []
  | _, [] => []
  | fuel + 1, b :: bs =>
    match sequenceShape? b with
    | none => replacement :: decodeChars fuel bs
    | some (n, lo, hi) =>
      let more := continuation n lo hi bs
      let rest := bs.drop more.length
      (if more.length = n then Char.ofNat (codePoint b more) else replacement) ::
        decodeChars fuel rest

/-- The text that bytes show. -/
def decodeLossy (bytes : ByteArray) : String :=
  match String.fromUTF8? bytes with
  | some s => s
  | none => .ofList (decodeChars bytes.size bytes.toList)

end Amend.Text
