import Amend.Text.Hex
import Amend.MachineWord

/-!
# BLAKE3

The checksum of stored copies and the name of lock files: the BLAKE3 digest of a sequence of
bytes. The input is cut into chunks of 1024 bytes, each chunk is compressed block by block, and
the values of the chunks are joined pairwise in a tree whose left half holds the greatest power of
two below the number of chunks.
-/

namespace Amend.Digest.Blake3

/-- Eight words that stand for a part of the input. -/
abbrev Chaining := Vector UInt32 8

/-- Sixteen words: a block of 64 bytes, or the state of a compression. -/
abbrev Words := Vector UInt32 16

/-- The words every digest starts from. -/
def start : Chaining :=
  #v[0x6A09E667, 0xBB67AE85, 0x3C6EF372, 0xA54FF53A, 0x510E527F, 0x9B05688C, 0x1F83D9AB,
    0x5BE0CD19]

/-- Where each word of a block stands in the next round. -/
def permutation : Vector (Fin 16) 16 := #v[2, 6, 3, 10, 7, 0, 4, 13, 1, 11, 12, 5, 9, 14, 15, 8]

/-- Marks the first block of a chunk. -/
def chunkStart : UInt32 := 1

/-- Marks the last block of a chunk. -/
def chunkEnd : UInt32 := 2

/-- Marks a block of two chaining values. -/
def parent : UInt32 := 4

/-- Marks the compression that gives the digest. -/
def root : UInt32 := 8

/-- A word rotated to the right by less than 32 places. -/
def rotate (w n : UInt32) : UInt32 := (w >>> n) ||| (w <<< (32 - n))

/-- Four words of the state mixed with two of the block. -/
def mix (s : Words) (a b c d : Fin 16) (x y : UInt32) : Words :=
  let s := s.set a (s[a] + s[b] + x)
  let s := s.set d (rotate (s[d] ^^^ s[a]) 16)
  let s := s.set c (s[c] + s[d])
  let s := s.set b (rotate (s[b] ^^^ s[c]) 12)
  let s := s.set a (s[a] + s[b] + y)
  let s := s.set d (rotate (s[d] ^^^ s[a]) 8)
  let s := s.set c (s[c] + s[d])
  s.set b (rotate (s[b] ^^^ s[c]) 7)

/-- One round: the columns of the state, then its diagonals. -/
def round (s m : Words) : Words :=
  let s := mix s 0 4 8 12 m[0] m[1]
  let s := mix s 1 5 9 13 m[2] m[3]
  let s := mix s 2 6 10 14 m[4] m[5]
  let s := mix s 3 7 11 15 m[6] m[7]
  let s := mix s 0 5 10 15 m[8] m[9]
  let s := mix s 1 6 11 12 m[10] m[11]
  let s := mix s 2 7 8 13 m[12] m[13]
  mix s 3 4 9 14 m[14] m[15]

/-- Some rounds, the block permuted between them. -/
def rounds : Nat → Words → Words → Words
  | 0, s, _ => s
  | n + 1, s, m => rounds n (round s m) (permutation.map (m[·]))

/-- What a compression works on: the value so far, a block, the number of its chunk, the number of
its bytes and the marks. -/
structure Input where
  value : Chaining
  block : Words
  counter : Nat
  size : Nat
  marks : UInt32

/-- The value after a compression. -/
def Input.compress (i : Input) : Chaining :=
  let low := (i.counter % MachineWord.halfCard).toUInt32
  let high := (i.counter / MachineWord.halfCard).toUInt32
  let tail : Vector UInt32 8 :=
    #v[start[0], start[1], start[2], start[3], low, high, i.size.toUInt32, i.marks]
  let s := rounds 7 (i.value ++ tail) i.block
  Vector.ofFn fun k : Fin 8 => s[k.val] ^^^ s[k.val + 8]

/-- The word of four bytes, the first the lowest. -/
def word (bytes : List UInt8) : UInt32 :=
  (bytes.take 4).foldr (fun b w => (w <<< 8) ||| b.toUInt32) 0

/-- The words of at most 64 bytes, filled up with zeros. -/
def block (bytes : List UInt8) : Words := Vector.ofFn fun k : Fin 16 => word (bytes.drop (4 * k))

/-- The last compression of a chunk. `first` marks the block that opens the chunk. -/
def chunkInput (counter : Nat) (value : Chaining) (first : UInt32) (bytes : List UInt8) : Input :=
  if bytes.length ≤ 64 then ⟨value, block bytes, counter, bytes.length, first ||| chunkEnd⟩
  else
    let next := Input.compress ⟨value, block bytes, counter, 64, first⟩
    chunkInput counter next 0 (bytes.drop 64)
termination_by bytes.length
decreasing_by simp; omega

/-- The chunks of an input, at least one. -/
def chunks (bytes : List UInt8) : List (List UInt8) :=
  if bytes.length ≤ 1024 then [bytes] else bytes.take 1024 :: chunks (bytes.drop 1024)
termination_by bytes.length
decreasing_by simp; omega

/-- The last compression of the tree over some chunks, the first of which has the given number. -/
def treeInput (counter : Nat) (parts : List (List UInt8)) : Input :=
  if h : parts.length ≤ 1 then chunkInput counter start chunkStart (parts.head?.getD [])
  else
    let half := Nat.pow 2 (parts.length - 1).log2
    have : half < parts.length := by
      have : half ≤ parts.length - 1 := Nat.log2_self_le (by omega)
      omega
    have : 0 < half := Nat.two_pow_pos _
    let left := (treeInput counter (parts.take half)).compress
    let right := (treeInput (counter + half) (parts.drop half)).compress
    ⟨start, left ++ right, 0, 64, parent⟩
termination_by parts.length
decreasing_by all_goals simp only [List.length_take, List.length_drop]; omega

/-- The bytes of a word, the lowest first. -/
def wordBytes (w : UInt32) : List UInt8 :=
  [w.toUInt8, (w >>> 8).toUInt8, (w >>> 16).toUInt8, (w >>> 24).toUInt8]

end Blake3

/-- The BLAKE3 digest of some bytes, in hexadecimal digits. -/
def blake3 (bytes : ByteArray) : String :=
  let top := Blake3.treeInput 0 (Blake3.chunks bytes.data.toList)
  let value := { top with marks := top.marks ||| Blake3.root : Blake3.Input }.compress
  Text.toHex (value.toList.flatMap Blake3.wordBytes)

end Amend.Digest
