/-!
# Machine words

Counters, offsets and line numbers are words of 64 bits. Arithmetic on them keeps the residue of
the exact result, as a number from 0 on or as a signed one around 0.
-/

namespace Amend.MachineWord

/-- How many values a word has: the 64th power of 2. -/
def card : Nat := 0x10000000000000000

/-- How many values a word of 32 bits has. -/
def halfCard : Nat := 0x100000000

/-- The word of a natural number. -/
def wrap (n : Nat) : Nat := n % card

/-- The signed word of a whole number: the residue from -2^63 to 2^63 - 1. -/
def wrapSigned (n : Int) : Int := n.bmod card

/-- The unsigned reading of a whole number's word. -/
def unsigned (n : Int) : Nat := (n % card).toNat

/-- The sum of some numbers. -/
def total (ns : List Nat) : Nat := ns.foldr (· + ·) 0

@[simp] theorem total_nil : total [] = 0 := rfl

@[simp] theorem total_cons (n : Nat) (ns : List Nat) : total (n :: ns) = n + total ns := rfl

end Amend.MachineWord
