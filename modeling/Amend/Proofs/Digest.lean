import Amend.Digest.Blake3

/-!
# Digests as names

A digest is written with 64 hexadecimal digits, so that it can be the name of a file.
-/

namespace Amend

theorem Text.eq_hexDigit_of_mem {bytes : List UInt8} {c : Char} (h : c ∈ (toHex bytes).toList) :
    ∃ n < 16, c = hexDigit n := by
  rw [toHex, String.toList_ofList] at h
  obtain ⟨b, -, hb⟩ := List.mem_flatMap.mp h
  simp only [byteHex, List.mem_cons, List.not_mem_nil, or_false] at hb
  have hlt := b.toNat_lt
  rcases hb with hb | hb
  · exact ⟨b.toNat / 16, by omega, hb⟩
  · exact ⟨b.toNat % 16, by omega, hb⟩

/-- The digits of a digest are no slashes. -/
theorem Text.noSlash_toHex (bytes : List UInt8) : '/' ∉ (toHex bytes).toList := by
  have hdigit : ∀ n < 16, '/' ≠ hexDigit n := by decide
  intro h
  obtain ⟨n, hn, heq⟩ := eq_hexDigit_of_mem h
  exact hdigit n hn heq

theorem Text.noZero_toHex (bytes : List UInt8) : '\x00' ∉ (toHex bytes).toList := by
  have hdigit : ∀ n < 16, '\x00' ≠ hexDigit n := by decide
  intro h
  obtain ⟨n, hn, heq⟩ := eq_hexDigit_of_mem h
  exact hdigit n hn heq

theorem Text.utf8ByteSize_toHex (bytes : List UInt8) :
    (toHex bytes).utf8ByteSize = 2 * bytes.length := by
  have hdigit : ∀ n < 16, (hexDigit n).utf8Size = 1 := by decide
  have hbyte (b : UInt8) : (String.ofList (byteHex b)).utf8ByteSize = 2 := by
    have hlt := b.toNat_lt
    rw [byteHex, ← List.singleton_append, String.ofList_append, String.utf8ByteSize_append]
    simp [hdigit (b.toNat / 16) (by omega), hdigit (b.toNat % 16) (by omega)]
  induction bytes with
  | nil => rfl
  | cons b bytes ih =>
    rw [toHex] at ih ⊢
    rw [List.flatMap_cons, String.ofList_append, String.utf8ByteSize_append, ih, hbyte,
      List.length_cons]
    omega

theorem Digest.utf8ByteSize_blake3 (bytes : ByteArray) : (blake3 bytes).utf8ByteSize = 64 := by
  have hlength (value : Blake3.Chaining) : (value.toList.flatMap Blake3.wordBytes).length = 32 := by
    have hwords : value.toList.map (fun w => (Blake3.wordBytes w).length) = List.replicate 8 4 := by
      rw [List.eq_replicate_iff]
      simp [Blake3.wordBytes]
    rw [List.length_flatMap, hwords]
    rfl
  rw [blake3, Text.utf8ByteSize_toHex, hlength]

end Amend
