import Amend.Uid
import Amend.Proofs.Text.Numeral
import Amend.Proofs.Text.Split

/-!
# Identifiers are told apart

A written identifier is read back, and two identifiers with the same number are the same.
-/

namespace Amend.Uid

/-! ## The number of an identifier -/

theorem foldl_digits_injective {xs ys : List (Fin 16)} (hlen : xs.length = ys.length) {m n : Nat}
    (h : xs.foldl (fun n d => 16 * n + d.val) m = ys.foldl (fun n d => 16 * n + d.val) n) :
    m = n ∧ xs = ys := by
  induction xs generalizing ys m n with
  | nil =>
    obtain rfl := List.length_eq_zero_iff.mp hlen.symm
    exact ⟨h, rfl⟩
  | cons x xs ih =>
    cases ys with
    | nil => simp at hlen
    | cons y ys =>
      rw [List.foldl_cons, List.foldl_cons] at h
      obtain ⟨hhead, htail⟩ := ih (by simpa using hlen) h
      have hdigits : x.val = y.val := by omega
      exact ⟨by omega, by rw [Fin.ext hdigits, htail]⟩

theorem toNat_injective {u v : Uid} (h : u.toNat = v.toNat) : u = v := by
  obtain ⟨-, hlist⟩ := foldl_digits_injective (by simp) h
  obtain ⟨us⟩ := u
  obtain ⟨vs⟩ := v
  rw [mk.injEq]
  exact Vector.toList_inj.mp hlist

/-! ## Writing and reading -/

/-- The digits as characters. -/
def chars (u : Uid) : List Char := u.digits.toList.map fun d => Text.hexDigit d.val

theorem length_chars (u : Uid) : u.chars.length = 32 := by simp [chars]

theorem hexDigit_ne : ∀ n < 16, Text.hexDigit n ≠ '-' ∧ Text.hexDigit n ≠ '\x7b' ∧
    Text.hexDigit n ≠ 'u' := by
  decide

theorem ne_of_mem_chars {u : Uid} {c : Char} (h : c ∈ u.chars) :
    c ≠ '-' ∧ c ≠ '\x7b' ∧ c ≠ 'u' := by
  obtain ⟨d, -, rfl⟩ := List.mem_map.mp h
  exact hexDigit_ne d.val d.isLt

theorem ofDigits?_chars (u : Uid) : ofDigits? u.chars = some u := by
  have hdigit (d : Fin 16) : digit? (Text.hexDigit d.val) = some d := by
    rw [digit?, Text.hexValue?_hexDigit d.val d.isLt]
    simp [d.isLt]
  have hall : u.chars.mapM digit? = some u.digits.toList := by
    rw [chars]
    induction u.digits.toList with
    | nil => rfl
    | cons d ds ih => simp [List.mapM_cons, hdigit, ih]
  obtain ⟨⟨⟨ds⟩, hsize⟩⟩ := u
  rw [ofDigits?, hall]
  simpa using hsize

/-- The digits of a group, from one place on. -/
def group (u : Uid) (start size : Nat) : List Char := (u.chars.drop start).take size

theorem toList_render (u : Uid) :
    u.render.toList = u.group 0 8 ++ '-' :: (u.group 8 4 ++ '-' :: (u.group 12 4 ++ '-' ::
      (u.group 16 4 ++ '-' :: u.group 20 12))) := by
  simp [render, group, chars]

theorem flatten_groups (u : Uid) :
    [u.group 0 8, u.group 8 4, u.group 12 4, u.group 16 4, u.group 20 12].flatten = u.chars := by
  have hnext (start size : Nat) : u.group start size ++ u.chars.drop (start + size) =
      u.chars.drop start := by
    rw [group, ← List.drop_drop, List.take_append_drop]
  have hlast : u.group 20 12 = u.chars.drop 20 := by
    rw [group, List.take_of_length_le (by simp [length_chars])]
  simp only [List.flatten_cons, List.flatten_nil, List.append_nil]
  rw [hlast, hnext 16 4, hnext 12 4, hnext 8 4, hnext 0 8, List.drop_zero]

theorem ofGroups?_render (u : Uid) : ofGroups? u.render.toList = some u := by
  have hdash := @Text.splitChars_append (· == '-') '-' rfl
  have hplain (start size : Nat) :
      Text.splitChars (· == '-') (u.group start size) = [u.group start size] := by
    refine Text.splitChars_of_forall fun c hc => beq_false_of_ne ?_
    exact (ne_of_mem_chars (List.mem_of_mem_drop (List.mem_of_mem_take hc))).1
  have hlengths : [u.group 0 8, u.group 8 4, u.group 12 4, u.group 16 4, u.group 20 12].map
      (·.length) = [8, 4, 4, 4, 12] := by
    simp [group, length_chars]
  have hgroups : Text.splitChars (· == '-') u.render.toList =
      [u.group 0 8, u.group 8 4, u.group 12 4, u.group 16 4, u.group 20 12] := by
    rw [toList_render]
    simp only [hdash, hplain, List.cons_append, List.nil_append]
  rw [ofGroups?, hgroups, hlengths, if_pos rfl, flatten_groups]
  exact ofDigits?_chars u

/-- A written identifier is read back. -/
theorem ofText?_render (u : Uid) : ofText? u.render = some u := by
  have hgroups := ofGroups?_render u
  have hlength : u.render.toList.length = 36 := by
    rw [toList_render]
    simp [group, length_chars]
  obtain ⟨c, cs, hcs⟩ := List.exists_cons_of_length_pos (l := u.render.toList) (by omega)
  have hc : c ∈ u.chars := by
    have hhead : (u.render.toList).head? = (u.group 0 8).head? := by
      rw [toList_render, List.head?_append]
      cases hg : u.group 0 8 with
      | nil =>
        have : (u.group 0 8).length = 8 := by simp [group, length_chars]
        simp [hg] at this
      | cons d ds => rfl
    rw [hcs, List.head?_cons] at hhead
    exact List.mem_of_mem_drop (List.mem_of_mem_take (List.mem_of_mem_head? hhead.symm))
  obtain ⟨-, hbrace, hu⟩ := ne_of_mem_chars hc
  have hspace : Text.afterChars? "urn:uuid:".toList (c :: cs) = none := by
    simp [Text.afterChars?, Ne.symm hu]
  rw [ofText?, hcs]
  rw [hcs] at hgroups hlength
  split
  case h_1 heq => exact absurd (List.cons.inj heq).1 hbrace
  case h_2 => rw [hspace, if_neg (by omega), hgroups]

end Amend.Uid
