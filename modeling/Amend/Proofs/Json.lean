import Amend.Json.Reader
import Amend.Json.Writer
import Amend.Proofs.Text.Numeral
import Mathlib.Data.List.DropRight

/-!
# Written JSON is read back

The reader accepts what the writer lays out over several lines and returns the value that was
written.  Each value is read together with what stands behind it, which must not go on as a number;
the fuel is at least the number of characters of the value.
-/

namespace Amend.Json

/-- The values that have a written form of their own: not the numbers kept as text, and not the
strings that are no text. -/
inductive Readable : Json → Prop
  | null : Readable .null
  | bool (b : Bool) : Readable (.bool b)
  | int (n : Int) : Readable (.int n)
  | str (s : String) : Readable (.str s)
  | arr {xs : List Json} (h : ∀ x ∈ xs, Readable x) : Readable (.arr xs)
  | obj {fields : List (String × Json)} (h : ∀ f ∈ fields, Readable f.2) : Readable (.obj fields)

namespace Reader

open Writer

/-! ## Blanks -/

theorem skipBlanks_of_head? {cs : List Char}
    (h : ∀ c ∈ cs.head?, c ≠ ' ' ∧ c ≠ '\t' ∧ c ≠ '\n' ∧ c ≠ '\r') : skipBlanks cs = cs := by
  cases cs with
  | nil => rfl
  | cons c cs =>
    obtain ⟨hspace, htab, hfeed, hreturn⟩ := h c rfl
    simp [skipBlanks, hspace, htab, hfeed, hreturn]

theorem skipBlanks_newLine (depth : Nat) (cs : List Char) :
    skipBlanks ((newLine depth).toList ++ cs) = skipBlanks cs := by
  have hspaces (n : Nat) : skipBlanks (List.replicate n ' ' ++ cs) = skipBlanks cs := by
    induction n with
    | zero => rfl
    | succ n ih =>
      rw [List.replicate_succ, List.cons_append, skipBlanks, List.dropWhile_cons_of_pos (by simp)]
      exact ih
  rw [newLine, String.toList_ofList, List.cons_append, skipBlanks,
    List.dropWhile_cons_of_pos (by simp)]
  exact hspaces (2 * depth)

theorem skipBlanks_skipBlanks (cs : List Char) : skipBlanks (skipBlanks cs) = skipBlanks cs :=
  List.dropWhile_idempotent _ cs

theorem value?_skipBlanks (fuel : Nat) {cs ds : List Char} (h : skipBlanks cs = skipBlanks ds) :
    value? fuel cs = value? fuel ds := by
  cases fuel with
  | zero => rfl
  | succ fuel => rw [value?, value?, h]

/-! ## Numbers -/

/-- What may stand behind a number: nothing that would be read as part of it. -/
def Ends (rest : List Char) : Prop :=
  ∀ c ∈ rest.head?, ¬ Text.IsDigit c ∧ c ≠ '.' ∧ c ≠ 'e' ∧ c ≠ 'E'

theorem ends_cons {c : Char} (hc : ¬ Text.IsDigit c ∧ c ≠ '.' ∧ c ≠ 'e' ∧ c ≠ 'E')
    (rest : List Char) : Ends (c :: rest) := by
  intro d hd
  obtain rfl : c = d := by simpa using hd
  exact hc

theorem ends_newLine (depth : Nat) (rest : List Char) :
    Ends ((newLine depth).toList ++ rest) := by
  rw [newLine, String.toList_ofList, List.cons_append]
  exact ends_cons (by decide) _

theorem isDigit_eq (c : Char) : isDigit c = decide (Text.IsDigit c) :=
  Bool.decide_eq_true.symm

theorem takeWhile_digits {ds rest : List Char} (hds : ∀ c ∈ ds, Text.IsDigit c)
    (hrest : Ends rest) :
    (ds ++ rest).takeWhile isDigit = ds ∧ (ds ++ rest).dropWhile isDigit = rest := by
  induction ds with
  | nil =>
    cases rest with
    | nil => exact ⟨rfl, rfl⟩
    | cons c rest => simp [isDigit_eq, (hrest c rfl).1]
  | cons d ds ih =>
    obtain ⟨htake, hdrop⟩ := ih fun c hc => hds c (List.mem_cons_of_mem d hc)
    simp [isDigit_eq, hds d List.mem_cons_self] at htake hdrop ⊢
    exact ⟨htake, hdrop⟩

theorem fraction?_of_ends {rest : List Char} (h : Ends rest) :
    fraction? rest = some ([], rest) := by
  cases rest with
  | nil => rfl
  | cons c rest =>
    have hc := (h c rfl).2.1
    rw [fraction?]
    rintro cs ⟨⟩
    exact hc rfl

theorem exponent?_of_ends {rest : List Char} (h : Ends rest) :
    exponent? rest = some ([], rest) := by
  cases rest with
  | nil => rfl
  | cons c rest =>
    obtain ⟨-, -, he, hE⟩ := h c rfl
    simp [exponent?, he, hE]

theorem not_leading_zero (n : Nat) :
    ¬ ((Nat.toDigits 10 n).length > 1 ∧ (Nat.toDigits 10 n).head? = some '0') := by
  rintro ⟨hlong, hzero⟩
  by_cases h : n = 0
  · rw [h, Nat.toDigits_zero] at hlong
    simp at hlong
  · exact Text.head?_toDigits h hzero

theorem number?_nat (n : Nat) {rest : List Char} (hrest : Ends rest) :
    number? (Nat.toDigits 10 n ++ rest) = some (.int n, rest) := by
  obtain ⟨htake, hdrop⟩ := takeWhile_digits
    (fun c hc => Text.isDigit_of_mem_toDigits (n := n) hc) hrest
  have hvalue : digitsValue (Nat.toDigits 10 n) = n := Text.foldl_toDigits n
  have hsign (tail : List Char) : Nat.toDigits 10 n ++ rest ≠ '-' :: tail := by
    intro heq
    cases hcs : Nat.toDigits 10 n with
    | nil => exact absurd hcs Nat.toDigits_ne_nil
    | cons d ds =>
      rw [hcs, List.cons_append] at heq
      have hd : Text.IsDigit d := Text.isDigit_of_mem_toDigits (n := n) (by simp [hcs])
      exact absurd ((List.cons.inj heq).1 ▸ hd) (by decide)
  unfold number?
  split
  rename_i negative body heq
  split at heq
  · exact absurd ‹_› (hsign _)
  · obtain ⟨rfl, rfl⟩ := Prod.mk.inj heq
    simp [htake, hdrop, not_leading_zero, hvalue, fraction?_of_ends hrest,
      exponent?_of_ends hrest]

theorem number?_neg {n : Nat} (hn : n ≠ 0) {rest : List Char} (hrest : Ends rest) :
    number? ('-' :: (Nat.toDigits 10 n ++ rest)) = some (.int (-n), rest) := by
  obtain ⟨htake, hdrop⟩ := takeWhile_digits
    (fun c hc => Text.isDigit_of_mem_toDigits (n := n) hc) hrest
  have hvalue : digitsValue (Nat.toDigits 10 n) = n := Text.foldl_toDigits n
  unfold number?
  simp [htake, hdrop, not_leading_zero, hvalue, hn, fraction?_of_ends hrest,
    exponent?_of_ends hrest]

theorem number?_int (n : Int) {rest : List Char} (hrest : Ends rest) :
    number? ((toString n).toList ++ rest) = some (.int n, rest) := by
  rw [Int.toString_eq_repr, Int.repr_eq_if]
  split
  case isTrue h =>
    obtain ⟨m, rfl⟩ := Int.eq_ofNat_of_zero_le h
    rw [Int.toNat_natCast, Nat.toList_repr]
    exact number?_nat m hrest
  case isFalse h =>
    have hpos : (-n).toNat ≠ 0 := by omega
    have hback : -((-n).toNat : Int) = n := by omega
    have hneg := number?_neg hpos hrest
    rw [hback] at hneg
    simpa using hneg

/-- A value that starts like a number is read as one. -/
theorem value?_number {c : Char} (hc : c = '-' ∨ Text.IsDigit c) (fuel : Nat) (cs : List Char) :
    value? (fuel + 1) (c :: cs) = number? (c :: cs) := by
  have hother (d : Char) (hd : ¬ (d = '-' ∨ Text.IsDigit d)) : c ≠ d := fun h => hd (h ▸ hc)
  have hplain : skipBlanks (c :: cs) = c :: cs := by
    refine skipBlanks_of_head? fun d hd => ?_
    obtain rfl : c = d := by simpa using hd
    exact ⟨hother _ (by decide), hother _ (by decide), hother _ (by decide),
      hother _ (by decide)⟩
  rw [value?, hplain]
  split
  case h_1 heq => cases heq
  case h_8 => rfl
  all_goals
    rename_i heq
    exact absurd (List.cons.inj heq).1 (hother _ (by decide))

theorem exists_toString_int (n : Int) :
    ∃ c cs, (toString n).toList = c :: cs ∧ (c = '-' ∨ Text.IsDigit c) := by
  rw [Int.toString_eq_repr, Int.repr_eq_if]
  split
  · rw [Nat.toList_repr]
    obtain ⟨c, cs, hcs⟩ := List.exists_cons_of_ne_nil (Nat.toDigits_ne_nil (n := n.toNat) (b := 10))
    refine ⟨c, cs, hcs, Or.inr (Text.isDigit_of_mem_toDigits (n := n.toNat) ?_)⟩
    rw [hcs]
    exact List.mem_cons_self
  · exact ⟨'-', (-n).toNat.repr.toList, by rw [String.toList_append]; rfl, Or.inl rfl⟩

/-! ## Strings -/

/-- A character that needs no escape is read as it is. -/
theorem stringBody_plain {c : Char} (hquote : c ≠ '"') (hslash : c ≠ '\\')
    (hlarge : ¬ c.toNat < 0x20) (fuel : Nat) (acc : Option (List Char)) (cs : List Char) :
    stringBody (fuel + 1) acc (c :: cs) = stringBody fuel (acc.map (c :: ·)) cs := by
  rw [stringBody]
  · simp [hslash, hlarge]
  · exact hquote
  · exact fun _ h => absurd h hslash
  · exact fun _ _ h => absurd h hslash

/-- An escaped character is read in one step. -/
theorem stringBody_escapeChar (fuel : Nat) (acc : List Char) (c : Char) (cs : List Char) :
    stringBody (fuel + 1) (some acc) (escapeChar c ++ cs) =
      stringBody fuel (some (c :: acc)) cs := by
  unfold escapeChar
  split
  case h_8 hquote hslash _ _ _ _ _ =>
    split
    case isTrue hsmall =>
      have hhigh := Text.hexValue?_hexDigit (c.toNat / 16) (by omega)
      have hlow := Text.hexValue?_hexDigit (c.toNat % 16) (by omega)
      have hzero : Text.hexValue? '0' = some 0 := by decide
      have hn : 16 * (c.toNat / 16) + c.toNat % 16 = c.toNat := by omega
      have hunit : unicodeEscape c.toNat cs = (some c, cs) := by
        unfold unicodeEscape
        rw [if_neg (by omega), if_neg (by omega), Char.ofNat_toNat]
      simp [stringBody, hex4?, hhigh, hlow, hzero, hn, hunit]
    case isFalse hlarge => exact stringBody_plain hquote hslash hlarge fuel (some acc) cs
  all_goals simp [stringBody, simpleEscape?]

theorem stringBody_flatMap (cs : List Char) : ∀ (fuel : Nat) (acc rest : List Char),
    cs.length < fuel →
    stringBody fuel (some acc) (cs.flatMap escapeChar ++ '"' :: rest) =
      some (.str (.ofList (acc.reverse ++ cs)), rest) := by
  induction cs with
  | nil =>
    intro fuel acc rest hfuel
    obtain ⟨fuel, rfl⟩ := Nat.exists_eq_succ_of_ne_zero (Nat.ne_of_gt hfuel)
    simp [stringBody]
  | cons c cs ih =>
    intro fuel acc rest hfuel
    obtain ⟨fuel, rfl⟩ := Nat.exists_eq_succ_of_ne_zero (Nat.ne_of_gt (Nat.zero_lt_of_lt hfuel))
    rw [List.flatMap_cons, List.append_assoc, stringBody_escapeChar,
      ih fuel (c :: acc) rest (by simpa using hfuel)]
    simp

theorem length_escapeChar_pos (c : Char) : 0 < (escapeChar c).length := by
  unfold escapeChar
  split
  case h_8 => split <;> simp
  all_goals simp

theorem length_le_length_flatMap (cs : List Char) :
    cs.length ≤ (cs.flatMap escapeChar).length := by
  induction cs with
  | nil => simp
  | cons c cs ih =>
    have := length_escapeChar_pos c
    simp only [List.flatMap_cons, List.length_append, List.length_cons]
    omega

theorem string?_quoted (s : String) (rest : List Char) :
    string? (s.toList.flatMap escapeChar ++ '"' :: rest) = some (.str s, rest) := by
  have hlength := length_le_length_flatMap s.toList
  rw [string?, stringBody_flatMap s.toList _ [] rest]
  · simp
  · rw [List.length_append, List.length_cons]
    omega

/-! ## Values -/

theorem toList_open : "[".toList = ['['] := rfl

theorem toList_close : "]".toList = [']'] := rfl

theorem toList_openBrace : "\x7b".toList = ['{'] := rfl

theorem toList_closeBrace : "\x7d".toList = ['}'] := rfl

theorem toList_comma : ",".toList = [','] := rfl

theorem toList_colon : ": ".toList = [':', ' '] := rfl

/-- A value that is read back from its layout, at every depth and with enough fuel. -/
def ReadBack (j : Json) : Prop :=
  ∀ depth fuel rest, (pretty depth j).toList.length ≤ fuel → Ends rest →
    value? fuel ((pretty depth j).toList ++ rest) = some (j, rest)

/-- A value on a line of its own. -/
theorem ReadBack.ofNewLine {j : Json} (h : ReadBack j) {depth fuel : Nat} {rest : List Char}
    (hfuel : (pretty depth j).toList.length ≤ fuel) (hrest : Ends rest) (lines : Nat) :
    value? fuel ((newLine lines).toList ++ ((pretty depth j).toList ++ rest)) =
      some (j, rest) := by
  rw [value?_skipBlanks fuel (skipBlanks_newLine lines _)]
  exact h depth fuel rest hfuel hrest

theorem elements?_prettyList {xs : List Json} (hne : xs ≠ []) (h : ∀ x ∈ xs, ReadBack x) :
    ∀ depth lines fuel rest, (prettyList depth xs).toList.length < fuel →
      elements? fuel ((prettyList depth xs).toList ++ ((newLine lines).toList ++ ']' :: rest)) =
        some (xs, rest) := by
  induction xs with
  | nil => exact absurd rfl hne
  | cons x xs ih =>
    intro depth lines fuel rest hfuel
    obtain ⟨fuel, rfl⟩ := Nat.exists_eq_succ_of_ne_zero (Nat.ne_of_gt (Nat.zero_lt_of_lt hfuel))
    have hx := h x List.mem_cons_self
    cases xs with
    | nil =>
      simp only [prettyList, String.toList_append, List.length_append, List.append_assoc]
        at hfuel ⊢
      have hclose : skipBlanks (']' :: rest) = ']' :: rest := rfl
      rw [elements?, hx.ofNewLine (by omega) (ends_newLine lines _)]
      simp only [skipBlanks_newLine, hclose]
    | cons y ys =>
      simp only [prettyList, String.toList_append, List.length_append, List.append_assoc,
        toList_comma, List.length_cons, List.cons_append, List.nil_append] at hfuel ⊢
      have hcomma (tail : List Char) : skipBlanks (',' :: tail) = ',' :: tail := rfl
      have htail := ih (by simp) (fun z hz => h z (List.mem_cons_of_mem x hz)) depth lines fuel rest
        (by omega)
      rw [elements?, hx.ofNewLine (by omega) (ends_cons (by decide) _)]
      simp only [hcomma, htail, Option.map_some]

/-- A field on a line of its own, with more fields or the end behind it. -/
theorem members?_field {name : String} {x : Json} (hx : ReadBack x) {depth fuel : Nat}
    {rest tail : List Char} (hfuel : (pretty depth x).toList.length ≤ fuel) (hrest : Ends rest)
    (lines : Nat) :
    (skipBlanks rest = ',' :: tail →
      members? (fuel + 1) ((newLine lines).toList ++ ((quoted name).toList ++
          (':' :: ' ' :: ((pretty depth x).toList ++ rest)))) =
        (members? fuel tail).map fun m => ((name, x) :: m.1, m.2)) ∧
    (skipBlanks rest = '}' :: tail →
      members? (fuel + 1) ((newLine lines).toList ++ ((quoted name).toList ++
          (':' :: ' ' :: ((pretty depth x).toList ++ rest)))) =
        some ([(name, x)], tail)) := by
  have hquote (cs : List Char) : skipBlanks ('"' :: cs) = '"' :: cs := rfl
  have hcolon (cs : List Char) : skipBlanks (':' :: cs) = ':' :: cs := rfl
  have hspace : skipBlanks (' ' :: ((pretty depth x).toList ++ rest)) =
      skipBlanks ((pretty depth x).toList ++ rest) := rfl
  have hvalue : value? fuel (' ' :: ((pretty depth x).toList ++ rest)) = some (x, rest) := by
    rw [value?_skipBlanks fuel hspace]
    exact hx depth fuel rest hfuel hrest
  constructor <;> intro hnext <;>
  simp only [members?, skipBlanks_newLine, quoted, String.toList_ofList, List.cons_append,
    List.append_assoc, List.nil_append, hquote, string?_quoted, hcolon, hvalue, hnext]

theorem members?_prettyFields {fields : List (String × Json)} (hne : fields ≠ [])
    (h : ∀ f ∈ fields, ReadBack f.2) :
    ∀ depth lines fuel rest, (prettyFields depth fields).toList.length < fuel →
      members? fuel
      ((prettyFields depth fields).toList ++ ((newLine lines).toList ++ '}' :: rest)) =
        some (fields, rest) := by
  induction fields with
  | nil => exact absurd rfl hne
  | cons f fields ih =>
    obtain ⟨name, x⟩ := f
    intro depth lines fuel rest hfuel
    obtain ⟨fuel, rfl⟩ := Nat.exists_eq_succ_of_ne_zero (Nat.ne_of_gt (Nat.zero_lt_of_lt hfuel))
    have hx : ReadBack x := h (name, x) List.mem_cons_self
    cases fields with
    | nil =>
      simp only [prettyFields, String.toList_append, List.length_append, List.append_assoc,
        toList_colon, List.length_cons, List.cons_append, List.nil_append] at hfuel ⊢
      have hclose : skipBlanks ('}' :: rest) = '}' :: rest := rfl
      refine (members?_field hx (by omega) (ends_newLine lines _) depth).2 ?_
      rw [skipBlanks_newLine, hclose]
    | cons g gs =>
      simp only [prettyFields, String.toList_append, List.length_append, List.append_assoc,
        toList_colon, toList_comma, List.length_cons, List.cons_append, List.nil_append]
        at hfuel ⊢
      have htail := ih (by simp) (fun z hz => h z (List.mem_cons_of_mem _ hz)) depth lines fuel rest
        (by omega)
      rw [(members?_field hx (by omega) (ends_cons (by decide) _) depth).1 rfl, htail]
      rfl

/-- What is no element cannot close a list. -/
theorem elements?_of_close {cs tail : List Char} (h : skipBlanks cs = ']' :: tail) (fuel : Nat) :
    elements? fuel cs = none := by
  have hnone (fuel : Nat) : value? fuel cs = none := by
    cases fuel with
    | zero => rfl
    | succ fuel => simp [value?, h, number?, isDigit]
  cases fuel with
  | zero => rfl
  | succ fuel => rw [elements?, hnone]

theorem value?_of_elements? {cs rest : List Char} {xs : List Json} {fuel : Nat}
    (h : elements? fuel cs = some (xs, rest)) :
    value? (fuel + 1) ('[' :: cs) = some (.arr xs, rest) := by
  have hopen : skipBlanks ('[' :: cs) = '[' :: cs := rfl
  have hsame : elements? fuel (skipBlanks cs) = elements? fuel cs := by
    cases fuel with
    | zero => rfl
    | succ fuel => rw [elements?, elements?, value?_skipBlanks fuel (skipBlanks_skipBlanks cs)]
  rw [value?, hopen]
  split
  case h_3 heq =>
    obtain ⟨-, rfl⟩ := List.cons.inj heq
    split
    case h_1 hclose =>
      rw [elements?_of_close hclose] at h
      cases h
    case h_2 => rw [hsame, h]; rfl
  all_goals simp_all

theorem value?_of_members? {cs rest : List Char} {fields : List (String × Json)} {fuel : Nat}
    (h : members? fuel cs = some (fields, rest)) :
    value? (fuel + 1) ('{' :: cs) = some (.obj fields, rest) := by
  have hopen : skipBlanks ('{' :: cs) = '{' :: cs := rfl
  have hsame : members? fuel (skipBlanks cs) = members? fuel cs := by
    cases fuel with
    | zero => rfl
    | succ fuel => rw [members?, members?, skipBlanks_skipBlanks]
  rw [value?, hopen]
  split
  case h_2 heq =>
    obtain ⟨-, rfl⟩ := List.cons.inj heq
    split
    case h_1 hclose =>
      have hnone : members? fuel cs = none := by
        cases fuel with
        | zero => rfl
        | succ fuel => simp [members?, hclose]
      rw [hnone] at h
      cases h
    case h_2 => rw [hsame, h]; rfl
  all_goals simp_all

theorem readBack_of_readable {j : Json} (h : Readable j) : ReadBack j := by
  induction h with
  | null =>
    intro depth fuel rest hfuel hrest
    cases fuel with
    | zero => simp [pretty] at hfuel
    | succ fuel => simp [pretty, value?, skipBlanks, keyword?]
  | bool b =>
    intro depth fuel rest hfuel hrest
    cases fuel with
    | zero => cases b <;> simp [pretty] at hfuel
    | succ fuel => cases b <;> simp [pretty, value?, skipBlanks, keyword?]
  | int n =>
    intro depth fuel rest hfuel hrest
    obtain ⟨c, cs, hcs, hc⟩ := exists_toString_int n
    cases fuel with
    | zero =>
      rw [pretty, hcs] at hfuel
      simp at hfuel
    | succ fuel =>
      rw [pretty, hcs, List.cons_append, value?_number hc, ← List.cons_append, ← hcs]
      exact number?_int n hrest
  | str s =>
    intro depth fuel rest hfuel hrest
    have hquote (cs : List Char) : skipBlanks ('"' :: cs) = '"' :: cs := rfl
    cases fuel with
    | zero => simp [pretty, quoted] at hfuel
    | succ fuel =>
      simp only [pretty, quoted, String.toList_ofList, List.cons_append, List.append_assoc,
        List.nil_append, value?, hquote, string?_quoted]
  | @arr xs h ih =>
    intro depth fuel rest hfuel hrest
    cases fuel with
    | zero => cases xs <;> simp [pretty] at hfuel
    | succ fuel =>
      cases xs with
      | nil => simp [pretty, value?, skipBlanks]
      | cons x xs =>
        simp only [pretty, String.toList_append, toList_open, toList_close, List.append_assoc,
          List.length_append, List.cons_append, List.nil_append, List.length_cons] at hfuel ⊢
        have hread := elements?_prettyList (List.cons_ne_nil x xs) ih (depth + 1) depth fuel rest
          (by omega)
        exact value?_of_elements? hread
  | @obj fields h ih =>
    intro depth fuel rest hfuel hrest
    cases fuel with
    | zero => cases fields <;> simp [pretty] at hfuel
    | succ fuel =>
      cases fields with
      | nil => simp [pretty, value?, skipBlanks]
      | cons f fields =>
        simp only [pretty, String.toList_append, toList_openBrace, toList_closeBrace,
          List.append_assoc, List.length_append, List.cons_append, List.nil_append,
          List.length_cons] at hfuel ⊢
        have hread := members?_prettyFields (List.cons_ne_nil f fields) ih (depth + 1) depth fuel
          rest (by omega)
        exact value?_of_members? hread

end Reader

/-- A written document is read back. -/
theorem parse?_document {j : Json} (h : Readable j) : parse? j.document = some j := by
  have hread := Reader.readBack_of_readable h 0 (2 * (pretty 0 j).toList.length + 2) [] (by omega)
    (by simp [Reader.Ends])
  rw [List.append_nil] at hread
  simp [parse?, document, hread, Reader.skipBlanks]

end Amend.Json
