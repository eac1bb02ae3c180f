import Amend.Shell.Pattern

/-!
# Line patterns

Basic and extended regular expressions over the characters of a line. A match is the first one
from the left, each repetition taking as much as it can. In basic expressions brackets, braces and
bars have their meaning behind a backslash, in extended ones without it.
-/

namespace Amend.Shell

/-- A regular expression. Groups are numbered from 1. -/
inductive Regex where
  | empty
  | char (c : Char)
  | any
  | among (s : CharSet)
  | start
  | stop
  | sequence (a b : Regex)
  | either (a b : Regex)
  /-- At least `least` times, and at most `most` times if there is a limit. -/
  | repeated (r : Regex) (least : Nat) (most : Option Nat)
  | group (n : Nat) (r : Regex)

namespace Regex

/-- Letter case is left out of account. -/
def sameLetter (ignoreCase : Bool) (a b : Char) : Bool :=
  a == b || (ignoreCase && a.toLower == b.toLower)

/-- What the groups of a match took. -/
abbrev Groups := List (Nat × List Char)

/-- Where a match can end: the characters behind it and the groups, for the first way that suits
what has to follow. `atStart` tells whether the line starts here. -/
def matchAt (ignoreCase : Bool) : Nat → Regex → Bool → List Char → Groups →
    (Bool → List Char → Groups → Option (List Char × Groups)) → Option (List Char × Groups)
  | 0, _, _, _, _, _ => none
  | fuel + 1, r, atStart, cs, groups, next =>
    match r with
    | .empty => next atStart cs groups
    | .char d =>
      match cs with
      | c :: rest => if sameLetter ignoreCase c d then next false rest groups else none
      | [] => none
    | .any =>
      match cs with
      | _ :: rest => next false rest groups
      | [] => none
    | .among s =>
      match cs with
      | c :: rest =>
        if s.mem c || (ignoreCase && (s.mem c.toLower || s.mem c.toUpper)) then
          next false rest groups
        else none
      | [] => none
    | .start => if atStart then next atStart cs groups else none
    | .stop => if cs.isEmpty then next atStart cs groups else none
    | .sequence a b =>
      matchAt ignoreCase fuel a atStart cs groups fun atStart cs groups =>
        matchAt ignoreCase fuel b atStart cs groups next
    | .either a b =>
      (matchAt ignoreCase fuel a atStart cs groups next).or
        (matchAt ignoreCase fuel b atStart cs groups next)
    | .repeated a least most =>
      let again :=
        if most == some 0 then none
        else matchAt ignoreCase fuel a atStart cs groups fun atStart' rest groups =>
          if rest.length == cs.length && least == 0 then none
          else matchAt ignoreCase fuel (.repeated a (least - 1) (most.map (· - 1))) atStart' rest
            groups next
      again.or (if least == 0 then next atStart cs groups else none)
    | .group n a =>
      matchAt ignoreCase fuel a atStart cs groups fun atStart rest groups =>
        next atStart rest ((n, cs.take (cs.length - rest.length)) :: groups)

/-- A match: the text before it, the text of it, the groups and the text behind it. -/
structure Match where
  before : List Char
  text : List Char
  groups : Groups
  after : List Char

/-- Fuel that is enough for a line. -/
def fuelFor (cs : List Char) : Nat := 64 * (cs.length + 16)

/-- The first match at or behind a place, with the text passed over so far last first. -/
def findFrom (r : Regex) (ignoreCase atStart : Bool) (passed : List Char) :
    List Char → Option Match
  | [] =>
    (matchAt ignoreCase (fuelFor []) r atStart [] [] fun _ rest groups => some (rest, groups)).map
      fun (rest, groups) => ⟨passed.reverse, [], groups, rest⟩
  | c :: cs =>
    match matchAt ignoreCase (fuelFor (c :: cs)) r atStart (c :: cs) []
        fun _ rest groups => some (rest, groups) with
    | some (rest, groups) =>
      some ⟨passed.reverse, (c :: cs).take ((c :: cs).length - rest.length), groups, rest⟩
    | none => findFrom r ignoreCase false (c :: passed) cs

/-- The first match in a line. -/
def find? (r : Regex) (ignoreCase : Bool) (line : List Char) : Option Match :=
  findFrom r ignoreCase true [] line

/-- Whether a line is taken in whole. -/
def takesWhole (r : Regex) (ignoreCase : Bool) (line : List Char) : Bool :=
  (matchAt ignoreCase (fuelFor line) r true line []
    fun _ rest groups => if rest.isEmpty then some (rest, groups) else none).isSome

/-! ## Reading -/

/-- The counts in braces, and what follows them. -/
def counts? (extended : Bool) (cs : List Char) : Option (Nat × Option Nat × List Char) :=
  let number (ds : List Char) : Nat := ds.foldl (fun n c => 10 * n + (c.toNat - 48)) 0
  let low := cs.takeWhile Char.isDigit
  let rest := cs.drop low.length
  let close (least : Nat) (most : Option Nat) (rest : List Char) :=
    match extended, rest with
    | true, '\x7d' :: after => some (least, most, after)
    | false, '\\' :: '\x7d' :: after => some (least, most, after)
    | _, _ => none
  match rest with
  | ',' :: rest =>
    let high := rest.takeWhile Char.isDigit
    close (number low) (if high.isEmpty then none else some (number high)) (rest.drop high.length)
  | rest => if low.isEmpty then none else close (number low) (some (number low)) rest

/-- An expression with the repetitions that follow it. -/
def withRepeats (extended : Bool) : Nat → Regex → List Char → Regex × List Char
  | 0, r, cs => (r, cs)
  | fuel + 1, r, cs =>
    let again (least : Nat) (most : Option Nat) (rest : List Char) :=
      withRepeats extended fuel (.repeated r least most) rest
    match extended, cs with
    | _, '*' :: rest => again 0 none rest
    | true, '+' :: rest | false, '\\' :: '+' :: rest => again 1 none rest
    | true, '?' :: rest | false, '\\' :: '?' :: rest => again 0 (some 1) rest
    | true, '\x7b' :: rest =>
      match counts? true rest with
      | some (least, most, after) => again least most after
      | none => (r, cs)
    | false, '\\' :: '\x7b' :: rest =>
      match counts? false rest with
      | some (least, most, after) => again least most after
      | none => (r, cs)
    | _, _ => (r, cs)

mutual

/-- The alternatives at the start of a text, what follows them and the number of groups so far. -/
def alternatives (extended : Bool) : Nat → Nat → List Char → Regex × List Char × Nat
  | 0, n, cs => (.empty, cs, n)
  | fuel + 1, n, cs =>
    let (first, rest, n) := branch extended fuel true n cs
    match extended, rest with
    | true, '|' :: rest | false, '\\' :: '|' :: rest =>
      let (second, rest, n) := alternatives extended fuel n rest
      (.either first second, rest, n)
    | _, _ => (first, rest, n)

/-- One alternative. -/
def branch (extended : Bool) : Nat → Bool → Nat → List Char → Regex × List Char × Nat
  | 0, _, n, cs => (.empty, cs, n)
  | fuel + 1, first, n, cs =>
    let followed (r : Regex) (rest : List Char) (n : Nat) :=
      let (r, rest) := withRepeats extended fuel r rest
      let (more, rest, n) := branch extended fuel false n rest
      (Regex.sequence r more, rest, n)
    match extended, cs with
    | _, [] => (.empty, [], n)
    | true, '|' :: _ | true, ')' :: _ | false, '\\' :: '|' :: _ | false, '\\' :: ')' :: _ =>
      (.empty, cs, n)
    | true, '(' :: rest | false, '\\' :: '(' :: rest =>
      let (inner, rest, m) := alternatives extended fuel (n + 1) rest
      let rest := if extended then rest.drop 1 else rest.drop 2
      followed (.group (n + 1) inner) rest m
    | _, '^' :: rest =>
      if first || extended then
        let (more, rest, n) := branch extended fuel true n rest
        (.sequence .start more, rest, n)
      else followed (.char '^') rest n
    | _, '$' :: rest =>
      let ends := match extended, rest with
        | _, [] | true, '|' :: _ | true, ')' :: _ | false, '\\' :: '|' :: _
        | false, '\\' :: ')' :: _ => true
        | _, _ => extended
      followed (if ends then .stop else .char '$') rest n
    | _, '.' :: rest => followed .any rest n
    | _, '[' :: rest =>
      match charSet? rest with
      | some (set, rest) => followed (.among set) rest n
      | none => followed (.char '[') rest n
    | _, '\\' :: c :: rest => followed (.char c) rest n
    | false, '*' :: rest => if first then followed (.char '*') rest n else (.empty, rest, n)
    | _, c :: rest => followed (.char c) rest n

end

/-- The expression that a text writes. -/
def ofText (extended : Bool) (text : String) : Regex :=
  (alternatives extended (4 * text.length + 8) 0 text.toList).1

/-- The expression of a text that stands for itself. -/
def literal (text : String) : Regex :=
  text.toList.foldr (fun c r => .sequence (.char c) r) .empty

end Regex

end Amend.Shell
