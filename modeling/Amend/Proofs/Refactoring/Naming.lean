import Amend.Extraction.Method
import Amend.Proofs.Java.Name
import Amend.Refactoring.Constant

/-!
# Names that are made up

A new method is named after words in its block, and a new constant after the element that its record
names or after its value.  However the name comes about, it is none of those that are taken, and the
search for it ends; the name of a constant is a legal identifier, whatever characters the record and
the literal are made of.
-/

namespace Amend

open Java (Freshened Numbered)

/-! ## Methods -/

namespace Extraction

/-- The name that goes with the first group of known words of which a block contains one. -/
def wordName? (text : String) : Option String :=
  (nameWords.find? fun (words, _) => words.any (Text.contains (Text.lower text))).map (·.2)

/-- A name for a method made of a block: the one that goes with a word of the block, made fresh, or
else a numbered one. -/
inductive MethodNamed (text : String) (taken : List String) (name : String) : Prop
  | worded {base : String} (hword : wordName? text = some base)
    (hname : Freshened base taken name)
  | plain (hword : wordName? text = none) (hname : Numbered "extractedBlock" taken 1 name)

variable {text name : String} {taken : List String}

theorem MethodNamed.notMem (h : MethodNamed text taken name) : name ∉ taken := by
  cases h with
  | worded _ hname => exact hname.notMem
  | plain _ hname => exact hname.notMem

theorem methodNamed_methodName (text : String) (taken : List String) :
    MethodNamed text taken (methodName text taken) := by
  rw [methodName]
  split
  case h_1 words base hfound =>
    have hword : wordName? text = some base := by rw [wordName?, hfound, Option.map_some]
    exact .worded hword (Java.freshened_uniqueName base taken)
  case h_2 hnone =>
    obtain ⟨name, hfind, hname⟩ := Java.exists_find?_numbered "extractedBlock" taken 1
    dsimp only
    rw [hfind]
    have hword : wordName? text = none := by rw [wordName?, hnone, Option.map_none]
    exact .plain hword hname

end Extraction

/-! ## Constants -/

namespace Refactoring.Constant

/-- What a constant is called is a legal identifier: a name that is none is replaced. -/
theorem isIdentifier_constantName (d : Defect) (t : Target) :
    Java.isIdentifier (constantName d t) = true := by
  rw [constantName]
  dsimp only
  generalize hgiven : d.elementName?.bind _ = given
  cases given with
  | some name =>
    obtain ⟨element, -, hname⟩ := Option.bind_eq_some_iff.mp hgiven
    split at hname
    case isTrue hlegal =>
      cases hname
      exact hlegal.2
    case isFalse => cases hname
  | none =>
    rw [Option.getD_none]
    generalize (if t.javaType = "String" then _ else _ : String) = generated
    split
    case isTrue hlegal => exact hlegal
    case isFalse => decide +kernel

/-- Names that are made up are fresh, and the search for them ends.  A base gets the least number
that makes it free if it is taken itself, a method is named after its block, and what a new constant
is called is a legal identifier. -/
theorem made_up_names_are_fresh_and_legal :
    (∀ base taken, Freshened base taken (Java.uniqueName base taken)) ∧
    (∀ text taken, Extraction.MethodNamed text taken (Extraction.methodName text taken) ∧
      Extraction.methodName text taken ∉ taken) ∧
    ∀ (d : Defect) (t : Target) (taken : List String),
      Java.isIdentifier (Java.uniqueName (constantName d t) taken) = true ∧
        Java.uniqueName (constantName d t) taken ∉ taken := by
  refine ⟨Java.freshened_uniqueName, fun text taken => ?_, fun d t taken => ?_⟩
  · have hname := Extraction.methodNamed_methodName text taken
    exact ⟨hname, hname.notMem⟩
  · have hname := Java.freshened_uniqueName (constantName d t) taken
    exact ⟨hname.isIdentifier (isIdentifier_constantName d t), hname.notMem⟩

end Refactoring.Constant

end Amend
