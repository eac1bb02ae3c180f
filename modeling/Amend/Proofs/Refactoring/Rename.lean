import Amend.Proofs.Refactoring.Capture
import Amend.Refactoring.Rename

/-!
# What is renamed

All variables of a method that are written like the renamed one get the new name, and nothing else
does.  Where the method declares the old name, the new one means what the old one meant; anywhere
else in the method the old name means something around it, which keeps its name.
-/

namespace Amend.Refactoring.Rename

open Syntax TextEdit EditSet Inline

/-- The edit that renames an identifier. -/
def renameEdit (source old new : String) (n : Node) : TextEdit :=
  .replace n.start n.stop new ("rename " ++ old ++ " at line " ++ toString (n.firstLine source))

/-- A variable that can be renamed: it is declared in the method of a record, and no identifier of
the method has the new name. -/
structure Renaming (d : Defect) (source : String) (t : Tree) where
  old : String
  new : String
  method : Node
  declaration : Node
  named : d.elementName? = some old
  found : Java.findMethod? (.root t) source none d.startLine = some method
  declared : declaration ∈ Java.variableOccurrences method source old
  site : Java.isDeclarationSite declaration = true
  differs : new ≠ old
  legal : Java.isIdentifier new = true
  free : mentions method source new = false

namespace Renaming

variable {d : Defect} {source : String} {t : Tree} (m : Renaming d source t)

/-- The variables that are written like the renamed one. -/
def occurrences : List Node := Java.variableOccurrences m.method source m.old

/-- Their edits. -/
def edits : List TextEdit := m.occurrences.map (renameEdit source m.old m.new)

def description : String :=
  "Renamed " ++ m.old ++ " to " ++ m.new ++ " (" ++ toString m.occurrences.length ++
    " occurrence(s))"

end Renaming

section

variable {d : Defect} {source : String} {t : Tree} {r : Rewrite}

/-- A new name that passes the checks. -/
theorem checked_of_eq_ok {method : Node} {old new : String} {rest : Except RewriteError Rewrite}
    (h : (do
      if new = old then refuse (.sameName old)
      if !Java.isIdentifier new then refuse (.notIdentifier new)
      if mentions method source new then refuse (.nameInUse new)
      rest) = .ok r) :
    new ≠ old ∧ Java.isIdentifier new = true ∧ mentions method source new = false ∧
      rest = .ok r := by
  obtain ⟨hdiffers, h⟩ := passed_of_eq_ok h
  obtain ⟨hlegal, h⟩ := passed_of_eq_ok h
  obtain ⟨hfree, h⟩ := passed_of_eq_ok h
  exact ⟨hdiffers, by simpa using hlegal, by simpa using hfree, h⟩

/-- A rewrite renames a variable that can be renamed. -/
theorem exists_renaming (h : rewrite d source t = .ok r) :
    ∃ m : Renaming d source t,
      Rewrite.ofEdits source m.edits m.description = .ok r := by
  rw [rewrite] at h
  split at h
  · next old hold =>
    split at h
    · next method hmethod =>
      dsimp only at h
      split at h
      · next declaration hdeclaration =>
        have hmem := List.mem_of_find?_eq_some hdeclaration
        have hsite := List.find?_some hdeclaration
        split at h
        · obtain ⟨new, -, h⟩ := exists_of_bind_eq_ok h
          obtain ⟨hdiffers, hlegal, hfree, h⟩ := checked_of_eq_ok h
          exact ⟨⟨old, new, method, declaration, hold, hmethod, hmem, hsite, hdiffers, hlegal,
            hfree⟩, h⟩
        · split at h
          · obtain ⟨new, -, h⟩ := exists_of_bind_eq_ok h
            obtain ⟨hdiffers, hlegal, hfree, h⟩ := checked_of_eq_ok h
            exact ⟨⟨old, new, method, declaration, hold, hmethod, hmem, hsite, hdiffers, hlegal,
              hfree⟩, h⟩
          · cases h
      · cases h
    · cases h
  · cases h

/-- A variable that can be renamed is, if the record suggests its new name. -/
theorem Renaming.rewrite_eq (m : Renaming d source t)
    (hsuggested : suggestedName? d.message = some m.new) :
    rewrite d source t = Rewrite.ofEdits source m.edits m.description := by
  have hsome : ((Java.variableOccurrences m.method source m.old).find?
      Java.isDeclarationSite).isSome = true :=
    List.find?_isSome.mpr ⟨m.declaration, m.declared, m.site⟩
  obtain ⟨declaration, hdeclaration⟩ := Option.isSome_iff_exists.mp hsome
  rw [rewrite, m.named]
  dsimp only
  rw [m.found]
  dsimp only
  rw [hdeclaration]
  dsimp only
  rw [hsuggested]
  dsimp only [bind, Except.bind, pure, Except.pure]
  rw [if_neg m.differs, m.legal, m.free]
  rfl

/-- No identifier of a scope has a name that it does not mention. -/
theorem mentions_eq_false_iff {scope : Node} {name : String}
    (hbare : scope.tree.wordsBare = true) : mentions scope source name = false ↔
      ∀ n, scope.Holds n → n.kind = .identifier → n.text source ≠ name := by
  have hnamed : [Kind.identifier].all (·.isNamed) = true := rfl
  rw [mentions, List.any_eq_false]
  simp only [decide_eq_true_eq, Node.mem_descendants_iff hbare hnamed, List.mem_singleton,
    and_imp, ne_eq]

end

/-! ## What is written -/

namespace Renaming

variable {d : Defect} {source content : String} {t : Tree} (m : Renaming d source t)
  {ordered : List TextEdit} {n : Node}

theorem held : (Node.root t).Holds m.method := Java.holds_of_findMethod? m.found

/-- A node stands in the new content as it was, behind what the edits make of the text before it
and ahead of what they make of the text behind it. -/
def Stays (source content : String) (ordered : List TextEdit) (n : Node) : Prop :=
  ∃ ahead behind y x y' x', ordered = ahead ++ behind ∧ source = y ++ n.text source ++ x ∧
    y.utf8ByteSize = n.start ∧ content = y' ++ n.text source ++ x' ∧ Rewrites 0 y ahead y' ∧
    Rewrites (y ++ n.text source).utf8ByteSize x behind x'

/-- An identifier that is not renamed stays. -/
theorem stays_of_notMem (hfits : t.fits source = true) (hbare : t.wordsBare = true)
    (ho : InReadingOrder m.edits ordered) (hrewrites : Rewrites 0 source ordered content)
    (hn : (Node.root t).Holds n) (hkind : n.kind = .identifier) (hother : n ∉ m.occurrences) :
    Stays source content ordered n := by
  have hmethod := m.held.wordsBare hbare
  have hleaf {k : Node} (hk : (Node.root t).Holds k) (hkind : k.kind = .identifier) :
      k ∈ (Node.root t).preorder ∧ k.tree.children = [] := by
    refine ⟨(Node.mem_preorder_iff hbare).mpr ⟨hk, .inr (by rw [hkind]; rfl)⟩, ?_⟩
    rcases (Tree.wordsBare_iff.mp (hk.wordsBare hbare)).1 with hnone | ⟨-, hne⟩
    · exact hnone
    · exact absurd hkind hne
  obtain ⟨y, x, hsource, hstart, hstop⟩ :=
    Text.slice?_eq_some_iff.mp (Node.slice?_eq_text (hn.spans hfits).1)
  have hspared : ∀ e ∈ ordered, e.stop ≤ 0 + y.utf8ByteSize ∨
      0 + (y ++ n.text source).utf8ByteSize ≤ e.start := by
    intro e he
    obtain ⟨use, huse, rfl⟩ := List.mem_map.mp ((ho.mem_iff e).mp he)
    have hne : use ≠ n := fun heq => hother (heq ▸ huse)
    obtain ⟨hheld, hidentifier, -⟩ := (Java.mem_variableOccurrences_iff hmethod).mp huse
    obtain ⟨huse, huseleaf⟩ := hleaf (m.held.trans hheld) hidentifier
    obtain ⟨hmet, hnleaf⟩ := hleaf hn hkind
    have hapart := Node.apart_of_mem_preorder hfits huse hmet huseleaf hnleaf hne
    rw [String.utf8ByteSize_append, Nat.zero_add, Nat.zero_add, hstart, hstop]
    exact hapart
  rw [hsource] at hrewrites
  obtain ⟨ahead, behind, y', x', hordered, hcontent, hahead, hbehind⟩ := hrewrites.spared hspared
  rw [Nat.zero_add] at hbehind
  exact ⟨ahead, behind, y, x, y', x', hordered, hsource, hstart, hcontent, hahead, hbehind⟩

end Renaming

/-! ## What the names mean -/

section

variable {d : Defect} {source : String} {t : Tree} {r : Rewrite} {method n : Node}
  {declares declares' : Node → Bool}

/-- Where the method declares the old name, the new one means the same declaration.  Elsewhere the
old name means what it means around the method, and so does the new one. -/
theorem binder?_renamed (hn : method.Holds n) (hne : n ≠ method)
    (hsame : ∀ k, method.Holds k → declares' k = declares k) :
    (∃ k, method.Holds k ∧ binder? declares n = some k ∧ binder? declares' n = some k) ∨
    binder? declares n = method.ancestors.find? declares ∧
      binder? declares' n = method.ancestors.find? declares' := by
  obtain ⟨inner, hinner, hbetween⟩ := hn.ancestors_eq hne
  have hsplit : n.ancestors = (inner ++ [method]) ++ method.ancestors := by
    rw [hinner, List.append_assoc, List.singleton_append]
  have hheld : ∀ k ∈ inner ++ [method], method.Holds k := by
    intro k hk
    rcases List.mem_append.mp hk with hk | hk
    · exact (hbetween k hk).1
    · rw [List.mem_singleton.mp hk]
      exact .self
  have hinside : (inner ++ [method]).find? declares' = (inner ++ [method]).find? declares :=
    List.find?_congr fun k hk => hsame k (hheld k hk)
  have hall (p : Node → Bool) : n.ancestors.find? p =
      ((inner ++ [method]).find? p).or (method.ancestors.find? p) := by
    rw [hsplit, List.find?_append]
  rw [binder?, binder?, hall, hall, hinside]
  cases hfind : (inner ++ [method]).find? declares with
  | none => exact .inr ⟨rfl, rfl⟩
  | some k => exact .inl ⟨k, hheld k (List.mem_of_find?_eq_some hfind), rfl, rfl⟩

/-- All variables of the method with the old name get the new one, which no identifier of the method
has, and every other identifier stays.  A name that means something in the method still means it; a
name that means something around the method is renamed as well, away from what it means. -/
theorem renamed_in_method (hfits : t.fits source = true) (hbare : t.wordsBare = true)
    (h : rewrite d source t = .ok r) :
    ∃ (m : Renaming d source t) (ordered : List TextEdit) (content : String)
      (shifts : List LineShift), r = .edit content shifts m.description ∧
      InReadingOrder m.edits ordered ∧ Rewrites 0 source ordered content ∧
      (∀ n, n ∈ m.occurrences ↔ m.method.Holds n ∧ n.kind = .identifier ∧
        n.text source = m.old ∧ Java.isVariableName n = true) ∧
      (∀ n, m.method.Holds n → n.kind = .identifier → n.text source ≠ m.new) ∧
      (∀ n, (Node.root t).Holds n → n.kind = .identifier → n ∉ m.occurrences →
        Renaming.Stays source content ordered n) ∧
      ∀ n ∈ m.occurrences, ∀ {declares declares' : Node → Bool},
        (∀ k, m.method.Holds k → declares' k = declares k) →
        (∃ k, m.method.Holds k ∧ binder? declares n = some k ∧ binder? declares' n = some k) ∨
        binder? declares n = m.method.ancestors.find? declares ∧
          binder? declares' n = m.method.ancestors.find? declares' := by
  obtain ⟨m, hedits⟩ := exists_renaming h
  obtain ⟨ordered, content, shifts, hr, ho, -, hrewrites⟩ := Rewrite.ofEdits_eq_ok hedits
  have hmethod := m.held.wordsBare hbare
  refine ⟨m, ordered, content, shifts, hr, ho, hrewrites,
    fun n => Java.mem_variableOccurrences_iff hmethod, (mentions_eq_false_iff hmethod).mp m.free,
    fun n => m.stays_of_notMem hfits hbare ho hrewrites, ?_⟩
  intro n hn declares declares' hsame
  obtain ⟨hheld, hkind, -⟩ := (Java.mem_variableOccurrences_iff hmethod).mp hn
  refine binder?_renamed hheld ?_ hsame
  rintro rfl
  have hcallable := Java.isOneOf_of_findMethod? m.found
  rw [Node.isOneOf, hkind] at hcallable
  cases hcallable

end

/-! ## A field with the name of a local variable -/

/-- A method with a variable in an inner block that has the name of a field, and the method with
another name in its place. -/
def meterText (name : String) : String :=
  "class Meter \x7b\n    int n = 1;\n    int count = 2;\n\n    int read(int k) \x7b\n" ++
    "        \x7b\n            int " ++ name ++ (" = k * 2;\n            k = " ++ name ++
    (";\n        \x7d\n        return k + " ++ name ++ ";\n    \x7d\n\x7d\n"))

def meterSource : String := meterText "n"

/-- Its tree. -/
def meterTree : Tree :=
  ⟨.program, none, false, 0, 167, [⟨.classDeclaration, none, false, 0, 166, [
    ⟨.token "class", none, false, 0, 5, []⟩, ⟨.identifier, some .name, false, 6, 11, []⟩,
    ⟨.classBody, some .body, false, 12, 166, [⟨.token "\x7b", none, false, 12, 13, []⟩,
    ⟨.fieldDeclaration, none, false, 18, 28, [⟨.integralType, some .type, false, 18, 21, [
    ⟨.token "int", none, false, 18, 21, []⟩]⟩,
    ⟨.variableDeclarator, some .declarator, false, 22, 27, [
    ⟨.identifier, some .name, false, 22, 23, []⟩, ⟨.token "=", none, false, 24, 25, []⟩,
    ⟨.decimalIntegerLiteral, some .value, false, 26, 27, []⟩]⟩,
    ⟨.token ";", none, false, 27, 28, []⟩]⟩, ⟨.fieldDeclaration, none, false, 33, 47, [
    ⟨.integralType, some .type, false, 33, 36, [⟨.token "int", none, false, 33, 36, []⟩]⟩,
    ⟨.variableDeclarator, some .declarator, false, 37, 46, [
    ⟨.identifier, some .name, false, 37, 42, []⟩, ⟨.token "=", none, false, 43, 44, []⟩,
    ⟨.decimalIntegerLiteral, some .value, false, 45, 46, []⟩]⟩,
    ⟨.token ";", none, false, 46, 47, []⟩]⟩, ⟨.methodDeclaration, none, false, 53, 164, [
    ⟨.integralType, some .type, false, 53, 56, [⟨.token "int", none, false, 53, 56, []⟩]⟩,
    ⟨.identifier, some .name, false, 57, 61, []⟩,
    ⟨.formalParameters, some .parameters, false, 61, 68, [⟨.token "(", none, false, 61, 62, []⟩,
    ⟨.formalParameter, none, false, 62, 67, [⟨.integralType, some .type, false, 62, 65, [
    ⟨.token "int", none, false, 62, 65, []⟩]⟩, ⟨.identifier, some .name, false, 66, 67, []⟩]⟩,
    ⟨.token ")", none, false, 67, 68, []⟩]⟩, ⟨.block, some .body, false, 69, 164, [
    ⟨.token "\x7b", none, false, 69, 70, []⟩, ⟨.block, none, false, 79, 136, [
    ⟨.token "\x7b", none, false, 79, 80, []⟩, ⟨.localVariableDeclaration, none, false, 93, 107, [
    ⟨.integralType, some .type, false, 93, 96, [⟨.token "int", none, false, 93, 96, []⟩]⟩,
    ⟨.variableDeclarator, some .declarator, false, 97, 106, [
    ⟨.identifier, some .name, false, 97, 98, []⟩, ⟨.token "=", none, false, 99, 100, []⟩,
    ⟨.binaryExpression, some .value, false, 101, 106, [
    ⟨.identifier, some .left, false, 101, 102, []⟩,
    ⟨.token "*", some .operator, false, 103, 104, []⟩,
    ⟨.decimalIntegerLiteral, some .right, false, 105, 106, []⟩]⟩]⟩,
    ⟨.token ";", none, false, 106, 107, []⟩]⟩, ⟨.expressionStatement, none, false, 120, 126, [
    ⟨.assignmentExpression, none, false, 120, 125, [
    ⟨.identifier, some .left, false, 120, 121, []⟩,
    ⟨.token "=", some .operator, false, 122, 123, []⟩,
    ⟨.identifier, some .right, false, 124, 125, []⟩]⟩, ⟨.token ";", none, false, 125, 126, []⟩]⟩,
    ⟨.token "\x7d", none, false, 135, 136, []⟩]⟩, ⟨.returnStatement, none, false, 145, 158, [
    ⟨.token "return", none, false, 145, 151, []⟩, ⟨.binaryExpression, none, false, 152, 157, [
    ⟨.identifier, some .left, false, 152, 153, []⟩,
    ⟨.token "+", some .operator, false, 154, 155, []⟩,
    ⟨.identifier, some .right, false, 156, 157, []⟩]⟩, ⟨.token ";", none, false, 157, 158, []⟩]⟩,
    ⟨.token "\x7d", none, false, 163, 164, []⟩]⟩]⟩,
    ⟨.token "\x7d", none, false, 165, 166, []⟩]⟩]⟩]⟩

/-- The record of the variable. -/
def meterDefect : Defect := { category := "short-variable-name", file := ⟨"Meter.java"⟩
                              startLine := 7, element := some "n"
                              message := "Rename n to 'count'" }

/-- What a block declares, and a parameter list or the body of a type. -/
def declaredIn (source : String) (scope : Node) (name : String) : Bool :=
  scope.parts.any (fun s => s.kind = .localVariableDeclaration &&
    (s.childrenBy .declarator).any fun v => Java.declaredName? v source = some name) ||
  declaredBy source scope name

/-- The method. -/
def meterMethod : Node :=
  (Java.findMethod? (.root meterTree) meterSource none 7).getD default

theorem found_meter :
    Java.findMethod? (.root meterTree) meterSource none 7 = some meterMethod := by
  have hsome : (Java.findMethod? (.root meterTree) meterSource none 7).isSome = true := by
    decide +kernel
  exact eq_some_getD hsome

/-- The declaration of the variable. -/
def meterDeclaration : Node :=
  ((Java.variableOccurrences meterMethod meterSource "n").find? Java.isDeclarationSite).getD default

theorem declaration_meter :
    (Java.variableOccurrences meterMethod meterSource "n").find? Java.isDeclarationSite =
      some meterDeclaration := by
  have hsome : ((Java.variableOccurrences meterMethod meterSource "n").find?
      Java.isDeclarationSite).isSome = true := by
    decide +kernel
  exact eq_some_getD hsome

/-- The variable can be renamed. -/
def meter : Renaming meterDefect meterSource meterTree where
  old := "n"
  new := "count"
  method := meterMethod
  declaration := meterDeclaration
  named := by decide +kernel
  found := found_meter
  declared := List.mem_of_find?_eq_some declaration_meter
  site := List.find?_some declaration_meter
  differs := by decide +kernel
  legal := by decide +kernel
  free := by decide +kernel

theorem edits_meter : meter.edits =
    [.replace 97 98 "count" "rename n at line 7", .replace 124 125 "count" "rename n at line 8",
      .replace 156 157 "count" "rename n at line 10"] := by
  decide +kernel

/-- The edits put the new name in the place of the old one. -/
theorem applyTo?_meter : applyTo? ⟨meter.edits⟩ meterSource = some (meterText "count") := by
  have hrewrites : Rewrites 0 meterSource
      [.replace 97 98 "count" "rename n at line 7", .replace 124 125 "count" "rename n at line 8",
        .replace 156 157 "count" "rename n at line 10"] (meterText "count") :=
    .edit rfl rfl (.edit rfl rfl (.edit rfl rfl (.done _ _)))
  rw [edits_meter]
  simpa using hrewrites.applyTo?_eq (a := "") rfl

/-- The last of the names that are replaced is behind the block and means the field. -/
theorem field_is_renamed_meter :
    (∃ shifts description, rewrite meterDefect meterSource meterTree =
      .ok (.edit (meterText "count") shifts description)) ∧
    meter.occurrences.map (fun use =>
      (binder? (declaredIn meterSource · "n") use).map (·.kind)) =
        [some .block, some .block, some .classBody] := by
  refine ⟨⟨[], meter.description, ?_⟩, by decide +kernel⟩
  rw [meter.rewrite_eq (by decide +kernel)]
  have happly := applyTo?_meter
  rw [edits_meter] at happly ⊢
  refine Rewrite.ofEdits_of_apart (by decide +kernel) ?_ ?_ happly (by decide +kernel)
  · simp only [Fits]
    decide +kernel
  · rw [Apart]
    decide +kernel

end Amend.Refactoring.Rename
