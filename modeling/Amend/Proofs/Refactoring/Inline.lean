import Amend.Proofs.Java.Use
import Amend.Proofs.Layout
import Amend.Proofs.Refactoring.Rewrite
import Amend.Refactoring.Inline

/-!
# What is replaced when a method is inlined

The calls that are found on `this` are replaced one by one, and the declaration is cut out with
them.  Calls on other receivers and method references are not looked for.
-/

namespace Amend.Refactoring.Inline

open Syntax TextEdit EditSet

/-- A private method of one expression that does not call itself on `this`. -/
structure Inlinable (source : String) (t : Tree) where
  method : Node
  name : String
  params : List (String × String)
  expression : Node
  isStatement : Bool
  held : (Node.root t).Holds method
  kind : method.kind = .methodDeclaration
  named : Java.declaredName? method source = some name
  isPrivate : Java.hasModifier method source "private" = true
  parameters : Java.parameters? method source = some params
  single : singleExpression? method = some (expression, isStatement)
  notRecursive : Java.localCalls method source name = []

namespace Inlinable

variable {source : String} {t : Tree} (m : Inlinable source t)

/-- The calls of the method on `this` outside its declaration. -/
def calls : List Node :=
  (Java.localCalls (.root t) source m.name).filter fun c =>
    c.start < m.method.start || c.stop > m.method.stop

/-- The parameters with the arguments of a call. -/
def pairs (call : Node) : List (String × Node) :=
  (m.params.map (·.2)).zip (Java.callArguments call)

/-- The edit of a call. -/
def edit (call : Node) : Except RewriteError TextEdit :=
  callEdit m.name m.expression m.isStatement source m.params call

/-- The deletion of the declaration. -/
def removal : TextEdit :=
  let span := Layout.removalSpan source m.method
  .delete span.start span.stop ("remove " ++ m.name)

/-- What is said of the rewrite. -/
def description : String :=
  "Inlined " ++ m.name ++ "() at " ++ toString m.calls.length ++ " call site(s)"

end Inlinable

section

variable {source : String} {t : Tree} {d : Defect} {r : Rewrite}

/-- What is rewritten is a method that can be inlined, at its calls on `this` elsewhere. -/
theorem exists_inlinable (h : rewrite d source t = .ok r) :
    ∃ m : Inlinable source t,
      Java.findMethod? (.root t) source d.elementName? d.startLine = some m.method ∧
        m.calls ≠ [] := by
  rw [rewrite] at h
  split at h
  case h_2 => cases h
  next method hmethod =>
  split at h
  case h_2 => cases h
  next name hname =>
  obtain ⟨hprivate, h⟩ := passed_of_eq_ok h
  split at h
  case h_2 => cases h
  next params hparams =>
  split at h
  case h_2 => cases h
  next expression isStatement hsingle =>
  obtain ⟨hrecursive, h⟩ := passed_of_eq_ok h
  obtain ⟨hcalls, -⟩ := passed_of_eq_ok h
  obtain ⟨hfound, hkind⟩ := Option.filter_eq_some_iff.mp hmethod
  let m : Inlinable source t :=
    { method, name, params, expression, isStatement
      held := Java.holds_of_findMethod? hfound
      kind := of_decide_eq_true hkind
      named := hname
      isPrivate := by simpa using hprivate
      parameters := hparams
      single := hsingle
      notRecursive := by simpa using hrecursive }
  exact ⟨m, hfound, fun hnone => hcalls (List.isEmpty_iff.mpr hnone)⟩

/-- The rewrite of a method that can be inlined is made of the edits of its calls and the deletion
of its declaration. -/
theorem Inlinable.rewrite_eq (m : Inlinable source t)
    (hfound : Java.findMethod? (.root t) source d.elementName? d.startLine = some m.method)
    (hcalls : m.calls ≠ []) :
    rewrite d source t = m.calls.mapM m.edit >>= fun edits =>
      Rewrite.ofEdits source (edits ++ [m.removal]) m.description := by
  have hmethod : (Java.findMethod? (.root t) source d.elementName? d.startLine).filter
      (fun n => n.kind = .methodDeclaration) = some m.method := by
    rw [hfound, Option.filter_some, if_pos (decide_eq_true m.kind)]
  have hsome : m.calls.isEmpty = false := List.isEmpty_eq_false_iff.mpr hcalls
  rw [rewrite, hmethod]
  simp only [m.named, m.isPrivate, m.parameters, m.single, m.notRecursive]
  change (if m.calls.isEmpty then _ else _) = _
  rw [hsome]
  rfl

/-- What names the method outside its declaration is one of its calls on `this`, a method reference,
or a call on another receiver. -/
theorem Inlinable.use_cases (m : Inlinable source t) (hbare : t.wordsBare = true) {use : Node}
    (huse : (Node.root t).Holds use) (hnamed : Java.methodNamed? use source = some m.name)
    (hoff : use.start < m.method.start ∨ m.method.stop < use.stop) :
    use ∈ m.calls ∨ use.kind = .methodReference ∨
      ∃ receiver, use.childBy? .object = some receiver ∧ receiver.kind ≠ .thisRef := by
  rw [Java.methodNamed?] at hnamed
  split at hnamed
  · next hkind =>
    by_cases hthis : ∀ receiver, use.childBy? .object = some receiver → receiver.kind = .thisRef
    · have hlocal := (Java.mem_localCalls_iff hbare).mpr ⟨huse, hkind, hnamed, hthis⟩
      exact .inl (List.mem_filter.mpr ⟨hlocal, by simpa using hoff⟩)
    · simp only [not_forall] at hthis
      obtain ⟨receiver, hreceiver, hother⟩ := hthis
      exact .inr (.inr ⟨receiver, hreceiver, hother⟩)
  · next hkind => exact .inr (.inl hkind)
  · cases hnamed

theorem holds_of_mem_bodyStatements {callable statement : Node}
    (h : statement ∈ Java.bodyStatements callable) : callable.Holds statement := by
  rw [Java.bodyStatements] at h
  cases hbody : callable.childBy? .body with
  | none =>
    rw [hbody] at h
    cases h
  | some body =>
    rw [hbody, Option.map_some, Option.getD_some] at h
    have hchild := List.mem_of_find?_eq_some hbody
    exact (Node.Holds.self.child hchild).child
      (List.mem_of_mem_filter (List.mem_of_mem_filter h))

/-- The inlined expression is part of the method. -/
theorem holds_of_singleExpression? {method expression : Node} {isStatement : Bool}
    (h : singleExpression? method = some (expression, isStatement)) :
    method.Holds expression := by
  rw [singleExpression?] at h
  split at h
  · next statement hone =>
    have hstatement : method.Holds statement :=
      holds_of_mem_bodyStatements (by rw [hone]; exact List.mem_singleton_self statement)
    have hfirst : statement.namedChildren.head? = some expression := by
      split at h
      · obtain ⟨first, hfirst, ⟨⟩⟩ := Option.map_eq_some_iff.mp h
        exact hfirst
      · obtain ⟨first, hfirst, ⟨⟩⟩ := Option.map_eq_some_iff.mp h
        exact hfirst
      · cases h
    exact hstatement.child (List.mem_of_mem_filter (List.mem_of_head? hfirst))
  · cases h

/-- The edit of a call puts the inlined expression in its place, in parentheses or not. -/
theorem callEdit_eq_ok {name : String} {expression call : Node} {isStatement : Bool}
    {params : List (String × String)} {e : TextEdit}
    (h : callEdit name expression isStatement source params call = .ok e) :
    e.start = call.start ∧ e.stop = call.stop ∧
      ∃ inlined, substitute expression source params call = .ok inlined ∧
        (e.replacement = inlined ∨ e.replacement = "(" ++ inlined ++ ")") := by
  rw [callEdit] at h
  obtain ⟨inlined, hinlined, h⟩ := exists_of_bind_eq_ok h
  split at h
  · cases h
  · cases h
    refine ⟨rfl, rfl, inlined, hinlined, ?_⟩
    rw [replace]
    dsimp only
    split
    · exact .inl rfl
    · exact .inr rfl

/-- The calls of the method on `this` are replaced one by one, and the declaration is cut out; there
is no other edit.  What else names the method outside its declaration is a method reference or a
call on another receiver, and stays. -/
theorem inlined_at_calls_on_this (hfits : t.fits source = true) (hbare : t.wordsBare = true)
    (h : rewrite d source t = .ok r) :
    ∃ (m : Inlinable source t) (ordered : List TextEdit) (content description : String)
      (shifts : List LineShift),
      r = .edit content shifts description ∧ Rewrites 0 source ordered content ∧ m.calls ≠ [] ∧
      (∀ call ∈ m.calls, ∃ e ∈ ordered, m.edit call = .ok e ∧ e.start = call.start ∧
        e.stop = call.stop) ∧
      (∃ e ∈ ordered, e.replacement = "" ∧ e.start ≤ m.method.start ∧ m.method.stop ≤ e.stop ∧
        ∀ e' ∈ ordered, e' = e ∨ ∃ call ∈ m.calls, m.edit call = .ok e') ∧
      ∀ use, (Node.root t).Holds use → Java.methodNamed? use source = some m.name →
        (use.start < m.method.start ∨ m.method.stop < use.stop) →
          use ∈ m.calls ∨ use.kind = .methodReference ∨
            ∃ receiver, use.childBy? .object = some receiver ∧ receiver.kind ≠ .thisRef := by
  obtain ⟨m, hfound, hsome⟩ := exists_inlinable h
  rw [m.rewrite_eq hfound hsome] at h
  obtain ⟨edits, hedits, h⟩ := exists_of_bind_eq_ok h
  obtain ⟨hfirst, hlast⟩ := Layout.removalSpan_covers m.held hfits
  have hedits := forall₂_of_mapM_eq_ok hedits
  obtain ⟨ordered, content, shifts, hr, horder, -, hrewrites⟩ := Rewrite.ofEdits_eq_ok h
  have hmem (e : TextEdit) : e ∈ ordered ↔ e ∈ edits ∨ e = m.removal := by
    rw [horder.mem_iff, List.mem_append, List.mem_singleton]
  refine ⟨m, ordered, content, m.description, shifts, hr, hrewrites, hsome, fun call hcall => ?_,
    ⟨m.removal, (hmem _).mpr (.inr rfl), rfl, hfirst, hlast, fun e he => ?_⟩,
    fun use huse hnamed hoff => m.use_cases hbare huse hnamed hoff⟩
  · obtain ⟨e, he, hedit⟩ := exists_of_forall₂ hedits hcall
    obtain ⟨hstart, hstop, -⟩ := callEdit_eq_ok hedit
    exact ⟨e, (hmem e).mpr (.inl he), hedit, hstart, hstop⟩
  · rcases (hmem e).mp he with he | rfl
    · exact .inr (exists_of_forall₂ hedits.flip he)
    · exact .inl rfl

end

/-! ## A call on another receiver -/

/-- A class with a static method that is called with and without the name of the class. -/
def twiceSource : String :=
  "class Calc \x7b\n    static int run(int a) \x7b\n        return twice(a) + Calc.twice(a);\n" ++
    "    \x7d\n\n    private static int twice(int x) \x7b\n        return x * 2;\n    \x7d\n\x7d\n"

/-- Its tree. -/
def twiceTree : Tree :=
  ⟨.program, none, false, 0, 157, [⟨.classDeclaration, none, false, 0, 156, [
    ⟨.token "class", none, false, 0, 5, []⟩, ⟨.identifier, some .name, false, 6, 10, []⟩,
    ⟨.classBody, some .body, false, 11, 156, [⟨.token "\x7b", none, false, 11, 12, []⟩,
    ⟨.methodDeclaration, none, false, 17, 87, [⟨.modifiers, none, false, 17, 23, [
    ⟨.token "static", none, false, 17, 23, []⟩]⟩, ⟨.integralType, some .type, false, 24, 27, [
    ⟨.token "int", none, false, 24, 27, []⟩]⟩, ⟨.identifier, some .name, false, 28, 31, []⟩,
    ⟨.formalParameters, some .parameters, false, 31, 38, [⟨.token "(", none, false, 31, 32, []⟩,
    ⟨.formalParameter, none, false, 32, 37, [⟨.integralType, some .type, false, 32, 35, [
    ⟨.token "int", none, false, 32, 35, []⟩]⟩, ⟨.identifier, some .name, false, 36, 37, []⟩]⟩,
    ⟨.token ")", none, false, 37, 38, []⟩]⟩, ⟨.block, some .body, false, 39, 87, [
    ⟨.token "\x7b", none, false, 39, 40, []⟩, ⟨.returnStatement, none, false, 49, 81, [
    ⟨.token "return", none, false, 49, 55, []⟩, ⟨.binaryExpression, none, false, 56, 80, [
    ⟨.methodInvocation, some .left, false, 56, 64, [⟨.identifier, some .name, false, 56, 61, []⟩,
    ⟨.argumentList, some .arguments, false, 61, 64, [⟨.token "(", none, false, 61, 62, []⟩,
    ⟨.identifier, none, false, 62, 63, []⟩, ⟨.token ")", none, false, 63, 64, []⟩]⟩]⟩,
    ⟨.token "+", some .operator, false, 65, 66, []⟩,
    ⟨.methodInvocation, some .right, false, 67, 80, [
    ⟨.identifier, some .object, false, 67, 71, []⟩, ⟨.token ".", none, false, 71, 72, []⟩,
    ⟨.identifier, some .name, false, 72, 77, []⟩,
    ⟨.argumentList, some .arguments, false, 77, 80, [⟨.token "(", none, false, 77, 78, []⟩,
    ⟨.identifier, none, false, 78, 79, []⟩, ⟨.token ")", none, false, 79, 80, []⟩]⟩]⟩]⟩,
    ⟨.token ";", none, false, 80, 81, []⟩]⟩, ⟨.token "\x7d", none, false, 86, 87, []⟩]⟩]⟩,
    ⟨.methodDeclaration, none, false, 93, 154, [⟨.modifiers, none, false, 93, 107, [
    ⟨.token "private", none, false, 93, 100, []⟩, ⟨.token "static", none, false, 101, 107, []⟩]⟩,
    ⟨.integralType, some .type, false, 108, 111, [⟨.token "int", none, false, 108, 111, []⟩]⟩,
    ⟨.identifier, some .name, false, 112, 117, []⟩,
    ⟨.formalParameters, some .parameters, false, 117, 124, [
    ⟨.token "(", none, false, 117, 118, []⟩, ⟨.formalParameter, none, false, 118, 123, [
    ⟨.integralType, some .type, false, 118, 121, [⟨.token "int", none, false, 118, 121, []⟩]⟩,
    ⟨.identifier, some .name, false, 122, 123, []⟩]⟩, ⟨.token ")", none, false, 123, 124, []⟩]⟩,
    ⟨.block, some .body, false, 125, 154, [⟨.token "\x7b", none, false, 125, 126, []⟩,
    ⟨.returnStatement, none, false, 135, 148, [⟨.token "return", none, false, 135, 141, []⟩,
    ⟨.binaryExpression, none, false, 142, 147, [⟨.identifier, some .left, false, 142, 143, []⟩,
    ⟨.token "*", some .operator, false, 144, 145, []⟩,
    ⟨.decimalIntegerLiteral, some .right, false, 146, 147, []⟩]⟩,
    ⟨.token ";", none, false, 147, 148, []⟩]⟩, ⟨.token "\x7d", none, false, 153, 154, []⟩]⟩]⟩,
    ⟨.token "\x7d", none, false, 155, 156, []⟩]⟩]⟩]⟩

/-- The record of the method as trivial. -/
def twiceDefect : Defect := { category := "lazy-method", file := ⟨"Calc.java"⟩, startLine := 6
                              element := some "twice" }

/-- The source without the method. -/
def twiceInlined : String :=
  "class Calc \x7b\n    static int run(int a) \x7b\n        return (a * 2) + Calc.twice(a);\n" ++
    "    \x7d\n\n\x7d\n"

theorem fits_twice : twiceTree.fits twiceSource = true := by decide +kernel

theorem wordsBare_twice : twiceTree.wordsBare = true := by decide +kernel

/-- The declaration of the method. -/
def twiceMethod : Node :=
  (Java.findMethod? (.root twiceTree) twiceSource (some "twice") 6).getD default

/-- Its expression. -/
def twiceExpression : Node × Bool := (singleExpression? twiceMethod).getD default

theorem checks_twice :
    (Java.findMethod? (.root twiceTree) twiceSource (some "twice") 6).isSome = true ∧
    (singleExpression? twiceMethod).isSome = true ∧ twiceMethod.kind = .methodDeclaration ∧
    Java.declaredName? twiceMethod twiceSource = some "twice" ∧
    Java.hasModifier twiceMethod twiceSource "private" = true ∧
    Java.parameters? twiceMethod twiceSource = some [("int", "x")] ∧
    (Java.localCalls twiceMethod twiceSource "twice").isEmpty = true := by
  decide +kernel

theorem findMethod?_twice :
    Java.findMethod? (.root twiceTree) twiceSource (some "twice") 6 = some twiceMethod :=
  eq_some_getD checks_twice.1

/-- The method can be inlined. -/
def twice : Inlinable twiceSource twiceTree where
  method := twiceMethod
  name := "twice"
  params := [("int", "x")]
  expression := twiceExpression.1
  isStatement := twiceExpression.2
  held := Java.holds_of_findMethod? findMethod?_twice
  kind := checks_twice.2.2.1
  named := checks_twice.2.2.2.1
  isPrivate := checks_twice.2.2.2.2.1
  parameters := checks_twice.2.2.2.2.2.1
  single := by
    rw [Prod.mk.eta]
    exact eq_some_getD checks_twice.2.1
  notRecursive := List.isEmpty_iff.mp checks_twice.2.2.2.2.2.2

theorem edits_twice : twice.calls.isEmpty = false ∧ (twice.calls.mapM twice.edit).toOption =
      some [.replace 56 64 "(a * 2)" "inline twice at line 3"] ∧
    twice.removal = .delete 89 155 "remove twice" ∧
    twice.description = "Inlined twice() at 1 call site(s)" := by
  decide +kernel

theorem rewrite_twice : rewrite twiceDefect twiceSource twiceTree =
    .ok (.edit twiceInlined [⟨8, -3⟩] "Inlined twice() at 1 call site(s)") := by
  obtain ⟨hcalls, hedits, hremoval, hdescription⟩ := edits_twice
  have hname : twiceDefect.elementName? = some "twice" := by decide +kernel
  have hfound : Java.findMethod? (.root twiceTree) twiceSource twiceDefect.elementName?
      twiceDefect.startLine = some twice.method := by
    rw [hname, show twiceDefect.startLine = 6 from rfl, findMethod?_twice, twice]
  have hcontent : Rewrite.ofEdits twiceSource
      [.replace 56 64 "(a * 2)" "inline twice at line 3", .delete 89 155 "remove twice"]
      "Inlined twice() at 1 call site(s)" =
        .ok (.edit twiceInlined [⟨8, -3⟩] "Inlined twice() at 1 call site(s)") := by
    refine Rewrite.ofEdits_of_apart (by decide +kernel) ?_ ?_ (by decide +kernel)
      (by decide +kernel)
    · simp only [Fits]
      decide +kernel
    · rw [Apart]
      decide +kernel
  rw [twice.rewrite_eq hfound (List.isEmpty_eq_false_iff.mp hcalls),
    EditSet.toOption_eq_some_iff.mp hedits, hremoval, hdescription]
  dsimp only [bind, Except.bind, List.cons_append, List.nil_append]
  exact hcontent

/-- The call without a receiver is replaced there, and the declaration cut out. -/
theorem inlined_at_calls_on_this_twice :
    ∃ (m : Inlinable twiceSource twiceTree) (ordered : List TextEdit),
      Rewrites 0 twiceSource ordered twiceInlined ∧ m.calls ≠ [] ∧
      (∀ call ∈ m.calls, ∃ e ∈ ordered, m.edit call = .ok e ∧ e.start = call.start ∧
        e.stop = call.stop) ∧
      ∃ e ∈ ordered, e.replacement = "" ∧ e.start ≤ m.method.start ∧ m.method.stop ≤ e.stop := by
  obtain ⟨m, ordered, content, description, shifts, hr, hrewrites, hsome, hcalls,
    ⟨e, he, hempty, hfirst, hlast, -⟩, -⟩ :=
    inlined_at_calls_on_this fits_twice wordsBare_twice rewrite_twice
  cases hr
  exact ⟨m, ordered, hrewrites, hsome, hcalls, e, he, hempty, hfirst, hlast⟩

/-- The call on the class is left behind. -/
theorem qualified_call_is_left :
    (∃ shifts description, rewrite twiceDefect twiceSource twiceTree =
      .ok (.edit twiceInlined shifts description)) ∧
    ∃ method use, Java.findMethod? (.root twiceTree) twiceSource (some "twice") 6 = some method ∧
      (Node.root twiceTree).Holds use ∧ Java.methodNamed? use twiceSource = some "twice" ∧
      use.stop ≤ method.start ∧ use.text twiceSource = "Calc.twice(a)" := by
  refine ⟨⟨_, _, rewrite_twice⟩, twiceMethod, ?_⟩
  have hfound : ((Node.root twiceTree).preorder.any fun use =>
      Java.methodNamed? use twiceSource = some "twice" && use.stop ≤ twiceMethod.start &&
        use.text twiceSource == "Calc.twice(a)") = true := by
    decide +kernel
  obtain ⟨use, huse, hall⟩ := List.any_eq_true.mp hfound
  simp only [Bool.and_eq_true, decide_eq_true_eq, beq_iff_eq] at hall
  exact ⟨use, findMethod?_twice, Node.holds_of_mem_visit huse, hall.1.1, hall.1.2, hall.2⟩

end Amend.Refactoring.Inline
