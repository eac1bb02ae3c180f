import Amend.Proofs.Java.Use
import Amend.Proofs.Refactoring.Rewrite
import Amend.Refactoring.ParameterObject
import Mathlib.Logic.Function.Basic

/-!
# Where the arguments of a call go

The constructor of a parameter class stores its parameters in the fields of their names, and the
method reads them back into variables of these names, so that its body starts with the variables
that it had.  The arguments are wrapped of all calls of the file with the name of the method and as
many arguments as it has parameters, as long as they are on `this`, said or not: whatever type a
call stands in, and whatever another receiver may be.
-/

namespace Amend.Refactoring.ParameterObject

open Syntax TextEdit EditSet

/-! ## The generated code -/

/-- The two sides between which the generated code copies. -/
inductive Side where
  | locals
  | fields
deriving DecidableEq

/-- The side that is copied from. -/
def Side.other : Side → Side
  | .locals => .fields
  | .fields => .locals

/-- The local variables and the fields that have a value. -/
abbrev Frame (V : Type) := Side → String → Option V

/-- A statement of the generated code: a parameter of the constructor goes to the field of its name,
or a field to a local variable of its name. -/
structure Copy where
  side : Side
  type : String
  name : String

namespace Copy

/-- The statement as it is written. -/
def text (c : Copy) : String :=
  match c.side with
  | .fields => "this." ++ c.name ++ " = " ++ c.name ++ ";"
  | .locals => c.type ++ " " ++ c.name ++ " = params." ++ c.name ++ ";"

/-- What the statement does. -/
def run {V : Type} (f : Frame V) (c : Copy) : Frame V :=
  Function.update f c.side (Function.update (f c.side) c.name (f c.side.other c.name))

end Copy

/-- The statements that copy all parameters. -/
def copies (side : Side) (params : List (String × String)) : List Copy :=
  params.map fun p => ⟨side, p.1, p.2⟩

section

variable {params : List (String × String)} {memberIndent className : String} {style : IndentStyle}

theorem unpackFields_eq : unpackFields params memberIndent style =
    .join ((copies .locals params).map fun c => "\n" ++ style.deeper memberIndent ++ c.text) := by
  rw [unpackFields, copies, List.map_map]
  refine congrArg _ (List.map_congr_left fun p _ => ?_)
  simp only [Function.comp_apply, Copy.text, String.append_assoc]

/-- The constructor takes the parameters as the method did, and stores them. -/
theorem parameterClass_eq : parameterClass className params memberIndent style =
    memberIndent ++ "static final class " ++ className ++ " \x7b\n" ++
      .join (params.map fun p =>
        style.deeper memberIndent ++ "final " ++ p.1 ++ " " ++ p.2 ++ ";\n") ++
      "\n" ++ style.deeper memberIndent ++ className ++ "(" ++ signature params ++ ") \x7b\n" ++
      .join ((copies .fields params).map fun c =>
        style.deeper (style.deeper memberIndent) ++ c.text ++ "\n") ++
      style.deeper memberIndent ++ "\x7d\n" ++ memberIndent ++ "\x7d" := by
  have hstored : (copies .fields params).map (fun c =>
      style.deeper (style.deeper memberIndent) ++ c.text ++ "\n") = params.map fun p =>
        style.deeper (style.deeper memberIndent) ++ "this." ++ p.2 ++ " = " ++ p.2 ++ ";\n" := by
    rw [copies, List.map_map]
    refine List.map_congr_left fun p _ => ?_
    have hend : ";" ++ "\n" = ";\n" := rfl
    simp only [Function.comp_apply, Copy.text, String.append_assoc, hend]
  rw [hstored]
  rfl

variable {V : Type}

/-- The variables that parameters are when they are called with some values. -/
def bound (params : List (String × String)) (values : List V) (name : String) : Option V :=
  ((params.map (·.2)).zip values).lookup name

/-- The fields that the constructor leaves when it is called with some values. -/
def construct (params : List (String × String)) (values : List V) : String → Option V :=
  (copies .fields params).foldl Copy.run
    (fun | .locals => bound params values | .fields => fun _ => none) .fields

/-- The variables at the top of the method when the object has some fields. -/
def unpack (params : List (String × String)) (fields : String → Option V) : String → Option V :=
  (copies .locals params).foldl Copy.run
    (fun | .locals => fun _ => none | .fields => fields) .locals

/-- The copies bring the parameters from one side to the other, and nothing else. -/
theorem foldl_copies (f : Frame V) (side : Side) : (copies side params).foldl Copy.run f =
    Function.update f side fun x =>
      if x ∈ params.map (·.2) then f side.other x else f side x := by
  induction params generalizing f with
  | nil => simp [copies]
  | cons p params ih =>
    have hother : side.other ≠ side := by cases side <;> decide
    have hrest := ih (Copy.run f ⟨side, p.1, p.2⟩)
    rw [copies] at hrest ⊢
    rw [List.map_cons, List.foldl_cons, hrest]
    simp only [Copy.run, Function.update_idem, Function.update_self,
      Function.update_of_ne hother]
    congr 1
    funext x
    rw [List.map_cons]
    by_cases hx : x = p.2
    · simp [hx]
    · rw [Function.update_of_ne hx]
      simp only [List.mem_cons, hx, false_or]

theorem bound_eq_none {values : List V} {x : String} (hx : x ∉ params.map (·.2)) :
    bound params values x = none := by
  rw [bound, List.lookup_eq_none_iff]
  rintro ⟨y, v⟩ hmem
  have hy := (List.of_mem_zip hmem).1
  simp only [bne_iff_ne, ne_eq]
  rintro rfl
  exact hx hy

/-- The body of the method starts with the variables that the call would have bound. -/
theorem unpack_construct (params : List (String × String)) (values : List V) :
    unpack params (construct params values) = bound params values := by
  funext x
  rw [unpack, construct, foldl_copies, foldl_copies, Function.update_self, Function.update_self]
  by_cases hx : x ∈ params.map (·.2)
  · simp only [if_pos hx, Side.other]
  · simp only [if_neg hx, bound_eq_none hx]

/-- Of parameters with different names each is bound to the value in its place. -/
theorem bound_getElem {values : List V} (hnames : (params.map (·.2)).Nodup) {i : Nat}
    (hi : i < params.length) (hi' : i < values.length) :
    bound params values params[i].2 = some values[i] := by
  induction params generalizing values i with
  | nil => cases hi
  | cons p params ih =>
    cases values with
    | nil => cases hi'
    | cons v values =>
      rw [List.map_cons, List.nodup_cons] at hnames
      rw [bound, List.map_cons, List.zip_cons_cons]
      cases i with
      | zero => exact List.lookup_cons_self
      | succ i =>
        have hi : i < params.length := Nat.lt_of_succ_lt_succ hi
        have hne : params[i].2 ≠ p.2 := fun heq =>
          hnames.1 (heq ▸ List.mem_map_of_mem (List.getElem_mem _))
        rw [List.getElem_cons_succ, List.getElem_cons_succ, List.lookup_cons,
          beq_eq_false_iff_ne.mpr hne]
        exact ih hnames.2 hi (Nat.lt_of_succ_lt_succ hi')

end

/-! ## The calls that are wrapped -/

/-- A method whose parameters are bundled: a method with a body, in a class that has no other of its
name, with more parameters than the limit, none of them of the name that the object gets. -/
structure Bundling (limit : Nat) (d : Defect) (source : String) (t : Tree) where
  method : Node
  name : String
  params : List (String × String)
  body : Node
  classBody : Node
  list : Node
  found : Java.findMethod? (.root t) source d.elementName? d.startLine = some method
  isMethod : method.kind = .methodDeclaration
  named : Java.declaredName? method source = some name
  parameters : Java.parameters? method source = some params
  many : limit < params.length
  hasBody : method.childBy? .body = some body
  inClass : Java.enclosingClassBody? method = some classBody
  free : params.any (·.2 = "params") = false
  single : ((Java.callables classBody).filter fun m =>
    Java.declaredName? m source = some name).length ≤ 1
  hasList : method.childBy? .parameters = some list

/-- The argument list of a call. -/
def argumentList (call : Node) : Node := (call.childBy? .arguments).getD call

namespace Bundling

variable {limit : Nat} {d : Defect} {source : String} {t : Tree} (b : Bundling limit d source t)

def className : String :=
  Java.uniqueName (Java.toPascalCase b.name ++ "Params") (Java.memberNames b.classBody source)

def memberIndent : String := (Text.lineIndent? source b.method.start).getD ""

/-- The calls of the file with the method's name and as many arguments as it has parameters, on
`this` or without a receiver. -/
def calls : List Node :=
  (Java.localCalls (.root t) source b.name).filter fun call =>
    (Java.callArguments call).length = b.params.length

/-- The argument list that passes an object. -/
def wrapped (call : Node) : String :=
  "(new " ++ b.className ++ "(" ++
    ", ".intercalate ((Java.callArguments call).map (·.text source)) ++ "))"

/-- The edit of a call. -/
def wrapEdit (call : Node) : TextEdit :=
  .replace (argumentList call).start (argumentList call).stop (b.wrapped call)
    ("wrap arguments at line " ++ toString (call.firstLine source))

/-- The edits of the method: its signature, the top of its body, and the class behind it. -/
def methodEdits : List TextEdit :=
  [.replace b.list.start b.list.stop ("(" ++ b.className ++ " params)") "replace parameter list",
    .insert (b.body.start + 1) (unpackFields b.params b.memberIndent (.infer source))
      "unpack parameter object",
    .insert b.method.stop
      ("\n\n" ++ parameterClass b.className b.params b.memberIndent (.infer source))
      ("declare " ++ b.className)]

def description : String :=
  "Introduced " ++ b.className ++ " for " ++ b.name ++ " (" ++ toString b.params.length ++
    " parameters, " ++ toString b.calls.length ++ " call site(s))"

/-- A call that has arguments has an argument list. -/
theorem childBy?_arguments {call : Node}
    (h : (Java.callArguments call).length = b.params.length) :
    call.childBy? .arguments = some (argumentList call) := by
  cases hlist : call.childBy? .arguments with
  | none =>
    have hmany := b.many
    rw [← h, Java.callArguments, hlist] at hmany
    cases hmany
  | some list => rw [argumentList, hlist, Option.getD_some]

/-- The calls with the right number of arguments are edited, and no other one is. -/
theorem callEdit?_eq (call : Node) : callEdit? source b.className b.params.length call =
    if (Java.callArguments call).length = b.params.length then some (b.wrapEdit call) else none := by
  rw [callEdit?]
  by_cases hlength : (Java.callArguments call).length = b.params.length
  · rw [if_neg (not_not_intro hlength), b.childBy?_arguments hlength, if_pos hlength]
    rfl
  · rw [if_pos hlength, if_neg hlength]
    rfl

theorem filterMap_callEdit? : (Java.localCalls (.root t) source b.name).filterMap
    (callEdit? source b.className b.params.length) = b.calls.map b.wrapEdit := by
  rw [calls, ← List.filterMap_eq_map, List.filterMap_filter]
  refine List.filterMap_congr fun call _ => ?_
  rw [callEdit?_eq]
  simp

theorem mem_calls_iff (hbare : t.wordsBare = true) {call : Node} : call ∈ b.calls ↔
    (Node.root t).Holds call ∧ call.kind = .methodInvocation ∧
      Java.declaredName? call source = some b.name ∧
      (∀ receiver, call.childBy? .object = some receiver → receiver.kind = .thisRef) ∧
      (Java.callArguments call).length = b.params.length := by
  rw [calls, List.mem_filter, Java.mem_localCalls_iff hbare, decide_eq_true_eq]
  simp only [and_assoc]

end Bundling

section

variable {limit : Nat} {d : Defect} {source : String} {t : Tree} {r : Rewrite}

/-- A method whose parameters can be bundled is edited with its calls. -/
theorem Bundling.rewrite_eq (b : Bundling limit d source t) : rewrite limit d source t =
    Rewrite.ofEdits source (b.methodEdits ++ b.calls.map b.wrapEdit) b.description := by
  have hcalls := b.filterMap_callEdit?
  rw [className] at hcalls
  rw [rewrite, b.found]
  dsimp only
  rw [if_neg (not_not_intro b.isMethod), b.named, b.parameters]
  dsimp only
  rw [if_neg (Nat.not_le_of_lt b.many), b.hasBody, b.inClass]
  dsimp only
  rw [b.free, if_neg Bool.false_ne_true, if_neg (Nat.not_lt_of_le b.single), b.hasList]
  dsimp only
  rw [hcalls, List.length_map]
  rfl

/-- A rewrite bundles the parameters of a method. -/
theorem exists_bundling (h : rewrite limit d source t = .ok r) :
    ∃ b : Bundling limit d source t,
      Rewrite.ofEdits source (b.methodEdits ++ b.calls.map b.wrapEdit) b.description = .ok r := by
  have hrewrite := h
  rw [rewrite] at h
  dsimp only at h
  split at h
  · next method hfound =>
    obtain ⟨hkind, h⟩ := passed_of_eq_ok h
    split at h
    · next name hname =>
      split at h
      · next params hparams =>
        obtain ⟨hmany, h⟩ := passed_of_eq_ok h
        split at h
        · next body hbody =>
          split at h
          · next classBody hclass =>
            obtain ⟨hfree, h⟩ := passed_of_eq_ok h
            obtain ⟨hsingle, h⟩ := passed_of_eq_ok h
            split at h
            · next list hlist =>
              let b : Bundling limit d source t :=
                ⟨method, name, params, body, classBody, list, hfound, not_not.mp hkind, hname,
                  hparams, Nat.lt_of_not_le hmany, hbody, hclass,
                  Bool.eq_false_of_not_eq_true hfree, Nat.le_of_not_lt hsingle, hlist⟩
              exact ⟨b, b.rewrite_eq.symm.trans hrewrite⟩
            · cases h
          · cases h
        · cases h
      · cases h
    · cases h
  · cases h

/-- In the new content an argument list that passes an object stands in the place of the argument
list of a call, behind what the edits make of the text before it and ahead of what they make of the
text behind it. -/
def Bundling.Wraps (b : Bundling limit d source t) (ordered : List TextEdit) (content : String)
    (call : Node) : Prop :=
  ∃ ahead behind y x y' x', ordered = ahead ++ b.wrapEdit call :: behind ∧
    source = y ++ (argumentList call).text source ++ x ∧
    y.utf8ByteSize = (argumentList call).start ∧ content = y' ++ b.wrapped call ++ x' ∧
    Rewrites 0 y ahead y' ∧ Rewrites (argumentList call).stop x behind x'

theorem Bundling.wraps_of_mem (b : Bundling limit d source t) {ordered : List TextEdit}
    {content : String} {call : Node} (hrewrites : Rewrites 0 source ordered content)
    (hmem : b.wrapEdit call ∈ ordered) : b.Wraps ordered content call := by
  obtain ⟨ahead, behind, y, removed, x, y', x', hordered, hsource, hstart, hstop, hcontent, hahead,
    hbehind⟩ := hrewrites.of_mem hmem
  rw [Nat.zero_add] at hstart
  have hslice : Text.slice? source (argumentList call).start (argumentList call).stop =
      some removed := Text.slice?_eq_some_iff.mpr ⟨y, x, hsource, hstart, hstop⟩
  have htext : (argumentList call).text source = removed := by
    rw [Node.text, Text.sliceD, hslice, Option.getD_some]
  exact ⟨ahead, behind, y, x, y', x', hordered, htext ▸ hsource, hstart, hcontent, hahead, hbehind⟩

/-- The arguments are wrapped of the calls with the method's name and number of parameters that are
on `this`, said or not, wherever in the file they stand, and of no other call; besides, only the
method is edited.  The object carries the arguments to the variables that the call bound, each to
the parameter in its place. -/
theorem wrapped_on_this (hbare : t.wordsBare = true) (h : rewrite limit d source t = .ok r) :
    ∃ (b : Bundling limit d source t) (ordered : List TextEdit) (content : String)
      (shifts : List LineShift), r = .edit content shifts b.description ∧
      Rewrites 0 source ordered content ∧
      (∀ e, e ∈ ordered ↔ e ∈ b.methodEdits ∨ ∃ call ∈ b.calls, b.wrapEdit call = e) ∧
      (∀ call, call ∈ b.calls ↔ (Node.root t).Holds call ∧ call.kind = .methodInvocation ∧
        Java.declaredName? call source = some b.name ∧
        (∀ receiver, call.childBy? .object = some receiver → receiver.kind = .thisRef) ∧
        (Java.callArguments call).length = b.params.length) ∧
      (∀ call ∈ b.calls, call.childBy? .arguments = some (argumentList call) ∧
        b.Wraps ordered content call) ∧
      ∀ {V : Type} (values : List V),
        unpack b.params (construct b.params values) = bound b.params values ∧
        ((b.params.map (·.2)).Nodup → ∀ i (hi : i < b.params.length) (hi' : i < values.length),
          bound b.params values b.params[i].2 = some values[i]) := by
  obtain ⟨b, hedits⟩ := exists_bundling h
  obtain ⟨ordered, content, shifts, hr, horder, -, hrewrites⟩ := Rewrite.ofEdits_eq_ok hedits
  have hmem (e : TextEdit) :
      e ∈ ordered ↔ e ∈ b.methodEdits ∨ ∃ call ∈ b.calls, b.wrapEdit call = e := by
    rw [horder.mem_iff, List.mem_append, List.mem_map]
  refine ⟨b, ordered, content, shifts, hr, hrewrites, hmem, fun call => b.mem_calls_iff hbare,
    fun call hcall => ⟨?_, ?_⟩, fun values =>
      ⟨unpack_construct b.params values, fun hnames i hi hi' => bound_getElem hnames hi hi'⟩⟩
  · exact b.childBy?_arguments (of_decide_eq_true (List.mem_filter.mp hcall).2)
  · exact b.wraps_of_mem hrewrites ((hmem _).mpr (.inr ⟨call, hcall, rfl⟩))

end

/-! ## Two types with a method of one name -/

/-- Two types with a method of one name; the first calls it on another instance.  The parameter list
of the first method, the top of its body, what stands behind it, and the arguments in the other type
can be put in. -/
def twinText (list top behind arguments : String) : String :=
  "class A \x7b\n    int f" ++ list ++ (" \x7b" ++ top ++ (" return a; \x7d" ++ behind ++
    ("\n    int g(A o) \x7b return o.f(1); \x7d\n\x7d\nclass B \x7b\n" ++
      "    int f(int b) \x7b return b; \x7d\n    int g() \x7b return f" ++ arguments ++
      "; \x7d\n\x7d\n")))

def twinSource : String := twinText "(int a)" "" "" "(2)"

/-- Its tree. -/
def twinTree : Tree :=
  ⟨.program, none, false, 0, 149, [⟨.classDeclaration, none, false, 0, 76, [
    ⟨.token "class", none, false, 0, 5, []⟩, ⟨.identifier, some .name, false, 6, 7, []⟩,
    ⟨.classBody, some .body, false, 8, 76, [⟨.token "\x7b", none, false, 8, 9, []⟩,
    ⟨.methodDeclaration, none, false, 14, 40, [⟨.integralType, some .type, false, 14, 17, [
    ⟨.token "int", none, false, 14, 17, []⟩]⟩, ⟨.identifier, some .name, false, 18, 19, []⟩,
    ⟨.formalParameters, some .parameters, false, 19, 26, [⟨.token "(", none, false, 19, 20, []⟩,
    ⟨.formalParameter, none, false, 20, 25, [⟨.integralType, some .type, false, 20, 23, [
    ⟨.token "int", none, false, 20, 23, []⟩]⟩, ⟨.identifier, some .name, false, 24, 25, []⟩]⟩,
    ⟨.token ")", none, false, 25, 26, []⟩]⟩, ⟨.block, some .body, false, 27, 40, [
    ⟨.token "\x7b", none, false, 27, 28, []⟩, ⟨.returnStatement, none, false, 29, 38, [
    ⟨.token "return", none, false, 29, 35, []⟩, ⟨.identifier, none, false, 36, 37, []⟩,
    ⟨.token ";", none, false, 37, 38, []⟩]⟩, ⟨.token "\x7d", none, false, 39, 40, []⟩]⟩]⟩,
    ⟨.methodDeclaration, none, false, 45, 74, [⟨.integralType, some .type, false, 45, 48, [
    ⟨.token "int", none, false, 45, 48, []⟩]⟩, ⟨.identifier, some .name, false, 49, 50, []⟩,
    ⟨.formalParameters, some .parameters, false, 50, 55, [⟨.token "(", none, false, 50, 51, []⟩,
    ⟨.formalParameter, none, false, 51, 54, [⟨.typeIdentifier, some .type, false, 51, 52, []⟩,
    ⟨.identifier, some .name, false, 53, 54, []⟩]⟩, ⟨.token ")", none, false, 54, 55, []⟩]⟩,
    ⟨.block, some .body, false, 56, 74, [⟨.token "\x7b", none, false, 56, 57, []⟩,
    ⟨.returnStatement, none, false, 58, 72, [⟨.token "return", none, false, 58, 64, []⟩,
    ⟨.methodInvocation, none, false, 65, 71, [⟨.identifier, some .object, false, 65, 66, []⟩,
    ⟨.token ".", none, false, 66, 67, []⟩, ⟨.identifier, some .name, false, 67, 68, []⟩,
    ⟨.argumentList, some .arguments, false, 68, 71, [⟨.token "(", none, false, 68, 69, []⟩,
    ⟨.decimalIntegerLiteral, none, false, 69, 70, []⟩, ⟨.token ")", none, false, 70, 71, []⟩]⟩]⟩,
    ⟨.token ";", none, false, 71, 72, []⟩]⟩, ⟨.token "\x7d", none, false, 73, 74, []⟩]⟩]⟩,
    ⟨.token "\x7d", none, false, 75, 76, []⟩]⟩]⟩, ⟨.classDeclaration, none, false, 77, 148, [
    ⟨.token "class", none, false, 77, 82, []⟩, ⟨.identifier, some .name, false, 83, 84, []⟩,
    ⟨.classBody, some .body, false, 85, 148, [⟨.token "\x7b", none, false, 85, 86, []⟩,
    ⟨.methodDeclaration, none, false, 91, 117, [⟨.integralType, some .type, false, 91, 94, [
    ⟨.token "int", none, false, 91, 94, []⟩]⟩, ⟨.identifier, some .name, false, 95, 96, []⟩,
    ⟨.formalParameters, some .parameters, false, 96, 103, [⟨.token "(", none, false, 96, 97, []⟩,
    ⟨.formalParameter, none, false, 97, 102, [⟨.integralType, some .type, false, 97, 100, [
    ⟨.token "int", none, false, 97, 100, []⟩]⟩, ⟨.identifier, some .name, false, 101, 102, []⟩]⟩,
    ⟨.token ")", none, false, 102, 103, []⟩]⟩, ⟨.block, some .body, false, 104, 117, [
    ⟨.token "\x7b", none, false, 104, 105, []⟩, ⟨.returnStatement, none, false, 106, 115, [
    ⟨.token "return", none, false, 106, 112, []⟩, ⟨.identifier, none, false, 113, 114, []⟩,
    ⟨.token ";", none, false, 114, 115, []⟩]⟩, ⟨.token "\x7d", none, false, 116, 117, []⟩]⟩]⟩,
    ⟨.methodDeclaration, none, false, 122, 146, [⟨.integralType, some .type, false, 122, 125, [
    ⟨.token "int", none, false, 122, 125, []⟩]⟩, ⟨.identifier, some .name, false, 126, 127, []⟩,
    ⟨.formalParameters, some .parameters, false, 127, 129, [⟨.token "(", none, false, 127, 128, []⟩,
    ⟨.token ")", none, false, 128, 129, []⟩]⟩, ⟨.block, some .body, false, 130, 146, [
    ⟨.token "\x7b", none, false, 130, 131, []⟩, ⟨.returnStatement, none, false, 132, 144, [
    ⟨.token "return", none, false, 132, 138, []⟩, ⟨.methodInvocation, none, false, 139, 143, [
    ⟨.identifier, some .name, false, 139, 140, []⟩,
    ⟨.argumentList, some .arguments, false, 140, 143, [⟨.token "(", none, false, 140, 141, []⟩,
    ⟨.decimalIntegerLiteral, none, false, 141, 142, []⟩,
    ⟨.token ")", none, false, 142, 143, []⟩]⟩]⟩, ⟨.token ";", none, false, 143, 144, []⟩]⟩,
    ⟨.token "\x7d", none, false, 145, 146, []⟩]⟩]⟩, ⟨.token "\x7d", none, false, 147, 148, []⟩]⟩]⟩]⟩

/-- The record of the first method. -/
def twinDefect : Defect := { category := "long-parameter-list", file := ⟨"A.java"⟩, startLine := 2
                             element := some "f" }

/-- The first method, with its parts. -/
def twinMethod : Node := (Java.findMethod? (.root twinTree) twinSource (some "f") 2).getD default

def twinBody : Node := (twinMethod.childBy? .body).getD default

def twinClassBody : Node := (Java.enclosingClassBody? twinMethod).getD default

def twinList : Node := (twinMethod.childBy? .parameters).getD default

theorem checks_twin :
    (Java.findMethod? (.root twinTree) twinSource (some "f") 2).isSome = true ∧
    (twinMethod.childBy? .body).isSome = true ∧
    (Java.enclosingClassBody? twinMethod).isSome = true ∧
    (twinMethod.childBy? .parameters).isSome = true := by
  decide +kernel

/-- Its parameter can be bundled where no parameter is allowed. -/
def twin : Bundling 0 twinDefect twinSource twinTree where
  method := twinMethod
  name := "f"
  params := [("int", "a")]
  body := twinBody
  classBody := twinClassBody
  list := twinList
  found := by
    rw [show twinDefect.elementName? = some "f" by decide +kernel]
    exact eq_some_getD checks_twin.1
  isMethod := by decide +kernel
  named := by decide +kernel
  parameters := by decide +kernel
  many := by decide
  hasBody := eq_some_getD checks_twin.2.1
  inClass := eq_some_getD checks_twin.2.2.1
  free := by decide +kernel
  single := by decide +kernel
  hasList := eq_some_getD checks_twin.2.2.2

/-- The nested class. -/
def twinClass : String :=
  "\n\n    static final class FParams \x7b\n        final int a;\n\n        FParams(int a) \x7b\n" ++
    "            this.a = a;\n        \x7d\n    \x7d"

/-- The edits. -/
def twinEdits : List TextEdit :=
  [.replace 19 26 "(FParams params)" "replace parameter list",
    .insert 28 "\n        int a = params.a;" "unpack parameter object",
    .insert 40 twinClass "declare FParams",
    .replace 140 143 "(new FParams(2))" "wrap arguments at line 7"]

theorem edits_twin : twin.methodEdits ++ twin.calls.map twin.wrapEdit = twinEdits := by
  have hindent : twin.memberIndent = "    " := by decide +kernel
  have hstyle : IndentStyle.infer twinSource = .spaces 4 := by decide +kernel
  rw [Bundling.methodEdits, hindent, hstyle]
  decide +kernel

theorem applyTo?_twin : applyTo? ⟨twinEdits⟩ twinSource = some
    (twinText "(FParams params)" "\n        int a = params.a;" twinClass "(new FParams(2))") := by
  have hrewrites : Rewrites 0 twinSource twinEdits
      (twinText "(FParams params)" "\n        int a = params.a;" twinClass "(new FParams(2))") :=
    .edit rfl rfl (.edit rfl rfl (.edit rfl rfl (.edit rfl rfl (.done _ _))))
  simpa using hrewrites.applyTo?_eq (a := "") rfl

/-- The call on another instance stays, and the call of the other type is wrapped. -/
theorem other_type_is_wrapped_twin : twinTree.wordsBare = true ∧
    rewrite 0 twinDefect twinSource twinTree = .ok (.edit
      (twinText "(FParams params)" "\n        int a = params.a;" twinClass "(new FParams(2))")
      [⟨2, 1⟩, ⟨2, 8⟩] twin.description) := by
  refine ⟨by decide +kernel, ?_⟩
  rw [twin.rewrite_eq, edits_twin]
  refine Rewrite.ofEdits_of_apart (by decide +kernel) ?_ ?_ applyTo?_twin (by decide +kernel)
  · simp only [Fits]
    decide +kernel
  · rw [Apart]
    decide +kernel

end Amend.Refactoring.ParameterObject
