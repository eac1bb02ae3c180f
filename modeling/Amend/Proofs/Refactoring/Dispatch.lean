import Amend.Proofs.Refactoring.Rewrite
import Amend.Refactoring.Dispatch
import Mathlib.Data.List.Flatten
import Mathlib.Data.List.Nodup

/-!
# What a dispatch table selects

For a value that a case lists, a switch runs the first statement from that case on; for any other
value it runs the first one from its default on.  The cases are read with the labels that are ahead
of a statement, however many cases they are spread over, and what is read selects the same
statement: the arm that lists the value, or else the default.
-/

namespace Amend.Refactoring.Dispatch

open Syntax

/-! ## What a switch runs -/

/-- The cases of a switch. -/
def casesOf (switch : Node) : List Node := ((switch.childBy? .body).map (·.parts)).getD []

/-- The labels of a case. -/
def labels (group : Node) : List Node := group.parts.filter (·.kind = .switchLabel)

/-- The statements of a case. -/
def statements (group : Node) : List Node := group.parts.filter (·.kind ≠ .switchLabel)

/-- What a label stands for: the keys of its values, or `none` for the default. -/
def marks (source selectorType : String) (label : Node) : List (Option String) :=
  match label.parts with
  | [] => [none]
  | values => values.map fun v => some (mapKey v source selectorType)

/-- What the labels of a case stand for. -/
def groupMarks (source selectorType : String) (group : Node) : List (Option String) :=
  (labels group).flatMap (marks source selectorType)

/-- The statement that is run from the first of some cases on. -/
def firstStatement? (groups : List Node) : Option Node := (groups.flatMap statements).head?

section Semantics

variable {V : Type} [DecidableEq V] (source selectorType : String) (means : String → V)

/-- Whether a case is labelled with a selector value, or as the default. -/
def carries (mark : Option V) (group : Node) : Bool :=
  (groupMarks source selectorType group).any fun k => k.map means = mark

/-- The statement that is run from the case with a label on. -/
def runFrom? (mark : Option V) (groups : List Node) : Option Node :=
  firstStatement? (groups.dropWhile fun g => !carries source selectorType means mark g)

/-- The statement that a switch runs for a selector value: from the case that lists it, through
cases without statements, or from the default if no case does. -/
def selected? (groups : List Node) (v : V) : Option Node :=
  if groups.any (carries source selectorType means (some v)) then
    runFrom? source selectorType means (some v) groups
  else runFrom? source selectorType means none groups

/-- No two labels of some cases are for the same value or both the default. -/
def DistinctLabels (groups : List Node) : Prop :=
  ((groups.flatMap (groupMarks source selectorType)).map (·.map means)).Nodup

end Semantics

/-! ## Statements with the labels that lead to them -/

/-- A statement with the cases whose labels lead to it: its own, and those without statements right
ahead. -/
structure Branch where
  groups : List Node
  statement : Node

/-- The branches of some cases, `above` being the cases without statements ahead of them. -/
def branchesFrom (above : List Node) : List Node → List Branch
  | [] => []
  | g :: gs =>
    match statements g with
    | [] => branchesFrom (above ++ [g]) gs
    | s :: _ => ⟨above ++ [g], s⟩ :: branchesFrom [] gs

section Branches

variable {above groups : List Node} {p : Node → Bool}

theorem head?_branchesFrom :
    (branchesFrom above groups).head?.map (·.statement) = firstStatement? groups := by
  rw [firstStatement?]
  fun_induction branchesFrom above groups with
  | case1 => rfl
  | case2 above g gs hnone ih => rw [ih, List.flatMap_cons, hnone, List.nil_append]
  | case3 above g gs s rest hsome ih => rw [List.flatMap_cons, hsome]; rfl

/-- A case ahead leads to the first branch. -/
theorem find?_branchesFrom_of_above (h : above.any p = true) :
    (branchesFrom above groups).find? (·.groups.any p) = (branchesFrom above groups).head? := by
  fun_induction branchesFrom above groups with
  | case1 => rfl
  | case2 above g gs hnone ih => exact ih (by rw [List.any_append, h, Bool.true_or])
  | case3 above g gs s rest hsome ih =>
    exact List.find?_cons_of_pos (by rw [List.any_append, h, Bool.true_or])

/-- The statement run from a case on is that of the branch of the case. -/
theorem firstStatement?_dropWhile (h : above.any p = false) :
    firstStatement? (groups.dropWhile fun g => !p g) =
      ((branchesFrom above groups).find? (·.groups.any p)).map (·.statement) := by
  fun_induction branchesFrom above groups with
  | case1 => rfl
  | case2 above g gs hnone ih =>
    cases hp : p g with
    | true =>
      rw [List.dropWhile_cons_of_neg (by simp [hp]), find?_branchesFrom_of_above (by simp [hp]),
        head?_branchesFrom, firstStatement?, List.flatMap_cons, hnone, List.nil_append,
        firstStatement?]
    | false =>
      rw [List.dropWhile_cons_of_pos (by simp [hp])]
      exact ih (by simp [h, hp])
  | case3 above g gs s rest hsome ih =>
    cases hp : p g with
    | true =>
      rw [List.dropWhile_cons_of_neg (by simp [hp]), List.find?_cons_of_pos (by simp [hp]),
        firstStatement?, List.flatMap_cons, hsome]
      rfl
    | false =>
      rw [List.dropWhile_cons_of_pos (by simp [hp]), List.find?_cons_of_neg (by simp [h, hp])]
      exact ih rfl

/-- If the last case has a statement, every case leads to a branch. -/
theorem flatMap_groups_branchesFrom (hne : groups ≠ [] ∨ above = [])
    (hlast : ∀ g ∈ groups.getLast?, statements g ≠ []) :
    (branchesFrom above groups).flatMap (·.groups) = above ++ groups := by
  fun_induction branchesFrom above groups with
  | case1 above => simp_all
  | case2 above g gs hnone ih =>
    have hmore : gs ≠ [] := by
      rintro rfl
      exact hlast g rfl hnone
    rw [ih (.inl hmore), List.append_assoc, List.singleton_append]
    intro x hx
    refine hlast x ?_
    rwa [List.getLast?_cons_of_ne_nil hmore]
  | case3 above g gs s rest hsome ih =>
    rw [List.flatMap_cons, ih (.inr rfl), List.nil_append, List.append_assoc,
      List.singleton_append]
    intro x hx
    refine hlast x ?_
    cases gs with
    | nil => cases hx
    | cons g' gs => exact hx

end Branches

namespace Branch

variable (source selectorType : String)

/-- The labels that lead to the statement. -/
def marks (b : Branch) : List (Option String) :=
  b.groups.flatMap (groupMarks source selectorType)

/-- The keys among them. -/
def keys (b : Branch) : List String := (b.marks source selectorType).filterMap id

/-- Whether the default is among them. -/
def isDefault (b : Branch) : Bool := (b.marks source selectorType).any (·.isNone)

/-- The arm for the branch, if its statement returns something: of what stands in the statement and
is no token, the first. -/
def arm (b : Branch) : Arm :=
  ⟨b.keys source selectorType, ((b.statement.namedChildren.head?).map (·.text source)).getD ""⟩

end Branch

/-! ## What is read -/

/-- A reading with more labels pending. -/
def Reading.under (r : Reading) (ms : List (Option String)) : Reading :=
  { r with
    pending := r.pending ++ ms.filterMap id
    pendingDefault := r.pendingDefault || ms.any (·.isNone) }

section Reading

variable {source selectorType : String} {r r' : Reading} {above groups : List Node} {s g : Node}

theorem Reading.under_append (ms ms' : List (Option String)) :
    (r.under ms).under ms' = r.under (ms ++ ms') := by
  simp [Reading.under, Bool.or_assoc]

theorem addLabel_eq (label : Node) :
    r.addLabel label source selectorType = r.under (marks source selectorType label) := by
  rw [Reading.addLabel, marks]
  cases label.parts with
  | nil => simp [Reading.under]
  | cons v vs => simp [Reading.under, Function.comp_def]

/-- The labels of a case are put to those that are pending. -/
theorem foldl_addLabel (ls : List Node) :
    ls.foldl (fun r l => r.addLabel l source selectorType) r =
      r.under (ls.flatMap (marks source selectorType)) := by
  induction ls generalizing r with
  | nil => simp [Reading.under]
  | cons l ls ih => rw [List.foldl_cons, ih, addLabel_eq, Reading.under_append, List.flatMap_cons]

/-- A statement ends what is pending: it makes an arm with the pending labels, or the default. -/
theorem addStatement_eq_ok (h : r.addStatement s source = .ok r') :
    (r.pendingDefault = true ∧ s.isOneOf [.returnStatement, .throwStatement] = true ∧
      r' = { r with
        default := some (s.text source), pending := [], pendingDefault := false }) ∨
    (r.pendingDefault = false ∧ s.kind = .returnStatement ∧ ∃ v,
      s.namedChildren.head? = some v ∧
      r' = { r with arms := r.arms ++ [⟨r.pending, v.text source⟩], pending := [] }) := by
  rw [Reading.addStatement] at h
  split at h
  · next hdefault =>
    split at h
    · next hkind =>
      cases h
      exact .inl ⟨hdefault, hkind, rfl⟩
    · cases h
  · next hdefault =>
    dsimp only at h
    split at h
    · cases h
    · next v hv =>
      cases h
      obtain ⟨hkind, hv⟩ := Option.ite_none_right_eq_some.mp hv
      exact .inr ⟨Bool.eq_false_of_not_eq_true hdefault, hkind, v, hv, rfl⟩

/-- A case that is read has no statement or one. -/
theorem addGroup_eq_ok (h : r.addGroup source selectorType g = .ok r') :
    (statements g = [] ∧ r' = r.under (groupMarks source selectorType g)) ∨
    ∃ s, statements g = [s] ∧
      (r.under (groupMarks source selectorType g)).addStatement s source = .ok r' := by
  rw [Reading.addGroup] at h
  split at h
  · cases h
  · dsimp only at h
    rw [foldl_addLabel] at h
    split at h
    · next hnone =>
      cases h
      exact .inl ⟨hnone, rfl⟩
    · next s hone => exact .inr ⟨s, hone, h⟩
    · cases h

/-- What is pending in a reading: the labels of some cases. -/
structure Reading.Pends (source selectorType : String) (r : Reading) (above : List Node) :
    Prop where
  keys : r.pending = (above.flatMap (groupMarks source selectorType)).filterMap id
  default : r.pendingDefault = (above.flatMap (groupMarks source selectorType)).any (·.isNone)

theorem Reading.Pends.under (h : r.Pends source selectorType above) (g : Node) :
    (r.under (groupMarks source selectorType g)).Pends source selectorType (above ++ [g]) := by
  constructor
  · rw [Reading.under, h.keys, List.flatMap_append, List.filterMap_append, List.flatMap_singleton]
  · rw [Reading.under, h.default, List.flatMap_append, List.any_append, List.flatMap_singleton]

/-- A statement that returns a value.  It is what stands first in the statement and is no token; of
a return with a comment ahead of its expression that is the comment. -/
def Returns (source : String) (statement : Node) (value : String) : Prop :=
  statement.kind = .returnStatement ∧
    statement.namedChildren.head?.map (·.text source) = some value

/-- What a branch adds to a reading: the default with its statement, or an arm. -/
def Branch.Adds (source selectorType : String) (b : Branch) (r r' : Reading) : Prop :=
  if b.isDefault source selectorType = true then
    b.statement.isOneOf [.returnStatement, .throwStatement] = true ∧ r'.arms = r.arms ∧
      r'.default = some (b.statement.text source)
  else
    Returns source b.statement (b.arm source selectorType).value ∧
      r'.arms = r.arms ++ [b.arm source selectorType] ∧ r'.default = r.default

/-- A case that is read puts its labels to those that are pending, or ends a branch. -/
theorem Reading.Pends.addGroup (hr : r.Pends source selectorType above)
    (h : r.addGroup source selectorType g = .ok r') :
    (statements g = [] ∧ r'.Pends source selectorType (above ++ [g]) ∧ r'.arms = r.arms ∧
      r'.default = r.default) ∨
    ∃ s, statements g = [s] ∧ r'.Pends source selectorType [] ∧
      (⟨above ++ [g], s⟩ : Branch).Adds source selectorType r r' := by
  have hlabels := hr.under g
  rcases addGroup_eq_ok h with ⟨hnone, rfl⟩ | ⟨s, hone, hs⟩
  · exact .inl ⟨hnone, hlabels, rfl, rfl⟩
  · refine .inr ⟨s, hone, ?_⟩
    rw [Branch.Adds]
    rcases addStatement_eq_ok hs with ⟨hdefault, hkind, rfl⟩ | ⟨hdefault, hkind, v, hv, rfl⟩
    · have hb : (⟨above ++ [g], s⟩ : Branch).isDefault source selectorType = true :=
        hlabels.default.symm.trans hdefault
      rw [if_pos hb]
      exact ⟨⟨rfl, rfl⟩, hkind, rfl, rfl⟩
    · have hb : (⟨above ++ [g], s⟩ : Branch).isDefault source selectorType = false :=
        hlabels.default.symm.trans hdefault
      have harm : (⟨above ++ [g], s⟩ : Branch).arm source selectorType =
          ⟨(r.under (groupMarks source selectorType g)).pending, v.text source⟩ := by
        rw [Branch.arm, hv, hlabels.keys]
        rfl
      rw [if_neg (Bool.not_eq_true _ ▸ hb), harm]
      exact ⟨⟨rfl, hdefault⟩, ⟨hkind, by rw [hv]; rfl⟩, rfl, rfl⟩

/-- What is read of some cases: an arm for each branch without the default, in order, and of the
branches with the default the statement of the last one. -/
theorem Reading.Pends.foldlM (hr : r.Pends source selectorType above)
    (h : groups.foldlM (Reading.addGroup source selectorType) r = .ok r') :
    r'.arms = r.arms ++ ((branchesFrom above groups).filter
      (!·.isDefault source selectorType)).map (·.arm source selectorType) ∧
    r'.default = ((((branchesFrom above groups).filter
      (·.isDefault source selectorType)).getLast?).map (·.statement.text source)).or r.default ∧
    ∀ b ∈ branchesFrom above groups,
      if b.isDefault source selectorType = true then
        b.statement.isOneOf [.returnStatement, .throwStatement] = true
      else Returns source b.statement (b.arm source selectorType).value := by
  induction groups generalizing r above with
  | nil =>
    cases h
    exact ⟨(List.append_nil _).symm, rfl, nofun⟩
  | cons g gs ih =>
    rw [List.foldlM_cons] at h
    obtain ⟨r₁, hg, h⟩ := exists_of_bind_eq_ok h
    rcases hr.addGroup hg with ⟨hnone, hr₁, harms, hdefault⟩ | ⟨s, hone, hr₁, hadds⟩
    · rw [branchesFrom, hnone, ← harms, ← hdefault]
      exact ih hr₁ h
    · obtain ⟨harms, hlast, hall⟩ := ih hr₁ h
      rw [branchesFrom, hone, harms, hlast]
      rw [Branch.Adds] at hadds
      split at hadds
      · next hb =>
        obtain ⟨hkind, harms, hdefault⟩ := hadds
        refine ⟨?_, ?_, List.forall_mem_cons.mpr ⟨by rwa [if_pos hb], hall⟩⟩
        · rw [List.filter_cons_of_neg (by simp [hb]), harms]
        · rw [List.filter_cons_of_pos hb, List.getLast?_cons, hdefault]
          cases (List.filter _ (branchesFrom [] gs)).getLast? <;> rfl
      · next hb =>
        obtain ⟨hreturns, harms, hdefault⟩ := hadds
        refine ⟨?_, ?_, List.forall_mem_cons.mpr ⟨by rwa [if_neg hb], hall⟩⟩
        · rw [List.filter_cons_of_pos (by simp [hb]), List.map_cons, harms, List.append_assoc,
            List.singleton_append]
        · rw [List.filter_cons_of_neg hb, hdefault]

/-- What is read of a switch. -/
theorem collectArms_eq_ok {switch : Node} {arms : List Arm} {default : Option String}
    (h : collectArms switch source selectorType = .ok (arms, default)) :
    arms = ((branchesFrom [] (casesOf switch)).filter
      (!·.isDefault source selectorType)).map (·.arm source selectorType) ∧
    default = (((branchesFrom [] (casesOf switch)).filter
      (·.isDefault source selectorType)).getLast?).map (·.statement.text source) ∧
    ∀ b ∈ branchesFrom [] (casesOf switch),
      if b.isDefault source selectorType = true then
        b.statement.isOneOf [.returnStatement, .throwStatement] = true
      else Returns source b.statement (b.arm source selectorType).value := by
  rw [collectArms] at h
  split at h
  · cases h
  · next body hbody =>
    have hcases : casesOf switch = body.parts := by rw [casesOf, hbody]; rfl
    obtain ⟨r, hr, h⟩ := exists_of_bind_eq_ok h
    split at h
    · cases h
    · cases h
      have hnone : ({} : Reading).Pends source selectorType [] := ⟨rfl, rfl⟩
      obtain ⟨harms, hdefault, hall⟩ := hnone.foldlM hr
      rw [Option.or_none] at hdefault
      rw [List.nil_append] at harms
      rw [hcases]
      exact ⟨harms, hdefault, hall⟩

end Reading

/-! ## What is selected -/

section Selection

variable {V : Type} [DecidableEq V] {source selectorType : String} {means : String → V}
  {groups : List Node} {b : Branch} {mark : Option V}

/-- Whether an arm lists a selector value. -/
def Arm.lists (means : String → V) (v : V) (arm : Arm) : Bool :=
  arm.labels.any fun k => means k = v

/-- Whether a label with a selector value, or the default, leads to a branch. -/
def Branch.leads (source selectorType : String) (means : String → V) (mark : Option V)
    (b : Branch) : Bool :=
  b.groups.any (carries source selectorType means mark)

namespace Branch

theorem leads_eq : b.leads source selectorType means mark =
    (b.marks source selectorType).any fun k => k.map means = mark := by
  rw [marks, List.any_flatMap]
  rfl

theorem leads_iff : b.leads source selectorType means mark = true ↔
    mark ∈ (b.marks source selectorType).map (·.map means) := by
  simp [leads_eq]

variable (means) in
theorem leads_none :
    b.leads source selectorType means none = b.isDefault source selectorType := by
  rw [leads_eq, isDefault]
  refine congrArg _ (funext fun k => ?_)
  cases k <;> rfl

theorem leads_some (v : V) : b.leads source selectorType means (some v) =
    (b.arm source selectorType).lists means v := by
  rw [leads_eq, Arm.lists, arm, keys, List.any_filterMap]
  refine congrArg _ (funext fun k => ?_)
  cases k <;> simp

end Branch

/-- Of things of which no two are wanted, the one that is wanted is found. -/
theorem find?_eq_some_of_pairwise {α : Type} {p : α → Bool} {xs : List α} {x : α}
    (h : xs.Pairwise fun x y => ¬ (p x = true ∧ p y = true)) (hx : x ∈ xs) (hp : p x = true) :
    xs.find? p = some x := by
  induction xs with
  | nil => cases hx
  | cons y ys ih =>
    obtain ⟨hy, hys⟩ := List.pairwise_cons.mp h
    rcases List.mem_cons.mp hx with rfl | hx
    · exact List.find?_cons_of_pos hp
    · rw [List.find?_cons_of_neg fun hpy => hy x hx ⟨hpy, hp⟩]
      exact ih hys hx

/-- If the last case has a statement, the labels of the cases are those that lead to branches. -/
theorem flatMap_marks_branchesFrom (hlast : ∀ g ∈ groups.getLast?, statements g ≠ []) :
    (branchesFrom [] groups).flatMap (·.marks source selectorType) =
      groups.flatMap (groupMarks source selectorType) := by
  have hcover := flatMap_groups_branchesFrom (.inr rfl) hlast
  rw [List.nil_append] at hcover
  conv_rhs => rw [← hcover, List.flatMap_assoc]
  rfl

theorem any_leads_branchesFrom (hlast : ∀ g ∈ groups.getLast?, statements g ≠ []) :
    (branchesFrom [] groups).any (·.leads source selectorType means mark) =
      groups.any (carries source selectorType means mark) := by
  have hcover := flatMap_groups_branchesFrom (.inr rfl) hlast
  rw [List.nil_append] at hcover
  conv_rhs => rw [← hcover, List.any_flatMap]
  rfl

/-- A label leads to one branch. -/
theorem pairwise_branches (h : DistinctLabels source selectorType means groups)
    (hlast : ∀ g ∈ groups.getLast?, statements g ≠ []) (mark : Option V) :
    (branchesFrom [] groups).Pairwise fun b b' =>
      ¬ (b.leads source selectorType means mark = true ∧
        b'.leads source selectorType means mark = true) := by
  rw [DistinctLabels, ← flatMap_marks_branchesFrom hlast, List.map_flatMap, List.Nodup,
    List.pairwise_flatMap] at h
  refine h.2.imp fun hne hboth => ?_
  exact hne _ (Branch.leads_iff.mp hboth.1) _ (Branch.leads_iff.mp hboth.2) rfl

theorem find?_branch (h : DistinctLabels source selectorType means groups)
    (hlast : ∀ g ∈ groups.getLast?, statements g ≠ []) (hb : b ∈ branchesFrom [] groups)
    (hleads : b.leads source selectorType means mark = true) :
    (branchesFrom [] groups).find? (·.leads source selectorType means mark) = some b :=
  find?_eq_some_of_pairwise (pairwise_branches h hlast mark) hb hleads

/-- The statement run from a label on is that of the branch to which the label leads. -/
theorem runFrom?_of_leads (h : DistinctLabels source selectorType means groups)
    (hlast : ∀ g ∈ groups.getLast?, statements g ≠ []) (hb : b ∈ branchesFrom [] groups)
    (hleads : b.leads source selectorType means mark = true) :
    runFrom? source selectorType means mark groups = some b.statement := by
  rw [runFrom?, firstStatement?_dropWhile List.any_nil]
  exact congrArg _ (find?_branch h hlast hb hleads)

/-- For a value that leads to a branch the switch runs the branch's statement. -/
theorem selected?_of_leads {v : V} (h : DistinctLabels source selectorType means groups)
    (hlast : ∀ g ∈ groups.getLast?, statements g ≠ []) (hb : b ∈ branchesFrom [] groups)
    (hleads : b.leads source selectorType means (some v) = true) :
    selected? source selectorType means groups v = some b.statement := by
  rw [selected?, ← any_leads_branchesFrom hlast, if_pos (List.any_eq_true.mpr ⟨b, hb, hleads⟩)]
  exact runFrom?_of_leads h hlast hb hleads

/-- For a value the switch runs the statement of the branch without the default that the value leads
to, or else that of the default's branch. -/
theorem selected?_eq (h : DistinctLabels source selectorType means groups)
    (hlast : ∀ g ∈ groups.getLast?, statements g ≠ []) (hb : b ∈ branchesFrom [] groups)
    (hdefault : b.isDefault source selectorType = true) (v : V) :
    selected? source selectorType means groups v =
      some (((((branchesFrom [] groups).filter (!·.isDefault source selectorType)).find?
        (·.leads source selectorType means (some v))).map (·.statement)).getD b.statement) := by
  rw [← Branch.leads_none means] at hdefault
  by_cases hany : (branchesFrom [] groups).any (·.leads source selectorType means (some v)) = true
  · obtain ⟨b', hb', hleads⟩ := List.any_eq_true.mp hany
    rw [selected?_of_leads h hlast hb' hleads]
    cases hother : b'.isDefault source selectorType with
    | true =>
      rw [← Branch.leads_none means] at hother
      obtain rfl : b' = b := Option.some.inj
        ((find?_branch h hlast hb' hother).symm.trans (find?_branch h hlast hb hdefault))
      have hnone : ((branchesFrom [] groups).filter (!·.isDefault source selectorType)).find?
          (·.leads source selectorType means (some v)) = none := by
        refine List.find?_eq_none.mpr fun c hc hleads' => ?_
        obtain ⟨hc, hcother⟩ := List.mem_filter.mp hc
        obtain rfl : c = b' := Option.some.inj
          ((find?_branch h hlast hc hleads').symm.trans (find?_branch h hlast hb' hleads))
        rw [Branch.leads_none] at hother
        rw [hother] at hcother
        cases hcother
      rw [hnone]
      rfl
    | false =>
      have hfound := find?_eq_some_of_pairwise
        ((pairwise_branches h hlast (some v)).filter (!·.isDefault source selectorType))
        (List.mem_filter.mpr ⟨hb', by rw [hother]; rfl⟩) hleads
      rw [hfound]
      rfl
  · have hnone : ((branchesFrom [] groups).filter (!·.isDefault source selectorType)).find?
        (·.leads source selectorType means (some v)) = none :=
      List.find?_eq_none.mpr fun c hc hleads =>
        hany (List.any_eq_true.mpr ⟨c, List.mem_of_mem_filter hc, hleads⟩)
    rw [selected?, ← any_leads_branchesFrom hlast, if_neg hany, hnone]
    exact runFrom?_of_leads h hlast hb hdefault

omit [DecidableEq V] in
/-- No key is listed twice. -/
theorem nodup_keys (h : DistinctLabels source selectorType means groups)
    (hlast : ∀ g ∈ groups.getLast?, statements g ≠ []) (p : Branch → Bool) :
    (((branchesFrom [] groups).filter p).flatMap (·.keys source selectorType)).Nodup := by
  rw [DistinctLabels, ← flatMap_marks_branchesFrom hlast] at h
  have hmarks : (((branchesFrom [] groups).filter p).flatMap
      (·.marks source selectorType)).Nodup :=
    (List.Nodup.of_map _ h).sublist (List.filter_sublist.flatMap _)
  have hkeys := List.Nodup.filterMap (f := id) (fun x y k hx hy => Eq.trans hx hy.symm) hmarks
  rwa [List.filterMap_flatMap] at hkeys

/-- The dispatch table means what the switch means.  Each arm is made of a statement that returns
the arm's value, and the default is a statement that leaves the switch too.  For every selector
value the statement of the arm that lists the value, or else the default, is the one that the switch
runs, and a key that leads to another statement than the default is listed once, in one arm. -/
theorem table_selects_like_switch {switch : Node} {arms : List Arm} {default : String}
    (h : collectArms switch source selectorType = .ok (arms, some default))
    (hdistinct : DistinctLabels source selectorType means (casesOf switch))
    (hlast : ∀ g ∈ (casesOf switch).getLast?, statements g ≠ []) :
    ∃ (table : List (Arm × Node)) (other : Node),
      table.map (·.1) = arms ∧ (∀ row ∈ table, Returns source row.2 row.1.value) ∧
      default = other.text source ∧
      other.isOneOf [.returnStatement, .throwStatement] = true ∧
      (∀ v, selected? source selectorType means (casesOf switch) v =
        some (((table.find? (·.1.lists means v)).map (·.2)).getD other)) ∧
      ∀ k, some k ∈ (casesOf switch).flatMap (groupMarks source selectorType) →
        selected? source selectorType means (casesOf switch) (means k) ≠ some other →
          (arms.flatMap (·.labels)).count k = 1 := by
  obtain ⟨rfl, hdefault, hall⟩ := collectArms_eq_ok h
  obtain ⟨b, hb, hothertext⟩ := Option.map_eq_some_iff.mp hdefault.symm
  obtain ⟨hmem, hother⟩ := List.mem_filter.mp (List.mem_of_getLast? hb)
  refine ⟨((branchesFrom [] (casesOf switch)).filter (!·.isDefault source selectorType)).map
    fun b => (b.arm source selectorType, b.statement), b.statement, ?_, ?_, hothertext.symm, ?_,
    fun v => ?_, fun k hk hne => ?_⟩
  · rw [List.map_map]
    rfl
  · intro row hrow
    obtain ⟨c, hc, rfl⟩ := List.mem_map.mp hrow
    obtain ⟨hc, hcother⟩ := List.mem_filter.mp hc
    have hthis := hall c hc
    rwa [if_neg (by simpa using hcother)] at hthis
  · have hthis := hall b hmem
    rwa [if_pos hother] at hthis
  · rw [selected?_eq hdistinct hlast hmem hother v, List.find?_map, Option.map_map]
    congr 4
    funext c
    exact Branch.leads_some v
  · rw [← flatMap_marks_branchesFrom hlast] at hk
    obtain ⟨c, hc, hk⟩ := List.mem_flatMap.mp hk
    have hleads : c.leads source selectorType means (some (means k)) = true :=
      Branch.leads_iff.mpr (List.mem_map_of_mem hk)
    have hcother : c.isDefault source selectorType = false := by
      by_contra hcother
      rw [Bool.not_eq_false, ← Branch.leads_none means] at hcother
      rw [← Branch.leads_none means] at hother
      obtain rfl : c = b := Option.some.inj
        ((find?_branch hdistinct hlast hc hcother).symm.trans
          (find?_branch hdistinct hlast hmem hother))
      exact hne (selected?_of_leads hdistinct hlast hc hleads)
    rw [List.flatMap_map]
    have hlisted : k ∈ c.keys source selectorType := List.mem_filterMap.mpr ⟨some k, hk, rfl⟩
    exact List.count_eq_one_of_mem (nodup_keys hdistinct hlast _)
      (List.mem_flatMap.mpr ⟨c, List.mem_filter.mpr ⟨hc, by rw [hcother]; rfl⟩, hlisted⟩)

end Selection

/-! ## A switch with its default in the middle -/

/-- A switch with a case that joins the default and one that joins the case behind it. -/
def stairSource : String :=
  "switch (k) \x7b\n    case 1:\n        return 10;\n    case 2:\n    default:\n" ++
    "        return 0;\n    case 3:\n    case 4:\n        return 30;\n\x7d"

/-- Its node. -/
def stair : Node := .root
  ⟨.switchExpression, none, false, 0, 131, [⟨.token "switch", none, false, 0, 6, []⟩,
    ⟨.parenthesizedExpression, some .condition, false, 7, 10, [
    ⟨.token "(", none, false, 7, 8, []⟩, ⟨.identifier, none, false, 8, 9, []⟩,
    ⟨.token ")", none, false, 9, 10, []⟩]⟩, ⟨.switchBlock, some .body, false, 11, 131, [
    ⟨.token "\x7b", none, false, 11, 12, []⟩, ⟨.switchBlockStatementGroup, none, false, 17, 43, [
    ⟨.switchLabel, none, false, 17, 23, [⟨.token "case", none, false, 17, 21, []⟩,
    ⟨.decimalIntegerLiteral, none, false, 22, 23, []⟩]⟩, ⟨.token ":", none, false, 23, 24, []⟩,
    ⟨.returnStatement, none, false, 33, 43, [⟨.token "return", none, false, 33, 39, []⟩,
    ⟨.decimalIntegerLiteral, none, false, 40, 42, []⟩, ⟨.token ";", none, false, 42, 43, []⟩]⟩]⟩,
    ⟨.switchBlockStatementGroup, none, false, 48, 55, [⟨.switchLabel, none, false, 48, 54, [
    ⟨.token "case", none, false, 48, 52, []⟩, ⟨.decimalIntegerLiteral, none, false, 53, 54, []⟩]⟩,
    ⟨.token ":", none, false, 54, 55, []⟩]⟩, ⟨.switchBlockStatementGroup, none, false, 60, 86, [
    ⟨.switchLabel, none, false, 60, 67, [⟨.token "default", none, false, 60, 67, []⟩]⟩,
    ⟨.token ":", none, false, 67, 68, []⟩, ⟨.returnStatement, none, false, 77, 86, [
    ⟨.token "return", none, false, 77, 83, []⟩, ⟨.decimalIntegerLiteral, none, false, 84, 85, []⟩,
    ⟨.token ";", none, false, 85, 86, []⟩]⟩]⟩,
    ⟨.switchBlockStatementGroup, none, false, 91, 98, [⟨.switchLabel, none, false, 91, 97, [
    ⟨.token "case", none, false, 91, 95, []⟩, ⟨.decimalIntegerLiteral, none, false, 96, 97, []⟩]⟩,
    ⟨.token ":", none, false, 97, 98, []⟩]⟩,
    ⟨.switchBlockStatementGroup, none, false, 103, 129, [⟨.switchLabel, none, false, 103, 109, [
    ⟨.token "case", none, false, 103, 107, []⟩,
    ⟨.decimalIntegerLiteral, none, false, 108, 109, []⟩]⟩,
    ⟨.token ":", none, false, 109, 110, []⟩, ⟨.returnStatement, none, false, 119, 129, [
    ⟨.token "return", none, false, 119, 125, []⟩,
    ⟨.decimalIntegerLiteral, none, false, 126, 128, []⟩,
    ⟨.token ";", none, false, 128, 129, []⟩]⟩]⟩, ⟨.token "\x7d", none, false, 130, 131, []⟩]⟩]⟩

theorem collectArms_stair : collectArms stair stairSource "int" =
    .ok ([⟨["1"], "10"⟩, ⟨["3", "4"], "30"⟩], some "return 0;") := by
  have h : (collectArms stair stairSource "int").toOption =
      some ([⟨["1"], "10"⟩, ⟨["3", "4"], "30"⟩], some "return 0;") := by
    decide +kernel
  exact EditSet.toOption_eq_some_iff.mp h

/-- The table of the cases 1, 3 and 4 selects what the switch runs. -/
theorem table_selects_like_switch_stair :
    ∃ (table : List (Arm × Node)) (other : Node),
      table.map (·.1) = [⟨["1"], "10"⟩, ⟨["3", "4"], "30"⟩] ∧
      other.text stairSource = "return 0;" ∧
      ∀ v, selected? stairSource "int" id (casesOf stair) v =
        some (((table.find? (·.1.lists id v)).map (·.2)).getD other) := by
  have hdistinct : DistinctLabels stairSource "int" id (casesOf stair) := by
    rw [DistinctLabels]
    decide +kernel
  have hlast : ∀ g ∈ (casesOf stair).getLast?, statements g ≠ [] := by
    have hsome : ((casesOf stair).getLast?.all fun g => !(statements g).isEmpty) = true := by
      decide +kernel
    intro g hg
    rw [Option.mem_def.mp hg, Option.all_some, Bool.not_eq_true',
      List.isEmpty_eq_false_iff] at hsome
    exact hsome
  obtain ⟨table, other, htable, -, hother, -, hselects, -⟩ :=
    table_selects_like_switch collectArms_stair hdistinct hlast
  exact ⟨table, other, htable, hother.symm, hselects⟩

end Amend.Refactoring.Dispatch
