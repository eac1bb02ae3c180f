import Amend.Extraction.Facts
import Amend.Proofs.Syntax.Wording
import Mathlib.Data.List.Forall2

/-!
# Nodes that are told alike

Which identifiers of a statement name variables, which of them declare, read or write, and which
jumps leave the statement is told from what the nodes say and where they stand in it.  So two
statements that say the same are told alike, in whatever methods and sources they are.
-/

namespace Amend.Syntax

/-! ## Lists related one by one -/

section Forall₂

variable {α β : Type} {R : α → β → Prop} {l : List α} {l' : List β}

theorem any_congr (h : List.Forall₂ R l l') {p : α → Bool} {q : β → Bool}
    (hpq : ∀ a b, a ∈ l → b ∈ l' → R a b → p a = q b) : l.any p = l'.any q := by
  induction h with
  | nil => rfl
  | cons hab hrest ih =>
    rw [List.any_cons, List.any_cons,
      hpq _ _ List.mem_cons_self List.mem_cons_self hab,
      ih fun a b ha hb => hpq a b (List.mem_cons_of_mem _ ha) (List.mem_cons_of_mem _ hb)]

theorem foldl_congr {γ : Type} (h : List.Forall₂ R l l') {f : γ → α → γ} {g : γ → β → γ}
    (hfg : ∀ c a b, a ∈ l → R a b → f c a = g c b) (c : γ) : l.foldl f c = l'.foldl g c := by
  induction h generalizing c with
  | nil => rfl
  | cons hab hrest ih =>
    rw [List.foldl_cons, List.foldl_cons, hfg c _ _ List.mem_cons_self hab,
      ih fun c a b ha => hfg c a b (List.mem_cons_of_mem _ ha)]

theorem filter_congr (h : List.Forall₂ R l l') {p : α → Bool} {q : β → Bool}
    (hpq : ∀ a b, R a b → p a = q b) : List.Forall₂ R (l.filter p) (l'.filter q) := by
  have hiff {a : α} {b : β} (hab : R a b) : p a = true ↔ q b = true := by rw [hpq a b hab]
  exact List.rel_filter (fun _ _ hab => hiff hab) h

theorem isEmpty_congr (h : List.Forall₂ R l l') : l.isEmpty = l'.isEmpty := by
  cases h <;> rfl

theorem head?_rel (h : List.Forall₂ R l l') : Option.Rel R l.head? l'.head? := by
  cases h with
  | nil => exact .none
  | cons hab _ => exact .some hab

theorem getLast?_rel (h : List.Forall₂ R l l') : Option.Rel R l.getLast? l'.getLast? := by
  rw [← List.head?_reverse, ← List.head?_reverse]
  exact head?_rel (List.rel_reverse h)

end Forall₂

namespace Wording

/-- The words of the first child with a role. -/
def textBy? (w : Wording) (f : Field) : Option String :=
  (w.children.find? (·.field = some f)).map (·.text)

/-- The children that are neither tokens nor comments. -/
def parts (w : Wording) : List Wording :=
  w.children.filter fun c => c.kind.isNamed && !c.kind.isComment

end Wording

namespace Node

variable {source source' : String} {n n' : Node} {f : Field}

/-! ## Children -/

@[simp] theorem map_tree_children : n.children.map (·.tree) = n.tree.children := by
  rw [children, List.mapIdx_eq_zipIdx_map, List.map_map]
  exact List.zipIdx_map_fst 0 n.tree.children

theorem getElem?_children (i : Nat) : n.children[i]? = n.child? i := by
  simp [children, child?]

theorem find?_children (q : Tree → Bool) :
    n.children.find? (fun c => q c.tree) = (n.tree.children.findIdx? q).bind n.child? := by
  rw [List.find?_eq_bind_findIdx?_getElem?, ← map_tree_children, List.findIdx?_map]
  exact congrArg _ (funext getElem?_children)

theorem map_tree_childBy? :
    (n.childBy? f).map (·.tree) = n.tree.children.find? (·.field = some f) := by
  rw [childBy?, ← map_tree_children, List.find?_map]
  rfl

theorem textBy?_wording :
    (n.tree.wording source).textBy? f = (n.childBy? f).map (·.text source) := by
  have htext : (fun c : Node => c.text source) = (fun t => (t.wording source).text) ∘ (·.tree) := by
    funext c
    simp [text, start, stop]
  rw [htext, ← Option.map_map, map_tree_childBy?, Wording.textBy?, Tree.children_wording,
    List.find?_map, Option.map_map]
  congr 2
  funext t
  simp

@[simp] theorem map_wording_children :
    n.children.map (·.tree.wording source) = (n.tree.wording source).children := by
  rw [Tree.children_wording, ← map_tree_children, List.map_map]
  rfl

theorem map_wording_filter (q : Wording → Bool) :
    (n.children.filter fun c => q (c.tree.wording source)).map (·.tree.wording source) =
      (n.tree.wording source).children.filter q := by
  rw [← map_wording_children, List.filter_map]
  rfl

theorem map_wording_parts :
    n.parts.map (·.tree.wording source) = (n.tree.wording source).parts := by
  rw [parts, namedChildren, List.filter_filter, Wording.parts, ← map_wording_filter]
  congr 2
  funext c
  simp [isComment, kind, Bool.and_comm]

theorem map_wording_childrenBy : (n.childrenBy f).map (·.tree.wording source) =
    (n.tree.wording source).children.filter (·.field = some f) := by
  rw [childrenBy, ← map_wording_filter]
  simp

/-- A child told by what it is and has is the node below its parent with the same index. -/
theorem any_same (q : Tree → Bool) (t p : Tree) (i : Nat) (above : List (Tree × Nat)) :
    ((⟨p, above⟩ : Node).children.find? fun c => q c.tree).any (·.same ⟨t, (p, i) :: above⟩) =
      decide (p.children.findIdx? q = some i) := by
  rw [find?_children]
  cases hfind : p.children.findIdx? q with
  | none => rfl
  | some j =>
    have hlt : j < p.children.length := (List.findIdx?_eq_some_iff_getElem.mp hfind).1
    simp [child?, List.getElem?_eq_getElem hlt, same, path, Bool.beq_eq_decide_eq]

/-! ## Standing -/

/-- The bodies of methods and constructors.  Nothing is told of a statement by its place in one. -/
def bodyKinds : List Kind := [.block, .constructorBody]

/-- The ways up from two nodes that stand alike: up to a body, the nodes above them say the same,
and those from there on are of the same kinds. -/
inductive Stand (source source' : String) : List (Tree × Nat) → List (Tree × Nat) → Prop
  | outer {p p' : Tree} {i i' : Nat} {above above' : List (Tree × Nat)}
      (hkinds : ((p, i) :: above).map (·.1.kind) = ((p', i') :: above').map (·.1.kind))
      (hkind : p.kind ∈ bodyKinds) :
      Stand source source' ((p, i) :: above) ((p', i') :: above')
  | inner {p p' : Tree} {i : Nat} {above above' : List (Tree × Nat)}
      (hwords : p.wording source = p'.wording source')
      (habove : Stand source source' above above') :
      Stand source source' ((p, i) :: above) ((p', i) :: above')

/-- Two nodes that say the same and stand alike. -/
structure Alike (source source' : String) (n n' : Node) : Prop where
  words : n.tree.wording source = n'.tree.wording source'
  stands : Stand source source' n.above n'.above

theorem Stand.kinds {above above' : List (Tree × Nat)} (h : Stand source source' above above') :
    above.map (·.1.kind) = above'.map (·.1.kind) := by
  induction h with
  | outer hkinds _ => exact hkinds
  | inner hwords _ ih =>
    have hkind := congrArg Wording.kind hwords
    rw [Tree.kind_wording, Tree.kind_wording] at hkind
    rw [List.map_cons, List.map_cons, ih, hkind]

/-- Under nodes that say the same, the same child is the first one with a property. -/
theorem findIdx?_children {p p' : Tree} (h : p.wording source = p'.wording source')
    {q : Tree → Bool} {r : Wording → Bool} (hq : ∀ source t, q t = r (t.wording source)) :
    p.children.findIdx? q = p'.children.findIdx? q := by
  have hread (source : String) (p : Tree) :
      p.children.findIdx? q = (p.wording source).children.findIdx? r := by
    rw [Tree.children_wording, List.findIdx?_map]
    exact congrFun (congrArg _ (funext (hq source))) p.children
  rw [hread source, hread source', h]

theorem isChildBy_eq (t p : Tree) (i : Nat) (above : List (Tree × Nat)) (f : Field) :
    (⟨t, (p, i) :: above⟩ : Node).isChildBy f =
      decide (p.children.findIdx? (·.field = some f) = some i) :=
  any_same (·.field = some f) t p i above

theorem isChildBy_congr (t t' : Tree) (i : Nat) (above above' : List (Tree × Nat)) {p p' : Tree}
    (h : p.wording source = p'.wording source') (f : Field) :
    (⟨t, (p, i) :: above⟩ : Node).isChildBy f = (⟨t', (p', i) :: above'⟩ : Node).isChildBy f := by
  rw [isChildBy_eq, isChildBy_eq, findIdx?_children h (r := (·.field = some f)) fun _ _ => by simp]

/-- Whether the node is the first one in its parent that is no token. -/
theorem isFirst_congr (t t' : Tree) (i : Nat) (above above' : List (Tree × Nat)) {p p' : Tree}
    (h : p.wording source = p'.wording source') :
    (⟨p, above⟩ : Node).namedChildren.head?.any (·.same ⟨t, (p, i) :: above⟩) =
      (⟨p', above'⟩ : Node).namedChildren.head?.any (·.same ⟨t', (p', i) :: above'⟩) := by
  rw [namedChildren, namedChildren, List.head?_filter, List.head?_filter]
  have hthis := any_same (·.kind.isNamed) t p i above
  have hother := any_same (·.kind.isNamed) t' p' i above'
  rw [findIdx?_children h (r := (·.kind.isNamed)) fun _ _ => by simp] at hthis
  exact hthis.trans hother.symm

namespace Alike

theorem kind (h : Alike source source' n n') : n.kind = n'.kind := by
  have hkind := congrArg Wording.kind h.words
  rwa [Tree.kind_wording, Tree.kind_wording] at hkind

theorem text (h : Alike source source' n n') : n.text source = n'.text source' := by
  have htext := congrArg Wording.text h.words
  rwa [Tree.text_wording, Tree.text_wording] at htext

theorem textBy? (h : Alike source source' n n') (f : Field) :
    (n.childBy? f).map (·.text source) = (n'.childBy? f).map (·.text source') := by
  rw [← textBy?_wording, ← textBy?_wording, h.words]

/-- The children of nodes that are alike are alike one by one. -/
theorem children (h : Alike source source' n n') :
    List.Forall₂ (Alike source source') n.children n'.children := by
  have hwords := congrArg Wording.children h.words
  rw [Tree.children_wording, Tree.children_wording] at hwords
  have hlength := congrArg List.length hwords
  rw [List.length_map, List.length_map] at hlength
  refine List.forall₂_of_length_eq_of_get (by simp [Node.children, hlength]) fun i hi hi' => ?_
  have hi : i < n.tree.children.length := by simpa [Node.children] using hi
  have hi' : i < n'.tree.children.length := by simpa [Node.children] using hi'
  have hword : n.tree.children[i].wording source = n'.tree.children[i].wording source' := by
    simpa [List.getElem?_eq_getElem, hi, hi'] using congrArg (·[i]?) hwords
  have hthis : Alike source source' ⟨n.tree.children[i], (n.tree, i) :: n.above⟩
      ⟨n'.tree.children[i], (n'.tree, i) :: n'.above⟩ := ⟨hword, .inner h.words h.stands⟩
  simpa [Node.children] using hthis

/-! ## Variables -/

theorem isDeclarationSite_outer {t p : Tree} {i : Nat} {above : List (Tree × Nat)}
    (h : p.kind ∈ bodyKinds) : Java.isDeclarationSite ⟨t, (p, i) :: above⟩ = false := by
  simp only [bodyKinds, List.mem_cons, List.not_mem_nil, or_false] at h
  rcases h with h | h <;> simp [Java.isDeclarationSite, parent?, Node.kind, h]

theorem isDeclarationSite (h : Alike source source' n n') :
    Java.isDeclarationSite n = Java.isDeclarationSite n' := by
  obtain ⟨t, above⟩ := n
  obtain ⟨t', above'⟩ := n'
  cases h.stands with
  | @outer p p' i i' above above' hkinds hkind =>
    have hkind' : p.kind = p'.kind := (List.cons.inj hkinds).1
    rw [isDeclarationSite_outer hkind, isDeclarationSite_outer (hkind' ▸ hkind)]
  | @inner p p' i above above' hwords habove =>
    have hkind := congrArg Wording.kind hwords
    rw [Tree.kind_wording, Tree.kind_wording] at hkind
    have hby := isChildBy_congr t t' i above above' hwords
    simp only [Java.isDeclarationSite, parent?, Node.kind, hkind, hby]

theorem isVariableName (h : Alike source source' n n') :
    Java.isVariableName n = Java.isVariableName n' := by
  have hthis := h.kind
  obtain ⟨t, above⟩ := n
  obtain ⟨t', above'⟩ := n'
  rw [Java.isVariableName, Java.isVariableName, hthis]
  congr 1
  cases h.stands with
  | @outer p p' i i' above above' hkinds hkind =>
    have hkind' : p.kind = p'.kind := (List.cons.inj hkinds).1
    rw [hkind'] at hkind
    simp only [bodyKinds, List.mem_cons, List.not_mem_nil, or_false] at hkind
    rcases hkind with h | h <;> simp [parent?, Node.kind, hkind', h]
  | @inner p p' i above above' hwords habove =>
    have hkind := congrArg Wording.kind hwords
    rw [Tree.kind_wording, Tree.kind_wording] at hkind
    have hby := isChildBy_congr t t' i above above' hwords
    have hfirst := isFirst_congr t t' i above above' hwords
    simp only [parent?, Node.kind, hkind, hby, hfirst]

theorem access (h : Alike source source' n n') :
    Extraction.StatementFacts.access n source = Extraction.StatementFacts.access n' source' := by
  obtain ⟨t, above⟩ := n
  obtain ⟨t', above'⟩ := n'
  rw [Extraction.StatementFacts.access, Extraction.StatementFacts.access]
  cases h.stands with
  | @outer p p' i i' above above' hkinds hkind =>
    have hkind' : p.kind = p'.kind := (List.cons.inj hkinds).1
    rw [hkind'] at hkind
    simp only [bodyKinds, List.mem_cons, List.not_mem_nil, or_false] at hkind
    rcases hkind with h | h <;> simp [parent?, Node.kind, hkind', h]
  | @inner p p' i above above' hwords habove =>
    have hkind := congrArg Wording.kind hwords
    rw [Tree.kind_wording, Tree.kind_wording] at hkind
    have hby := isChildBy_congr t t' i above above' hwords
    have hoperator : ((⟨p, above⟩ : Node).childBy? .operator).any
          (fun op => decide (op.text source = "=")) =
        ((⟨p', above'⟩ : Node).childBy? .operator).any
          (fun op => decide (op.text source' = "=")) := by
      have hparent : Alike source source' ⟨p, above⟩ ⟨p', above'⟩ := ⟨hwords, habove⟩
      have htext := hparent.textBy? .operator
      have hany := congrArg (Option.any fun text => decide (text = "=")) htext
      rwa [Option.any_map, Option.any_map] at hany
    simp only [parent?, Node.kind, hkind, hby, hoperator]

end Alike

/-! ## Nodes below -/

mutual

/-- The nodes of two trees that say the same and stand alike are alike one by one. -/
theorem visitTree_alike {enter : Kind → Bool} : {t t' : Tree} → {above above' : List (Tree × Nat)} →
    t.wording source = t'.wording source' → Stand source source' above above' →
    List.Forall₂ (Alike source source') (visitTree (fun n => enter n.kind) t above)
      (visitTree (fun n => enter n.kind) t' above')
  | ⟨kind, field, missing, start, stop, children⟩, ⟨kind', field', missing', start', stop',
      children'⟩, above, above', h, habove => by
    have hkind := congrArg Wording.kind h
    have hchildren := congrArg Wording.children h
    rw [Tree.kind_wording, Tree.kind_wording] at hkind
    rw [Tree.children_wording, Tree.children_wording] at hchildren
    obtain rfl : kind = kind' := hkind
    rw [visitTree, visitTree]
    refine List.Forall₂.cons ⟨h, habove⟩ ?_
    change List.Forall₂ _ (if enter kind then _ else []) (if enter kind then _ else [])
    split
    · exact visitTrees_alike hchildren fun k => .inner h habove
    · exact .nil

theorem visitTrees_alike {enter : Kind → Bool} {p p' : Tree} {above above' : List (Tree × Nat)} :
    {ts ts' : List Tree} → {i i' : Nat} →
    ts.map (Tree.wording source) = ts'.map (Tree.wording source') →
    (∀ k, Stand source source' ((p, i + k) :: above) ((p', i' + k) :: above')) →
    List.Forall₂ (Alike source source') (visitTrees (fun n => enter n.kind) p above i ts)
      (visitTrees (fun n => enter n.kind) p' above' i' ts')
  | [], [], _, _, _, _ => by
    rw [visitTrees, visitTrees]
    exact .nil
  | t :: ts, t' :: ts', i, i', h, hstand => by
    rw [List.map_cons, List.map_cons, List.cons.injEq] at h
    have hkind := congrArg Wording.kind h.1
    rw [Tree.kind_wording, Tree.kind_wording] at hkind
    have hnext (k : Nat) : Stand source source' ((p, i + 1 + k) :: above)
        ((p', i' + 1 + k) :: above') := by
      simpa only [Nat.add_assoc, Nat.add_comm 1] using hstand (k + 1)
    rw [visitTrees, visitTrees, hkind]
    refine List.rel_append ?_ (visitTrees_alike h.2 hnext)
    split
    · exact visitTree_alike h.1 (hstand 0)
    · exact .nil
  | [], t' :: ts', _, _, h, _ => by cases h
  | t :: ts, [], _, _, h, _ => by cases h

end

/-- The nodes at and below two that are alike are alike one by one. -/
theorem Alike.visit (h : Alike source source' n n') (enter : Kind → Bool) :
    List.Forall₂ (Alike source source') (n.visit fun m => enter m.kind)
      (n'.visit fun m => enter m.kind) :=
  visitTree_alike h.words h.stands

mutual

/-- The way up from a node at or below a tree leads through that tree. -/
theorem above_of_mem_visitTree {enter : Node → Bool} {m : Node} : {t : Tree} →
    {above : List (Tree × Nat)} → m ∈ visitTree enter t above → ∃ way, m.above = way ++ above
  | ⟨kind, field, missing, start, stop, children⟩, above, h => by
    rw [visitTree, List.mem_cons] at h
    rcases h with rfl | h
    · exact ⟨[], rfl⟩
    · split at h
      · exact above_of_mem_visitTrees h
      · cases h

theorem above_of_mem_visitTrees {enter : Node → Bool} {m : Node} {p : Tree}
    {above : List (Tree × Nat)} : {ts : List Tree} → {i : Nat} →
    m ∈ visitTrees enter p above i ts → ∃ way, m.above = way ++ above
  | [], _, h => by cases h
  | t :: ts, i, h => by
    rw [visitTrees, List.mem_append] at h
    rcases h with h | h
    · split at h
      · obtain ⟨way, hway⟩ := above_of_mem_visitTree h
        exact ⟨way ++ [(p, i)], by rw [hway, List.append_assoc, List.singleton_append]⟩
      · cases h
    · exact above_of_mem_visitTrees h

end

end Node

end Amend.Syntax
