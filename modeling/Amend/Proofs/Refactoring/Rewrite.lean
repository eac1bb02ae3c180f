import Amend.Proofs.LineMap
import Amend.Refactoring.Rewrite

/-!
# What the edits of a rewrite come to

A rewrite that is made of edits has the content that a reader gets who goes through the source from
edit to edit.  What all edits spare is in it as it was.
-/

namespace Amend

namespace Text

/-- A piece that lies in another piece of a text is a piece of it. -/
theorem exists_pieces_within {s t u : String} {i j k l : Nat} (ht : slice? s i j = some t)
    (hu : slice? s k l = some u) (hfirst : i ≤ k) (hlast : l ≤ j) :
    ∃ y x : String, t = y ++ u ++ x ∧ i + y.utf8ByteSize = k := by
  obtain ⟨a, c, rfl, rfl, hj⟩ := slice?_eq_some_iff.mp ht
  obtain ⟨a', c', h, rfl, hl⟩ := slice?_eq_some_iff.mp hu
  rw [String.append_assoc, @String.append_assoc a'] at h
  obtain ⟨y, rfl, hrest⟩ := exists_append_of_size_le h hfirst
  rw [← String.append_assoc] at hrest
  have hle : (y ++ u).utf8ByteSize ≤ t.utf8ByteSize := by
    simp only [String.utf8ByteSize_append] at *
    omega
  obtain ⟨x, rfl, -⟩ := exists_append_of_size_le hrest.symm hle
  exact ⟨y, x, rfl, by rw [String.utf8ByteSize_append]⟩

end Text

namespace EditSet

open TextEdit

/-- A piece that all edits spare stays: the edits ahead of it rewrite what is before it, and the
others what is behind. -/
theorem Rewrites.spared {start : Nat} {y t x out : String} {edits : List TextEdit}
    (h : Rewrites start (y ++ t ++ x) edits out)
    (hspared : ∀ e ∈ edits, e.stop ≤ start + y.utf8ByteSize ∨
      start + (y ++ t).utf8ByteSize ≤ e.start) :
    ∃ ahead behind y' x', edits = ahead ++ behind ∧ out = y' ++ t ++ x' ∧
      Rewrites start y ahead y' ∧ Rewrites (start + (y ++ t).utf8ByteSize) x behind x' := by
  generalize hz : y ++ t ++ x = z at h
  induction h generalizing y with
  | done start z => exact ⟨[], [], y, x, rfl, hz.symm, .done _ _, .done _ _⟩
  | @edit start gap removed after out e rest hstart hstop hrest ih =>
    rcases hspared e List.mem_cons_self with hahead | hbehind
    · have hle : (gap ++ removed).utf8ByteSize ≤ y.utf8ByteSize := by
        rw [String.utf8ByteSize_append]
        omega
      rw [String.append_assoc] at hz
      obtain ⟨y, rfl, rfl⟩ := Text.exists_append_of_size_le hz.symm hle
      have hoffset (v : String) :
          start + (gap ++ removed ++ v).utf8ByteSize = e.stop + v.utf8ByteSize := by
        simp only [String.utf8ByteSize_append]
        omega
      rw [@String.append_assoc (gap ++ removed) y t, hoffset, hoffset] at hspared
      obtain ⟨ahead, behind, y', x', rfl, rfl, hy, hx⟩ :=
        ih (fun f hf => hspared f (List.mem_cons_of_mem e hf)) String.append_assoc
      refine ⟨e :: ahead, behind, gap ++ e.replacement ++ y', x', rfl, ?_,
        .edit hstart hstop hy, ?_⟩
      · simp only [String.append_assoc]
      · rwa [@String.append_assoc (gap ++ removed) y t, hoffset]
    · have hle : (y ++ t).utf8ByteSize ≤ gap.utf8ByteSize := by omega
      rw [@String.append_assoc gap] at hz
      obtain ⟨gap, rfl, rfl⟩ := Text.exists_append_of_size_le hz hle
      refine ⟨[], e :: rest, y, gap ++ e.replacement ++ out, rfl, ?_, .done _ _, ?_⟩
      · simp only [String.append_assoc]
      · rw [← String.append_assoc]
        refine .edit ?_ hstop hrest
        rw [String.utf8ByteSize_append] at hstart
        omega

/-- The text of each edit stands between what the edits ahead of it make of the text before the edit
and what the others make of the text behind. -/
theorem Rewrites.of_mem {start : Nat} {z out : String} {edits : List TextEdit} {e : TextEdit}
    (h : Rewrites start z edits out) (he : e ∈ edits) :
    ∃ ahead behind y removed x y' x', edits = ahead ++ e :: behind ∧ z = y ++ removed ++ x ∧
      start + y.utf8ByteSize = e.start ∧ e.start + removed.utf8ByteSize = e.stop ∧
      out = y' ++ e.replacement ++ x' ∧ Rewrites start y ahead y' ∧
      Rewrites e.stop x behind x' := by
  induction h with
  | done start z => cases he
  | @edit start gap removed after out f rest hstart hstop hrest ih =>
    rcases List.mem_cons.mp he with rfl | he
    · exact ⟨[], rest, gap, removed, after, gap, out, rfl, rfl, hstart, hstop, rfl, .done _ _, hrest⟩
    · obtain ⟨ahead, behind, y, removed', x, y', x', rfl, rfl, hstart', hstop', rfl, hahead,
        hbehind⟩ := ih he
      refine ⟨f :: ahead, behind, gap ++ removed ++ y, removed', x, gap ++ f.replacement ++ y', x',
        rfl, ?_, ?_, hstop', ?_, .edit hstart hstop hahead, hbehind⟩
      · simp only [String.append_assoc]
      · simp only [String.utf8ByteSize_append]
        omega
      · simp only [String.append_assoc]

/-- What an accepted set of edits makes of a source is what its edits, in reading order, rewrite it
into. -/
theorem exists_rewrites_of_applyTo? {source content : String} {edits : List TextEdit}
    {set : EditSet} (hset : ofList edits source.utf8ByteSize = .ok set)
    (hcut : ∀ e ∈ set.edits, OnBoundaries source e) (h : set.applyTo? source = some content) :
    ∃ ordered, InReadingOrder edits ordered ∧ Apart ordered ∧
      Rewrites 0 source ordered content := by
  have ho := inReadingOrder_mergeSort edits
  obtain ⟨rfl, hfits, hapart⟩ := (ofList_eq_ok_iff ho set).mp hset
  have hfits' : ∀ e ∈ edits.mergeSort before, e.Fits source.utf8ByteSize :=
    fun e he => hfits e ((ho.mem_iff e).mp he)
  obtain ⟨out, hout⟩ := exists_rewrites (a := "") (z := source) (by simpa using hfits') hapart
    (by simp) (by simpa using hcut)
  have happly := hout.applyTo?_eq (a := "") rfl
  rw [String.empty_append, String.empty_append, h] at happly
  cases happly
  exact ⟨_, ho, hapart, hout⟩

end EditSet

namespace Refactoring

/-- What is there is found whatever stands in for it. -/
theorem eq_some_getD {α : Type} {x : Option α} {default : α} (h : x.isSome = true) :
    x = some (x.getD default) :=
  (Option.getD_of_ne_none (Option.isSome_iff_ne_none.mp h) default).symm

/-- What succeeds step by step succeeded in its first step. -/
theorem exists_of_bind_eq_ok {ε α β : Type} {x : Except ε α} {f : α → Except ε β} {b : β}
    (h : (x >>= f) = .ok b) : ∃ a, x = .ok a ∧ f a = .ok b := by
  cases x with
  | error e => cases h
  | ok a => exact ⟨a, rfl, h⟩

/-- What succeeds behind a check passed it. -/
theorem passed_of_eq_ok {ε α β : Type} {refused : Prop} [Decidable refused] {e : ε}
    {f : α → Except ε β} {x : Except ε β} {b : β}
    (h : (if refused then Except.error e >>= f else x) = .ok b) : ¬ refused ∧ x = .ok b := by
  split at h
  · cases h
  · next hpassed => exact ⟨hpassed, h⟩

/-- What succeeds for all of some inputs succeeds for each of them. -/
theorem forall₂_of_mapM_eq_ok {ε α β : Type} {f : α → Except ε β} {xs : List α} {ys : List β}
    (h : xs.mapM f = .ok ys) : List.Forall₂ (fun x y => f x = .ok y) xs ys := by
  induction xs generalizing ys with
  | nil =>
    cases h
    exact .nil
  | cons x xs ih =>
    rw [List.mapM_cons] at h
    obtain ⟨y, hy, h⟩ := exists_of_bind_eq_ok h
    obtain ⟨ys, hys, h⟩ := exists_of_bind_eq_ok h
    cases h
    exact .cons hy (ih hys)

/-- In lists that are related one by one each member has a counterpart. -/
theorem exists_of_forall₂ {α β : Type} {R : α → β → Prop} {xs : List α} {ys : List β} {x : α}
    (h : List.Forall₂ R xs ys) (hx : x ∈ xs) : ∃ y ∈ ys, R x y := by
  induction h with
  | nil => cases hx
  | @cons a b _ _ hab _ ih =>
    rcases List.mem_cons.mp hx with rfl | hx
    · exact ⟨b, List.mem_cons_self, hab⟩
    · obtain ⟨y, hy, hxy⟩ := ih hx
      exact ⟨y, List.mem_cons_of_mem b hy, hxy⟩

end Refactoring

namespace Rewrite

/-- The new content, if there is one. -/
def content? : Rewrite → Option String
  | .edit content _ _ => some content
  | .advice _ _ => none

theorem exists_of_content? {x : Except RewriteError Rewrite} {content : String}
    (h : x.toOption.bind content? = some content) :
    ∃ shifts description, x = .ok (.edit content shifts description) := by
  match x with
  | .error e => cases h
  | .ok (.advice _ _) => cases h
  | .ok (.edit _ shifts description) =>
    cases h
    exact ⟨shifts, description, rfl⟩

open TextEdit EditSet

variable {source description : String} {edits : List TextEdit} {r : Rewrite}

/-- Edits that stand in reading order, fit and do not overlap make the rewrite that they come to. -/
theorem ofEdits_of_apart {content : String} {shifts : List LineShift}
    (hsorted : edits.Pairwise fun a b => before a b = true)
    (hfits : ∀ e ∈ edits, e.Fits source.utf8ByteSize) (hapart : Apart edits)
    (hcontent : applyTo? ⟨edits⟩ source = some content)
    (hshifts : lineShifts? ⟨edits⟩ source = some shifts) :
    ofEdits source edits description = .ok (.edit content shifts description) := by
  have hset : EditSet.ofList edits source.utf8ByteSize = .ok ⟨edits⟩ :=
    (ofList_eq_ok_iff ⟨hsorted.imp before_iff.mp, fun _ => rfl⟩ _).mpr ⟨rfl, hfits, hapart⟩
  rw [ofEdits, hset]
  simp only [hcontent, hshifts]

/-- A list of edits that makes a rewrite is accepted, and read in order its edits turn the source
into the new content. -/
theorem ofEdits_eq_ok (h : ofEdits source edits description = .ok r) :
    ∃ ordered content shifts, r = .edit content shifts description ∧
      InReadingOrder edits ordered ∧ Apart ordered ∧ Rewrites 0 source ordered content := by
  rw [ofEdits] at h
  split at h
  · cases h
  · next set hset =>
    split at h
    · next content shifts hcontent hshifts =>
      obtain ⟨ordered, ho, hapart, hrewrites⟩ :=
        exists_rewrites_of_applyTo? hset (lineShifts?_eq_some hshifts).2 hcontent
      exact ⟨ordered, content, shifts, (Except.ok.inj h).symm, ho, hapart, hrewrites⟩
    · cases h

/-- One replacement puts its text in the place of what it covers. -/
theorem ofEdits_replace_eq_ok {first last : Nat} {text label : String}
    (h : ofEdits source [.replace first last text label] description = .ok r) :
    ∃ front removed back shifts, source = front ++ removed ++ back ∧
      front.utf8ByteSize = first ∧ (front ++ removed).utf8ByteSize = last ∧
      r = .edit (front ++ text ++ back) shifts description := by
  obtain ⟨ordered, content, shifts, rfl, ho, -, hrewrites⟩ := ofEdits_eq_ok h
  have hone : InReadingOrder [.replace first last text label] [.replace first last text label] :=
    ⟨List.pairwise_singleton _ _, fun _ => rfl⟩
  obtain rfl := ho.unique hone
  obtain _ | ⟨hstart, hstop, hrest⟩ := hrewrites
  next front removed back out =>
    cases hrest
    have hfirst : 0 + front.utf8ByteSize = first := hstart
    have hlast : first + removed.utf8ByteSize = last := hstop
    refine ⟨front, removed, back, shifts, rfl, by omega, ?_, rfl⟩
    rw [String.utf8ByteSize_append]
    omega

/-- One deletion leaves what stands around it. -/
theorem ofEdits_delete_eq_ok {first last : Nat} {label : String}
    (h : ofEdits source [.delete first last label] description = .ok r) :
    ∃ front removed back shifts, source = front ++ removed ++ back ∧
      front.utf8ByteSize = first ∧ (front ++ removed).utf8ByteSize = last ∧
      r = .edit (front ++ back) shifts description := by
  obtain ⟨front, removed, back, shifts, hsource, hfirst, hlast, hr⟩ := ofEdits_replace_eq_ok h
  rw [String.append_empty] at hr
  exact ⟨front, removed, back, shifts, hsource, hfirst, hlast, hr⟩

end Rewrite

end Amend
