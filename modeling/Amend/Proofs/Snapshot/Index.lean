import Amend.Snapshot.Index
import Amend.Proofs.Json
import Amend.Proofs.Timestamp
import Amend.Proofs.Uid

/-!
# The index is kept as it is

The document of an index is read back as the same index, as long as its counters are words and its
times are readings of a clock.  Every change that a store makes keeps that.
-/

namespace Amend

namespace Json

theorem mapM_map {α : Type} {f : Json → Option α} {g : α → Json} {xs : List α}
    (h : ∀ x ∈ xs, f (g x) = some x) : (xs.map g).mapM f = some xs := by
  induction xs with
  | nil => rfl
  | cons x xs ih =>
    rw [List.map_cons, List.mapM_cons, h x List.mem_cons_self,
      ih fun y hy => h y (List.mem_cons_of_mem x hy)]
    rfl

theorem list?_list {α : Type} {f : Json → Option α} {g : α → Json} {xs : List α}
    (h : ∀ x ∈ xs, f (g x) = some x) : (list g xs).list? f = some xs :=
  mapM_map h

/-- Every element that is read from a written list is read from one of its elements. -/
theorem exists_of_mem_list? {α β : Type} {f : Json → Option β} {g : α → Json} {xs : List α}
    {ys : List β} (h : (list g xs).list? f = some ys) {y : β} (hy : y ∈ ys) :
    ∃ x ∈ xs, f (g x) = some y := by
  change (xs.map g).mapM f = some ys at h
  induction xs generalizing ys with
  | nil =>
    cases h
    cases hy
  | cons x xs ih =>
    rw [List.map_cons, List.mapM_cons] at h
    simp only [Option.bind_eq_bind, Option.bind_eq_some_iff] at h
    obtain ⟨z, hz, zs, hzs, h⟩ := h
    cases h
    rcases List.mem_cons.mp hy with rfl | hy
    · exact ⟨x, List.mem_cons_self, hz⟩
    · obtain ⟨x', hx', hf⟩ := ih hy hzs
      exact ⟨x', List.mem_cons_of_mem x hx', hf⟩

theorem str?_str (s : String) : (str s).str? = some s := rfl

theorem word?_nat {n : Nat} (h : n < MachineWord.card) : (nat n).word? = some n := by
  have hle : (n : Int) ≤ MachineWord.card - 1 := by omega
  simp [nat, word?, intIn?, hle]

theorem readable_nat (n : Nat) : Readable (nat n) := .int n

theorem readable_list {α : Type} {g : α → Json} {xs : List α} (h : ∀ x ∈ xs, Readable (g x)) :
    Readable (list g xs) := by
  refine .arr fun j hj => ?_
  obtain ⟨x, hx, rfl⟩ := List.mem_map.mp hj
  exact h x hx

end Json

/-! ## Snapshots and sets -/

/-- A snapshot whose numbers are words and whose time is a reading. -/
structure Snapshot.IsValid (s : Snapshot) : Prop where
  createdAt : s.createdAt.IsReading
  size : s.size < MachineWord.card
  sequence : s.sequence < MachineWord.card

theorem Snapshot.ofJson?_toJson {s : Snapshot} (h : s.IsValid) : ofJson? s.toJson = some s := by
  simp [ofJson?, toJson, Json.fields?, fieldNames, List.lookup_cons, Json.str?_str,
    Json.word?_nat h.size, Json.word?_nat h.sequence, Uid.ofText?_render,
    Timestamp.ofText?_render h.createdAt]

theorem Snapshot.readable_toJson (s : Snapshot) : Json.Readable s.toJson := by
  refine .obj fun f hf => ?_
  simp only [List.mem_cons, List.not_mem_nil, or_false] at hf
  rcases hf with rfl | rfl | rfl | rfl | rfl | rfl | rfl
  · exact .str s.id.render
  · exact .str s.source.text
  · exact .str s.location.text
  · exact .str s.checksum
  · exact .str s.createdAt.render
  · exact Json.readable_nat s.size
  · exact Json.readable_nat s.sequence

theorem SnapshotSet.ofJson?_toJson {s : SnapshotSet} (h : s.createdAt.IsReading) :
    ofJson? s.toJson = some s := by
  have hmembers : (Json.list (fun m : Uid => .str m.render) s.members).list?
      (fun m => m.str?.bind Uid.ofText?) = some s.members :=
    Json.list?_list fun m _ => by rw [Json.str?_str, Option.bind_some, Uid.ofText?_render]
  simp [ofJson?, toJson, Json.fields?, List.lookup_cons, Json.str?_str, Uid.ofText?_render,
    Timestamp.ofText?_render h, hmembers]

theorem SnapshotSet.readable_toJson (s : SnapshotSet) : Json.Readable s.toJson := by
  refine .obj fun f hf => ?_
  simp only [List.mem_cons, List.not_mem_nil, or_false] at hf
  rcases hf with rfl | rfl | rfl
  · exact .str s.id.render
  · exact .str s.createdAt.render
  · exact Json.readable_list fun m _ => .str m.render

namespace SnapshotIndex

/-! ## Times of restores -/

/-- Marks in the order of their names, each name once. -/
def Ordered (marks : List (Uid × Timestamp)) : Prop :=
  marks.Pairwise fun a b => a.1.toNat < b.1.toNat

theorem insertMark_of_forall_lt {id : Uid} {t : Timestamp} {marks : List (Uid × Timestamp)}
    (h : ∀ m ∈ marks, m.1.toNat < id.toNat) : insertMark id t marks = marks ++ [(id, t)] := by
  induction marks with
  | nil => rfl
  | cons m marks ih =>
    obtain ⟨name, u⟩ := m
    have hlt : name.toNat < id.toNat := h (name, u) List.mem_cons_self
    have hne : name ≠ id := by
      rintro rfl
      exact Nat.lt_irrefl _ hlt
    rw [insertMark, if_neg hne, if_neg (Nat.lt_asymm hlt),
      ih fun m hm => h m (List.mem_cons_of_mem _ hm), List.cons_append]

theorem mem_insertMark {id : Uid} {t : Timestamp} {marks : List (Uid × Timestamp)}
    {m : Uid × Timestamp} (h : m ∈ insertMark id t marks) : m = (id, t) ∨ m ∈ marks := by
  induction marks with
  | nil => exact Or.inl (List.mem_singleton.mp h)
  | cons first marks ih =>
    rw [insertMark] at h
    split at h
    · exact (List.mem_cons.mp h).imp_right (List.mem_cons_of_mem first)
    · split at h
      · exact List.mem_cons.mp h
      · rcases List.mem_cons.mp h with rfl | h
        · exact Or.inr List.mem_cons_self
        · exact (ih h).imp_right (List.mem_cons_of_mem first)

theorem Ordered.insertMark {marks : List (Uid × Timestamp)} (h : Ordered marks) (id : Uid)
    (t : Timestamp) : Ordered (insertMark id t marks) := by
  induction marks with
  | nil => exact List.pairwise_singleton _ _
  | cons m marks ih =>
    obtain ⟨hfirst, hrest⟩ := List.pairwise_cons.mp h
    rw [SnapshotIndex.insertMark]
    split
    case isTrue heq =>
      rw [heq] at hfirst
      exact List.pairwise_cons.mpr ⟨hfirst, hrest⟩
    case isFalse hne =>
      split
      case isTrue hlt =>
        refine List.pairwise_cons.mpr ⟨fun n hn => ?_, h⟩
        rcases List.mem_cons.mp hn with rfl | hn
        · exact hlt
        · exact Nat.lt_trans hlt (hfirst n hn)
      case isFalse hge =>
        refine List.pairwise_cons.mpr ⟨fun n hn => ?_, ih hrest⟩
        rcases mem_insertMark hn with rfl | hn
        · have hnum : m.1.toNat ≠ id.toNat := fun h => hne (Uid.toNat_injective h)
          exact Nat.lt_of_le_of_ne (Nat.le_of_not_lt hge) hnum
        · exact hfirst n hn

theorem foldlM_insertMark (front : List (Uid × Timestamp)) {marks : List (Uid × Timestamp)}
    (h : Ordered (front ++ marks))
    (hreadings : ∀ m ∈ marks, m.2.IsReading) :
    (marks.map fun (id, t) => (id.render, Json.str t.render)).foldlM (fun marks (name, t) => do
      return SnapshotIndex.insertMark (← Uid.ofText? name) (← t.str? >>= Timestamp.ofText?) marks)
        front = some (front ++ marks) := by
  induction marks generalizing front with
  | nil => simp
  | cons m marks ih =>
    obtain ⟨id, t⟩ := m
    have hlast : SnapshotIndex.insertMark id t front = front ++ [(id, t)] :=
      insertMark_of_forall_lt fun n hn =>
        (List.pairwise_append.mp h).2.2 n hn (id, t) List.mem_cons_self
    have ht : t.IsReading := hreadings (id, t) List.mem_cons_self
    have hrest := ih (front ++ [(id, t)]) (by simpa using h)
      fun m hm => hreadings m (List.mem_cons_of_mem _ hm)
    rw [List.append_assoc, List.singleton_append] at hrest
    rw [List.map_cons, List.foldlM_cons]
    simpa [Json.str?_str, Uid.ofText?_render, Timestamp.ofText?_render ht, hlast] using hrest

theorem marks?_restored {marks : List (Uid × Timestamp)} (hordered : Ordered marks)
    (hreadings : ∀ m ∈ marks, m.2.IsReading) :
    marks? (.obj (marks.map fun (id, t) => (id.render, .str t.render))) = some marks :=
  foldlM_insertMark [] hordered hreadings

/-! ## The whole index -/

/-- An index whose numbers are words, whose times are readings and whose marks are in order. -/
structure IsValid (i : SnapshotIndex) : Prop where
  nextSequence : i.nextSequence < MachineWord.card
  snapshots : ∀ s ∈ i.snapshots, s.IsValid
  sets : ∀ s ∈ i.sets, s.createdAt.IsReading
  restored : Ordered i.restored
  readings : ∀ m ∈ i.restored, m.2.IsReading

theorem readable_toJson (i : SnapshotIndex) : Json.Readable i.toJson := by
  refine .obj fun f hf => ?_
  simp only [List.mem_cons, List.not_mem_nil, or_false] at hf
  rcases hf with rfl | rfl | rfl | rfl
  · exact Json.readable_nat i.nextSequence
  · exact Json.readable_list fun s _ => s.readable_toJson
  · exact Json.readable_list fun s _ => s.readable_toJson
  · refine .obj fun f hf => ?_
    obtain ⟨m, -, rfl⟩ := List.mem_map.mp hf
    exact .str m.2.render

theorem ofJson?_toJson {i : SnapshotIndex} (h : i.IsValid) : ofJson? i.toJson = some i := by
  have hsnapshots : (Json.list Snapshot.toJson i.snapshots).list? Snapshot.ofJson? =
      some i.snapshots := Json.list?_list fun s hs => Snapshot.ofJson?_toJson (h.snapshots s hs)
  have hsets : (Json.list SnapshotSet.toJson i.sets).list? SnapshotSet.ofJson? = some i.sets :=
    Json.list?_list fun s hs => SnapshotSet.ofJson?_toJson (h.sets s hs)
  simp [ofJson?, toJson, Json.fields?, fieldNames, List.lookup_cons, Json.word?_nat h.nextSequence,
    hsnapshots, hsets, marks?_restored h.restored h.readings]

/-- The document is read as the value that was written, whatever the index holds. -/
theorem decode?_encode_eq (i : SnapshotIndex) : decode? i.encode = ofJson? i.toJson := by
  have htext : String.fromUTF8? i.encode = some i.toJson.document := by
    exact dif_pos i.toJson.document.isValidUTF8
  rw [decode?, htext, Option.bind_eq_bind, Option.bind_some,
    Json.parse?_document (readable_toJson i)]
  rfl

/-- What was written as an index is read as that index. -/
theorem decode?_encode {i : SnapshotIndex} (h : i.IsValid) : decode? i.encode = some i := by
  rw [decode?_encode_eq]
  exact ofJson?_toJson h

/-! ## Changes -/

variable {i : SnapshotIndex}

theorem isValid_empty : empty.IsValid := by
  constructor <;> simp [empty, MachineWord.card, Ordered]

theorem IsValid.add (h : i.IsValid) {s : Snapshot} (hs : s.IsValid) : (i.add s).IsValid where
  nextSequence := by
    have hcard : 0 < MachineWord.card := by decide
    change MachineWord.wrap (i.nextSequence + 1) < MachineWord.card
    rw [MachineWord.wrap]
    exact Nat.mod_lt _ hcard
  snapshots := by
    intro t ht
    rcases List.mem_append.mp ht with ht | ht
    · exact h.snapshots t ht
    · rwa [List.mem_singleton.mp ht]
  sets := h.sets
  restored := h.restored
  readings := h.readings

theorem IsValid.addSet (h : i.IsValid) {s : SnapshotSet} (hs : s.createdAt.IsReading) :
    (i.addSet s).IsValid where
  nextSequence := h.nextSequence
  snapshots := h.snapshots
  sets := by
    intro t ht
    rcases List.mem_append.mp ht with ht | ht
    · exact h.sets t ht
    · rwa [List.mem_singleton.mp ht]
  restored := h.restored
  readings := h.readings

theorem IsValid.drop (h : i.IsValid) (id : Uid) : (i.drop id).IsValid where
  nextSequence := h.nextSequence
  snapshots := fun s hs => h.snapshots s (List.mem_of_mem_eraseP hs)
  sets := h.sets
  restored := h.restored.filter _
  readings := fun m hm => h.readings m (List.mem_of_mem_filter hm)

theorem IsValid.mark (h : i.IsValid) (id : Uid) {t : Timestamp} (ht : t.IsReading) :
    (i.mark id t).IsValid where
  nextSequence := h.nextSequence
  snapshots := h.snapshots
  sets := h.sets
  restored := h.restored.insertMark id t
  readings := by
    intro m hm
    rcases mem_insertMark hm with rfl | hm
    · exact ht
    · exact h.readings m hm

theorem lookup_insertMark_self {id : Uid} {t : Timestamp} {marks : List (Uid × Timestamp)} :
    (insertMark id t marks).lookup id = some t := by
  induction marks with
  | nil => rw [insertMark, List.lookup_cons_self]
  | cons m marks ih =>
    obtain ⟨other, u⟩ := m
    rw [insertMark]
    split
    case isTrue => exact List.lookup_cons_self
    case isFalse hne =>
      split
      · exact List.lookup_cons_self
      · rw [List.lookup_cons, beq_eq_false_iff_ne.mpr (Ne.symm hne)]
        exact ih

theorem lookup_insertMark_of_ne {id other : Uid} (hne : other ≠ id) {t : Timestamp}
    {marks : List (Uid × Timestamp)} :
    (insertMark id t marks).lookup other = marks.lookup other := by
  have hbeq : (other == id) = false := beq_eq_false_iff_ne.mpr hne
  induction marks with
  | nil => rw [insertMark, List.lookup_cons, hbeq]
  | cons m marks ih =>
    obtain ⟨k, u⟩ := m
    rw [insertMark]
    split
    case isTrue hk => rw [List.lookup_cons, List.lookup_cons, hk, hbeq]
    case isFalse =>
      split
      · rw [List.lookup_cons, hbeq]
      · rw [List.lookup_cons, List.lookup_cons, ih]

/-- A snapshot that was put back counts as put back. -/
theorem restoredAt?_mark_self (i : SnapshotIndex) (id : Uid) (t : Timestamp) :
    (i.mark id t).restoredAt? id = some t := lookup_insertMark_self

/-- Other snapshots count as before. -/
theorem restoredAt?_mark_of_ne (i : SnapshotIndex) {id other : Uid} (hne : other ≠ id)
    (t : Timestamp) : (i.mark id t).restoredAt? other = i.restoredAt? other :=
  lookup_insertMark_of_ne hne

theorem mark_ne_empty (i : SnapshotIndex) (id : Uid) (t : Timestamp) : i.mark id t ≠ empty := by
  intro hempty
  have hmark := restoredAt?_mark_self i id t
  rw [hempty] at hmark
  cases hmark

/-- A snapshot that is in the index stays when one more is added behind it. -/
theorem find?_add {id : Uid} {t : Snapshot} (h : i.find? id = some t) (s : Snapshot) :
    (i.add s).find? id = some t := by
  rw [find?] at h
  rw [find?, add, List.find?_append, h, Option.some_or]

/-- A snapshot stays when another one is dropped. -/
theorem find?_drop_of_ne {id other : Uid} (h : id ≠ other) :
    (i.drop other).find? id = i.find? id := by
  simp only [find?, drop]
  induction i.snapshots with
  | nil => rfl
  | cons s ss ih =>
    by_cases hother : s.id = other
    · have hid : s.id ≠ id := fun heq => h (heq.symm.trans hother)
      rw [List.eraseP_cons_of_pos (by simpa using hother),
        List.find?_cons_of_neg (by simpa using hid)]
    · rw [List.eraseP_cons_of_neg (by simpa using hother), List.find?_cons, List.find?_cons, ih]

theorem mem_of_find? {id : Uid} {t : Snapshot} (h : i.find? id = some t) :
    t ∈ i.snapshots ∧ t.id = id :=
  ⟨List.mem_of_find?_eq_some h, by simpa using List.find?_some h⟩

end SnapshotIndex

end Amend
