import Amend.Merge
import Amend.Proofs.Text.Cut
import Amend.Proofs.Text.Visible

/-!
# A merge changes blanks alone

The pieces of a merged file come from two texts, and the only thing known about the pieces that are
exchanged is that they have the same words. That is enough for the characters that are not blank:
they are the characters of the words, so a piece can be exchanged for another one with the same
words without a character being lost, doubled or moved past another.

`Merge.Divides` says where a source is cut without mention of the program, and `merge` is described
by the division of either source alone.
-/

namespace Amend

namespace Merge

open Syntax

variable {parse : Parser} {source a b c : String}

/-! ## Cutting a source at its declarations -/

/-- The type declarations at the top of a tree. -/
def declarations (tree : Tree) : List Tree :=
  tree.children.filter (Java.typeDeclarations.contains ·.kind)

/-- A source that parses without fault comes apart in the text before its first type declaration at
the top, the text from there to the end of its last one, and the text after that. -/
def Divides (parse : Parser) (source header body trailer : String) : Prop :=
  ∃ tree first last, parse source = some tree ∧ tree.hasError = false ∧
    (declarations tree).head? = some first ∧ (declarations tree).getLast? = some last ∧
    source = header ++ body ++ trailer ∧ header.utf8ByteSize = first.start ∧
    header.utf8ByteSize + body.utf8ByteSize = last.stop

theorem Divides.eq_append (h : Divides parse source a b c) : source = a ++ b ++ c := by
  obtain ⟨-, -, -, -, -, -, -, hsource, -⟩ := h
  exact hsource

/-- No source comes apart in two ways. -/
theorem Divides.unique {a' b' c' : String} (h : Divides parse source a b c)
    (h' : Divides parse source a' b' c') : a = a' ∧ b = b' ∧ c = c' := by
  obtain ⟨tree, first, last, htree, -, hfirst, hlast, rfl, hstart, hstop⟩ := h
  obtain ⟨tree', first', last', htree', -, hfirst', hlast', hsource, hstart', hstop'⟩ := h'
  obtain rfl : tree = tree' := Option.some.inj (htree.symm.trans htree')
  obtain rfl : first = first' := Option.some.inj (hfirst.symm.trans hfirst')
  obtain rfl : last = last' := Option.some.inj (hlast.symm.trans hlast')
  obtain ⟨hab, hc⟩ := Text.append_inj_of_size_eq hsource (by
    rw [String.utf8ByteSize_append, String.utf8ByteSize_append, hstop, hstop'])
  obtain ⟨ha, hb⟩ := Text.append_inj_of_size_eq hab (hstart.trans hstart'.symm)
  exact ⟨ha, hb, hc⟩

/-- The declarations are found among the nodes below the root. -/
theorem map_tree_filter_namedChildren (tree : Tree) :
    ((Node.root tree).namedChildren.filter (·.isOneOf Java.typeDeclarations)).map (·.tree) =
      declarations tree := by
  have hnamed : ∀ t : Tree,
      (Java.typeDeclarations.contains t.kind && t.kind.isNamed) =
        Java.typeDeclarations.contains t.kind := by
    intro t
    by_cases h : t.kind ∈ Java.typeDeclarations
    · simp only [Java.typeDeclarations, List.mem_cons, List.not_mem_nil, or_false] at h
      rcases h with h | h | h | h | h <;> rw [h] <;> rfl
    · simp [h]
  have htrees : (Node.root tree).children.map (·.tree) = tree.children := by
    rw [Node.children, List.mapIdx_eq_zipIdx_map, List.map_map]
    exact List.zipIdx_map_fst 0 tree.children
  rw [Node.namedChildren, List.filter_filter, declarations, ← htrees, List.filter_map]
  simp only [Node.isOneOf, Node.kind, Function.comp_def, hnamed]

theorem declarationSpan?_of_tree {tree : Tree} (htree : parse source = some tree)
    (herror : tree.hasError = false) :
    declarationSpan? parse source =
      (declarations tree).head?.bind fun first =>
        (declarations tree).getLast?.map fun last => ⟨first.start, last.stop⟩ := by
  simp only [declarationSpan?, Parser.verify, htree, herror, Bool.false_eq_true, if_false,
    ← map_tree_filter_namedChildren, List.head?_map, List.getLast?_map]
  cases hfirst : ((Node.root tree).namedChildren.filter _).head? with
  | none => rfl
  | some first =>
    cases hlast : ((Node.root tree).namedChildren.filter _).getLast? with
    | none => rfl
    | some last => rfl

theorem declarationSpan?_eq_some_iff {span : Span} :
    declarationSpan? parse source = some span ↔
      ∃ tree first last, parse source = some tree ∧ tree.hasError = false ∧
        (declarations tree).head? = some first ∧ (declarations tree).getLast? = some last ∧
        span = ⟨first.start, last.stop⟩ := by
  constructor
  · intro h
    cases htree : parse source with
    | none => simp [declarationSpan?, Parser.verify, htree] at h
    | some tree =>
      cases herror : tree.hasError with
      | true => simp [declarationSpan?, Parser.verify, htree, herror] at h
      | false =>
        rw [declarationSpan?_of_tree htree herror] at h
        obtain ⟨first, hfirst, h⟩ := Option.bind_eq_some_iff.mp h
        obtain ⟨last, hlast, h⟩ := Option.map_eq_some_iff.mp h
        exact ⟨tree, first, last, rfl, herror, hfirst, hlast, h.symm⟩
  · rintro ⟨tree, first, last, htree, herror, hfirst, hlast, rfl⟩
    rw [declarationSpan?_of_tree htree herror, hfirst, hlast]
    rfl

theorem cut?_eq_some_iff {span : Span} :
    cut? source span = some (a, b, c) ↔
      source = a ++ b ++ c ∧ a.utf8ByteSize = span.start ∧
        a.utf8ByteSize + b.utf8ByteSize = span.stop := by
  constructor
  · intro h
    rw [cut?] at h
    simp only [Option.bind_eq_bind, Option.bind_eq_some_iff, Option.pure_def, Option.some.injEq,
      Prod.mk.injEq] at h
    obtain ⟨a', ha, b', hb, c', hc, rfl, rfl, rfl⟩ := h
    obtain ⟨x, y, hsource, hx, ha'⟩ := Text.slice?_eq_some_iff.mp ha
    obtain ⟨a₂, c₂, hsource₂, ha₂, hb'⟩ := Text.slice?_eq_some_iff.mp hb
    obtain ⟨a₃, x₃, hsource₃, ha₃, hc'⟩ := Text.slice?_eq_some_iff.mp hc
    -- The three slices are cut out one by one: that they fit together is read off their sizes.
    have hxempty : x = "" := String.utf8ByteSize_eq_zero_iff.mp hx
    rw [hxempty, String.empty_append] at hsource
    rw [Nat.zero_add] at ha'
    obtain ⟨rfl, -⟩ := Text.append_inj_of_size_eq
      (hsource.symm.trans (hsource₂.trans String.append_assoc)) (ha'.trans ha₂.symm)
    have hsizes := congrArg String.utf8ByteSize hsource₃
    rw [String.utf8ByteSize_append, String.utf8ByteSize_append] at hsizes
    have hx₃ : x₃ = "" := String.utf8ByteSize_eq_zero_iff.mp (by omega)
    rw [hx₃, String.append_empty] at hsource₃
    obtain ⟨-, rfl⟩ := Text.append_inj_of_size_eq (hsource₂.symm.trans hsource₃) (by
      rw [String.utf8ByteSize_append]
      omega)
    exact ⟨hsource₂, ha', by omega⟩
  · rintro ⟨rfl, hstart, hstop⟩
    have hheader : Text.upTo? (a ++ b ++ c) span.start = some a :=
      Text.slice?_eq_some_iff.mpr ⟨"", b ++ c, by simp [String.append_assoc], rfl, by simp [hstart]⟩
    have hbody : Text.slice? (a ++ b ++ c) span.start span.stop = some b := by
      rw [← hstart, ← hstop]
      exact Text.slice?_append a b c
    have htrailer : Text.from? (a ++ b ++ c) span.stop = some c :=
      Text.slice?_eq_some_iff.mpr ⟨a ++ b, "", by simp, by simp [hstop], by simp [← hstop]⟩
    simp [cut?, hheader, hbody, htrailer]

/-- The pieces that `merge` works with are those of the division. -/
theorem cutAtSpan_eq_some_iff :
    (declarationSpan? parse source >>= cut? source) = some (a, b, c) ↔
      Divides parse source a b c := by
  simp only [Option.bind_eq_bind, Option.bind_eq_some_iff, declarationSpan?_eq_some_iff,
    cut?_eq_some_iff, Divides]
  constructor
  · rintro ⟨span, ⟨tree, first, last, htree, herror, hfirst, hlast, rfl⟩, hsource, hstart, hstop⟩
    exact ⟨tree, first, last, htree, herror, hfirst, hlast, hsource, hstart, hstop⟩
  · rintro ⟨tree, first, last, htree, herror, hfirst, hlast, hsource, hstart, hstop⟩
    exact ⟨⟨first.start, last.stop⟩, ⟨tree, first, last, htree, herror, hfirst, hlast, rfl⟩,
      hsource, hstart, hstop⟩

/-! ## The merged text -/

theorem sameWords_iff {x y : String} : sameWords x y = true ↔ Text.words x = Text.words y := by
  rw [sameWords, beq_iff_eq]

/-- The two sources come apart with the same words around their declarations. -/
def Agree (parse : Parser) (original candidate : String) : Prop :=
  ∃ header body trailer header' body' trailer', Divides parse original header body trailer ∧
    Divides parse candidate header' body' trailer' ∧
    Text.words header = Text.words header' ∧ Text.words trailer = Text.words trailer'

variable {original candidate header body trailer header' body' trailer' : String}

/-- The declarations go between the header and the trailer of the original where these have the
words of the candidate's. -/
theorem merge_of_divides (horiginal : Divides parse original header body trailer)
    (hcandidate : Divides parse candidate header' body' trailer')
    (hheader : Text.words header = Text.words header')
    (htrailer : Text.words trailer = Text.words trailer') :
    merge parse original candidate = (header ++ body' ++ trailer, .structural) := by
  have ho := cutAtSpan_eq_some_iff.mpr horiginal
  have hc := cutAtSpan_eq_some_iff.mpr hcandidate
  simp only [Option.bind_eq_bind] at ho hc
  simp [merge, ← Option.bind_assoc, ho, hc, sameWords_iff.mpr hheader, sameWords_iff.mpr htrailer]

/-- Otherwise the candidate becomes the file. -/
theorem merge_of_not_agree (h : ¬ Agree parse original candidate) :
    merge parse original candidate = (candidate, .textual) := by
  rw [merge]
  simp only [Option.bind_eq_bind, Option.pure_def, ← Option.bind_assoc]
  cases ho : (declarationSpan? parse original).bind (cut? original) with
  | none => rfl
  | some pieces =>
    obtain ⟨header, body, trailer⟩ := pieces
    cases hc : (declarationSpan? parse candidate).bind (cut? candidate) with
    | none => rfl
    | some pieces' =>
      obtain ⟨header', body', trailer'⟩ := pieces'
      have hdiffer : ¬ (sameWords header header' && sameWords trailer trailer') = true := by
        intro hsame
        obtain ⟨hheader, htrailer⟩ := Bool.and_eq_true_iff.mp hsame
        exact h ⟨header, body, trailer, header', body', trailer', cutAtSpan_eq_some_iff.mp ho,
          cutAtSpan_eq_some_iff.mp hc, sameWords_iff.mp hheader, sameWords_iff.mp htrailer⟩
      simp [hdiffer]

/-- Merging never alters the rewrite. The merged text has the characters of the candidate, blanks
apart. It is made of the original's header and trailer and the candidate's declarations when the
sources agree around their declarations up to blanks, and is the candidate otherwise. Where they
agree to the byte it is the candidate in any case, so a file merged with itself stays as it is. -/
theorem merge_changes_blanks_only (parse : Parser) (original candidate : String) :
    Text.visible (merge parse original candidate).1 = Text.visible candidate ∧
    ((merge parse original candidate).2 = .structural ↔ Agree parse original candidate) ∧
    (match (merge parse original candidate).2 with
      | .structural => ∃ header body trailer header' body' trailer',
          Divides parse original header body trailer ∧
          Divides parse candidate header' body' trailer' ∧
          (merge parse original candidate).1 = header ++ body' ++ trailer
      | .textual => (merge parse original candidate).1 = candidate) ∧
    (∀ header trailer body body', Divides parse original header body trailer →
      Divides parse candidate header body' trailer →
      (merge parse original candidate).1 = candidate) ∧
    (merge parse candidate candidate).1 = candidate := by
  have hbytes : ∀ original header trailer body body', Divides parse original header body trailer →
      Divides parse candidate header body' trailer →
      (merge parse original candidate).1 = candidate := by
    intro original header trailer body body' horiginal hcandidate
    rw [merge_of_divides horiginal hcandidate rfl rfl]
    exact hcandidate.eq_append.symm
  have hself : (merge parse candidate candidate).1 = candidate := by
    by_cases hagree : Agree parse candidate candidate
    · obtain ⟨header, body, trailer, -, -, -, hdivides, -, -, -⟩ := hagree
      exact hbytes candidate header trailer body body hdivides hdivides
    · rw [merge_of_not_agree hagree]
  by_cases hagree : Agree parse original candidate
  · have hagree' := hagree
    obtain ⟨header, body, trailer, header', body', trailer', horiginal, hcandidate, hheader,
      htrailer⟩ := hagree
    have hmerge := merge_of_divides horiginal hcandidate hheader htrailer
    have hvisible : Text.visible (header ++ body' ++ trailer) = Text.visible candidate := by
      rw [hcandidate.eq_append]
      simp only [Text.visible_append, Text.visible_eq_of_words_eq hheader,
        Text.visible_eq_of_words_eq htrailer]
    refine ⟨?_, ?_, ?_, hbytes original, hself⟩
    · rw [hmerge]
      exact hvisible
    · rw [hmerge]
      exact iff_of_true rfl hagree'
    · rw [hmerge]
      exact ⟨header, body, trailer, header', body', trailer', horiginal, hcandidate, rfl⟩
  · have hmerge := merge_of_not_agree hagree
    refine ⟨?_, ?_, ?_, hbytes original, hself⟩
    · rw [hmerge]
    · exact iff_of_false (by rw [hmerge]; exact MergeMode.noConfusion) hagree
    · rw [hmerge]

/-- A source with one class after a package declaration, which ends at `header`. -/
def classAt (header start stop : Nat) : Tree :=
  ⟨.program, none, false, 0, stop + 1,
    [⟨.packageDeclaration, none, false, 0, header, []⟩,
      ⟨.classDeclaration, none, false, start, stop, []⟩]⟩

/-- A parser that knows two sources with different blanks in front of their class. -/
def sampleParser : Parser := fun source =>
  if source = "package a;\n\n\nclass A \x7b\x7d\n" then some (classAt 10 13 23)
  else if source = "package a; class A \x7b int x; \x7d\n" then some (classAt 10 11 29)
  else none

/-- The blank lines in front of the class are kept although the rewrite has none. -/
theorem merge_keeps_blank_lines :
    merge sampleParser "package a;\n\n\nclass A \x7b\x7d\n"
      "package a; class A \x7b int x; \x7d\n" =
        ("package a;\n\n\nclass A \x7b int x; \x7d\n", .structural) ∧
      Text.visible "package a;\n\n\nclass A \x7b int x; \x7d\n" =
        Text.visible "package a; class A \x7b int x; \x7d\n" := by
  have horiginal : Divides sampleParser "package a;\n\n\nclass A \x7b\x7d\n" "package a;\n\n\n"
      "class A \x7b\x7d" "\n" :=
    ⟨classAt 10 13 23, _, _, rfl, rfl, rfl, rfl, by decide, rfl, rfl⟩
  have hcandidate : Divides sampleParser "package a; class A \x7b int x; \x7d\n" "package a; "
      "class A \x7b int x; \x7d" "\n" :=
    ⟨classAt 10 11 29, _, _, rfl, rfl, rfl, rfl, by decide, rfl, rfl⟩
  have hmerge := merge_of_divides horiginal hcandidate (by decide) rfl
  have hvisible := (merge_changes_blanks_only sampleParser "package a;\n\n\nclass A \x7b\x7d\n"
    "package a; class A \x7b int x; \x7d\n").1
  rw [hmerge] at hvisible
  exact ⟨hmerge, hvisible⟩

end Merge

end Amend
