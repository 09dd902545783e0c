import Apidoc.Proofs.Pattern.Plain
import Apidoc.Proofs.PrintedType.Words

namespace Apidoc.PrintedType

open Pattern

def endMarks : List Char := [',', '=', ')', '.']

theorem isPlain_decoration {cs : List Char} (marks : cs ⊆ '<' :: '>' :: endMarks) (form : Form) :
    form.decoration.IsPlain cs := by
  have reference : referencePart.IsPlain cs := IsPlain.mono (by decide) marks
  have pointer : pointerPart.IsPlain cs := IsPlain.mono (by decide) marks
  unfold Form.decoration
  split
  · exact reference
  · split
    · exact pointer
    · exact trivial

theorem isPlain_looseDecoration {cs : List Char} (marks : cs ⊆ '<' :: '>' :: endMarks) :
    looseDecoration.IsPlain cs :=
  IsPlain.mono (by decide) marks

theorem subset_brackets {cs : List Char} (marks : cs ⊆ endMarks) : cs ⊆ '<' :: '>' :: endMarks :=
  fun _ member => .tail _ (.tail _ (marks member))

theorem isWord_endMarks : ∀ c ∈ endMarks, Text.isWord c = false := by decide

section

variable {cs : List Char} (marks : cs ⊆ endMarks)
include marks

theorem not_mem_of_word {w : Text} (word : ∀ c ∈ w, Text.isWord c) : ∀ c ∈ cs, c ∉ w := by
  intro c member inside
  have outside := isWord_endMarks c (marks member)
  rw [word c inside] at outside
  cases outside

theorem isPlain_spaces : spaces.IsPlain cs :=
  IsPlain.mono (by decide) marks

theorem isPlain_anyScope : anyScope.IsPlain cs :=
  IsPlain.mono (by decide) marks

theorem isPlain_wordsPattern {words : List Text} (all : ∀ w ∈ words, Text.IsWordRun w) :
    (wordsPattern words).IsPlain cs := by
  have between : someSpaces.IsPlain cs := IsPlain.mono (by decide) marks
  apply isPlain_separated between
  intro p member
  obtain ⟨w, inside, rfl⟩ := List.mem_map.mp member
  exact not_mem_of_word marks (all w inside).2

theorem isPlain_signPattern (sign : Option Sign) : (signPattern sign).IsPlain cs := by
  rcases sign with _ | sign
  · exact trivial
  · have all : ∀ sign, (signPattern (some sign)).IsPlain endMarks := by
      intro sign
      cases sign <;> decide
    exact (all sign).mono marks

theorem isPlain_namePattern {scopes base : Pattern} (sign : Option Sign)
    (outer : scopes.IsPlain cs) (inner : base.IsPlain cs) :
    (namePattern sign scopes base).IsPlain cs :=
  ⟨isPlain_anyScope marks, isPlain_signPattern marks sign, outer, inner⟩

omit marks in
theorem isPlain_scopesPattern (path : Path) {scopes : Pattern} (outer : scopes.IsPlain cs) :
    (path.scopesPattern scopes).IsPlain cs := by
  cases path with
  | base s => exact trivial
  | inside s path =>
    simp only [Path.scopesPattern]
    split
    · exact outer
    · exact outer

theorem isPlain_anySpelling {choices : List Pattern} (plain : ∀ p ∈ choices, p.IsPlain cs) :
    (anySpelling choices).IsPlain cs := by
  have const : optionalConst.IsPlain cs := IsPlain.mono (by decide) marks
  refine ⟨const, isPlain_oneOf ?_⟩
  intro p member
  obtain ⟨q, choice, rfl⟩ := List.mem_map.mp member
  exact plain q choice

omit marks in
theorem Form.mem_legacyPatterns {form : Form} {p : Pattern} (member : p ∈ form.legacyPatterns) :
    ∃ legacy ∈ legacyNames.map Prod.snd, p = namePattern legacy.sign .empty (.quoted legacy.word) := by
  unfold Form.legacyPatterns at member
  cases found : legacyNames.lookup form.fullSpelling with
  | none =>
    rw [found] at member
    cases member
  | some legacy =>
    rw [found] at member
    obtain ⟨before, behind, eq, -⟩ := List.lookup_eq_some_iff.mp found
    refine ⟨legacy, ?_, List.mem_singleton.mp member⟩
    rw [eq]
    simp

theorem isPlain_legacyPatterns (form : Form) : ∀ p ∈ form.legacyPatterns, p.IsPlain cs := by
  intro p member
  obtain ⟨legacy, listed, rfl⟩ := form.mem_legacyPatterns member
  exact isPlain_namePattern marks _ trivial
    (not_mem_of_word marks (legacyNames_words legacy listed).2)

/-- More choices that are plain. -/
def PlainExtra (cs : List Char) (extra : Extra) : Prop := ∀ key, ∀ p ∈ extra key, p.IsPlain cs

end

section

variable {cs : List Char} {extra : Extra}

mutual

theorem Tree.isPlain_pattern (marks : cs ⊆ endMarks) (level : ',' ∉ cs)
    (added : PlainExtra cs extra) : (t : Tree) → t.Named → (t.pattern extra).IsPlain cs
  | .mk form path, named => by
    have own := isPlain_namePattern marks form.sign
      (isPlain_scopesPattern path (path.isPlain_allScopes marks level added named))
      (path.isPlain_lastPattern marks level added named)
    refine ⟨isPlain_anySpelling marks ?_, isPlain_decoration (subset_brackets marks) form⟩
    intro p member
    rcases List.mem_append.mp member with listed | legacy
    · rcases List.mem_cons.mp listed with rfl | other
      · exact own
      · exact added form.spelling p other
    · exact isPlain_legacyPatterns marks form p legacy

theorem Path.isPlain_allScopes (marks : cs ⊆ endMarks) (level : ',' ∉ cs)
    (added : PlainExtra cs extra) :
    (path : Path) → path.Named → (path.allScopes extra).IsPlain cs
  | .base _, _ => trivial
  | .inside s path, ⟨first, others⟩ => by
    have colons : (Pattern.fixed "::".toList).IsPlain cs := IsPlain.mono (by decide) marks
    exact ⟨s.isPlain_pattern marks level added first, colons,
      path.isPlain_allScopes marks level added others⟩

theorem Path.isPlain_lastPattern (marks : cs ⊆ endMarks) (level : ',' ∉ cs)
    (added : PlainExtra cs extra) :
    (path : Path) → path.Named → (path.lastPattern extra).IsPlain cs
  | .base s, named => s.isPlain_pattern marks level added named
  | .inside _ path, named => path.isPlain_lastPattern marks level added named.2

theorem Segment.isPlain_pattern (marks : cs ⊆ endMarks) (level : ',' ∉ cs)
    (added : PlainExtra cs extra) : (s : Segment) → s.Named → (s.pattern extra).IsPlain cs
  | .plain words, named => isPlain_wordsPattern marks named.1
  | .template words arguments, ⟨name, named⟩ => by
    have opening : (Pattern.fixed "<".toList).IsPlain cs := IsPlain.mono (by decide) marks
    have closing : (Pattern.fixed ">".toList).IsPlain cs := IsPlain.mono (by decide) marks
    have free := isPlain_spaces marks
    exact ⟨isPlain_wordsPattern marks name.1, free, opening, free,
      arguments.isPlain_pattern marks level added named, free, closing⟩

theorem Arguments.isPlain_pattern (marks : cs ⊆ endMarks) (level : ',' ∉ cs)
    (added : PlainExtra cs extra) :
    (arguments : Arguments) → arguments.Named → (arguments.pattern extra).IsPlain cs
  | .one t, named => t.isPlain_pattern marks level added named
  | .cons t rest, ⟨first, others⟩ => by
    have comma : (Pattern.fixed [',']).IsPlain cs := by
      intro c member inside
      exact level (List.mem_singleton.mp inside ▸ member)
    exact ⟨t.isPlain_pattern marks level added first, comma, isPlain_spaces marks,
      rest.isPlain_pattern marks level added others⟩

end

theorem Tree.isPlain_bareName (marks : cs ⊆ endMarks) (level : ',' ∉ cs)
    (added : PlainExtra cs extra) {t : Tree} (named : t.Named) :
    (t.bareName extra).IsPlain cs := by
  cases t with
  | mk form path =>
    exact isPlain_namePattern marks _
      (isPlain_scopesPattern path (path.isPlain_allScopes marks level added named))
      (path.isPlain_lastPattern marks level added named)

end

section

variable {cs : List Char} (marks : cs ⊆ endMarks)
include marks

theorem isPlain_looseChar {d : Char} (other : d ∉ cs) : (looseChar d).IsPlain cs := by
  have pointer : (all [spaces, .group pointerMark .one]).IsPlain cs :=
    IsPlain.mono (by decide) marks
  have reference : (all [spaces, .fixed "&".toList]).IsPlain cs := IsPlain.mono (by decide) marks
  have itself : (Pattern.fixed [d]).IsPlain cs := by
    intro c member inside
    exact other (List.mem_singleton.mp inside ▸ member)
  unfold looseChar
  split
  · exact pointer
  · split
    · exact reference
    · split
      · rename_i comma
        rw [comma] at itself
        exact ⟨itself, isPlain_spaces marks⟩
      · split
        · exact isPlain_spaces marks
        · exact itself

theorem isPlain_loosePattern {s : Text} (free : ∀ c ∈ cs, c ∉ s) : (loosePattern s).IsPlain cs := by
  apply isPlain_all
  intro p member
  obtain ⟨d, inside, rfl⟩ := List.mem_map.mp member
  exact isPlain_looseChar marks fun banned => free d banned inside

theorem isPlain_extra {table : AliasTable} (words : table.OfWords) :
    PlainExtra cs table.extra := by
  intro key p member
  obtain ⟨name, listed, rfl⟩ := List.mem_map.mp member
  have word := words key name listed
  rcases read_of_word word.2 with ⟨form, unsigned, eq⟩ | eq
  · have single : ∀ w ∈ [name], Text.IsWordRun w := by simpa using word
    rw [eq]
    exact isPlain_namePattern marks _ trivial (isPlain_wordsPattern marks single)
  · rw [eq]
    exact ⟨isPlain_anyScope marks, isPlain_loosePattern marks (not_mem_of_word marks word.2)⟩

section

variable {table : AliasTable} (added : PlainExtra cs table.extra) {type : Text} (complete : Bool)
include added

theorem isPlain_of_tree (level : ',' ∉ cs) {t : Tree} (reading : read type = .tree t) :
    (pattern type table complete).IsPlain cs := by
  have own := Tree.isPlain_bareName marks level added (named_of_read reading)
  rw [pattern, reading]
  constructor
  · apply isPlain_anySpelling marks
    intro p member
    rcases List.mem_append.mp member with listed | legacy
    · exact List.forall_mem_cons.mpr ⟨own, added _⟩ p listed
    · exact isPlain_legacyPatterns marks t.form p legacy
  · split
    · exact isPlain_decoration (subset_brackets marks) t.form
    · exact isPlain_looseDecoration (subset_brackets marks)

theorem isPlain_of_verbatim {const : Bool} {s : Text} (reading : read type = .verbatim const s)
    (free : ∀ c ∈ cs, c ∉ s) : (pattern type table complete).IsPlain cs := by
  have own : (all [anyScope, loosePattern s]).IsPlain cs :=
    ⟨isPlain_anyScope marks, isPlain_loosePattern marks free⟩
  rw [pattern, reading]
  apply isPlain_anySpelling marks
  exact List.forall_mem_cons.mpr ⟨own, added _⟩

end

end

theorem isPlain_extra_nil (table : AliasTable) : PlainExtra [] table.extra := by
  intro key p member
  obtain ⟨name, -, rfl⟩ := List.mem_map.mp member
  cases reading : read name with
  | tree t =>
    have added : PlainExtra [] fun _ => [] := fun _ _ none => nomatch none
    exact Tree.isPlain_bareName (List.nil_subset _) List.not_mem_nil added (named_of_read reading)
  | verbatim const s =>
    exact ⟨isPlain_anyScope (List.nil_subset _),
      isPlain_loosePattern (List.nil_subset _) fun _ none => nomatch none⟩

theorem isPlain_pattern (type : Text) (table : AliasTable) (complete : Bool) :
    (pattern type table complete).IsPlain [] := by
  have added := isPlain_extra_nil table
  cases reading : read type with
  | tree t => exact isPlain_of_tree (List.nil_subset _) added complete List.not_mem_nil reading
  | verbatim const s =>
    exact isPlain_of_verbatim (List.nil_subset _) added complete reading fun _ none => nomatch none

end Apidoc.PrintedType
