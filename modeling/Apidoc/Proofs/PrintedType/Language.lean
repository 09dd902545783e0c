import Apidoc.Proofs.Pattern.ReadBack
import Apidoc.Proofs.PrintedType.Documented

namespace Apidoc.PrintedType

open Pattern Notation

theorem isPart_wordsPattern (words : List Text) : IsPart (wordsPattern words) := by
  apply isPart_separated ⟨rfl, rfl⟩
  intro p member
  obtain ⟨w, -, rfl⟩ := List.mem_map.mp member
  exact ⟨rfl, rfl⟩

theorem isPart_signPattern (sign : Option Sign) : IsPart (signPattern sign) := by
  cases sign <;> exact ⟨rfl, rfl⟩

theorem isPart_anyScope : IsPart anyScope := ⟨rfl, rfl⟩

theorem isPart_namePattern {scopes base : Pattern} (sign : Option Sign) (outer : IsPart scopes)
    (inner : IsPart base) : IsPart (namePattern sign scopes base) :=
  isPart_anyScope.seq ((isPart_signPattern sign).seq (outer.seq inner))

theorem isPart_scopesPattern (path : Path) {scopes : Pattern} (outer : IsPart scopes) :
    IsPart (path.scopesPattern scopes) := by
  cases path with
  | base s => exact ⟨rfl, rfl⟩
  | inside s path =>
    simp only [Path.scopesPattern]
    split
    · exact outer
    · exact isPart_group outer.1 rfl

theorem isPart_anySpelling {choices : List Pattern} (parts : ∀ p ∈ choices, isWritable p) :
    IsPart (anySpelling choices) := by
  have grouped : ∀ p ∈ choices.map (group · .one), isWritable p := by
    intro p member
    obtain ⟨q, choice, rfl⟩ := List.mem_map.mp member
    exact (isPart_group (parts q choice) rfl).1
  have const : IsPart optionalConst := ⟨rfl, rfl⟩
  exact const.seq (isPart_group (isWritable_oneOf grouped) rfl)

theorem isPart_legacyPatterns (form : Form) : ∀ p ∈ form.legacyPatterns, IsPart p := by
  unfold Form.legacyPatterns
  cases legacyNames.lookup form.fullSpelling with
  | none => exact fun _ none => nomatch none
  | some legacy =>
    intro p member
    rw [List.mem_singleton.mp member]
    exact isPart_namePattern _ ⟨rfl, rfl⟩ ⟨rfl, rfl⟩

theorem isPart_decoration (form : Form) : IsPart form.decoration := by
  unfold Form.decoration
  split
  · exact ⟨rfl, rfl⟩
  · split <;> exact ⟨rfl, rfl⟩

theorem isPart_loosePattern (s : Text) : IsPart (loosePattern s) := by
  apply isPart_all
  intro p member
  obtain ⟨c, -, rfl⟩ := List.mem_map.mp member
  unfold looseChar
  split
  · exact ⟨rfl, rfl⟩
  · split
    · exact ⟨rfl, rfl⟩
    · split
      · exact ⟨rfl, rfl⟩
      · split <;> exact ⟨rfl, rfl⟩

mutual

theorem Tree.isPart_pattern {extra : Extra} (added : ∀ key, ∀ p ∈ extra key, IsPart p) :
    (t : Tree) → IsPart (t.pattern extra)
  | .mk form path => by
    have own := isPart_namePattern form.sign
      (isPart_scopesPattern path (path.isPart_allScopes added)) (path.isPart_lastPattern added)
    apply IsPart.seq
    · apply isPart_anySpelling
      intro p member
      rcases List.mem_append.mp member with listed | legacy
      · rcases List.mem_cons.mp listed with rfl | named
        · exact own.1
        · exact (added form.spelling p named).1
      · exact (isPart_legacyPatterns form p legacy).1
    · exact isPart_decoration form

theorem Path.isPart_allScopes {extra : Extra} (added : ∀ key, ∀ p ∈ extra key, IsPart p) :
    (path : Path) → IsPart (path.allScopes extra)
  | .base _ => ⟨rfl, rfl⟩
  | .inside s path =>
    (s.isPart_pattern added).seq (IsPart.seq ⟨rfl, rfl⟩ (path.isPart_allScopes added))

theorem Path.isPart_lastPattern {extra : Extra} (added : ∀ key, ∀ p ∈ extra key, IsPart p) :
    (path : Path) → IsPart (path.lastPattern extra)
  | .base s => s.isPart_pattern added
  | .inside _ path => path.isPart_lastPattern added

theorem Segment.isPart_pattern {extra : Extra} (added : ∀ key, ∀ p ∈ extra key, IsPart p) :
    (s : Segment) → IsPart (s.pattern extra)
  | .plain words => isPart_wordsPattern words
  | .template words arguments => by
    have spaces : IsPart spaces := ⟨rfl, rfl⟩
    have bracket (t : Text) : IsPart (.fixed t) := ⟨rfl, rfl⟩
    exact (isPart_wordsPattern words).seq (spaces.seq ((bracket _).seq (spaces.seq
      ((arguments.isPart_pattern added).seq (spaces.seq (bracket _))))))

theorem Arguments.isPart_pattern {extra : Extra} (added : ∀ key, ∀ p ∈ extra key, IsPart p) :
    (arguments : Arguments) → IsPart (arguments.pattern extra)
  | .one t => t.isPart_pattern added
  | .cons t rest =>
    (t.isPart_pattern added).seq
      (IsPart.seq ⟨rfl, rfl⟩ (IsPart.seq ⟨rfl, rfl⟩ (rest.isPart_pattern added)))

end

theorem Reading.isPart_bareName {extra : Extra} (added : ∀ key, ∀ p ∈ extra key, IsPart p)
    (r : Reading) : IsPart (r.bareName extra) := by
  cases r with
  | tree t =>
    exact isPart_namePattern _ (isPart_scopesPattern _ (t.path.isPart_allScopes added))
      (t.path.isPart_lastPattern added)
  | verbatim const s => exact isPart_anyScope.seq (isPart_loosePattern s)

theorem AliasTable.isPart_extra (table : AliasTable) (key : Text) :
    ∀ p ∈ table.extra key, IsPart p := by
  intro p member
  obtain ⟨name, -, rfl⟩ := List.mem_map.mp member
  exact (read name).isPart_bareName fun _ _ absent => absurd absent List.not_mem_nil

theorem isPart_pattern (type : Text) (table : AliasTable) (complete : Bool) :
    IsPart (pattern type table complete) := by
  have choices (r : Reading) : ∀ p ∈ r.bareName table.extra :: table.extra r.spelling, isWritable p :=
    List.forall_mem_cons.mpr
      ⟨(r.isPart_bareName table.isPart_extra).1, fun p named => (table.isPart_extra _ p named).1⟩
  unfold pattern Reading.pattern
  cases read type with
  | verbatim const s => exact isPart_anySpelling (choices _)
  | tree t =>
    have spelled : IsPart (anySpelling (Reading.bareName table.extra (.tree t) ::
        table.extra (Reading.spelling (.tree t)) ++ t.form.legacyPatterns)) := by
      apply isPart_anySpelling
      intro p member
      rcases List.mem_append.mp member with listed | legacy
      · exact choices _ p listed
      · exact (isPart_legacyPatterns t.form p legacy).1
    have any : IsPart looseDecoration := ⟨rfl, rfl⟩
    cases complete with
    | true => exact spelled.seq (isPart_decoration t.form)
    | false => exact spelled.seq any

theorem pattern_of_parse {type : Text} {tree : Tree} (parsed : parse type = .ok tree)
    (table : AliasTable) : pattern type table true = tree.pattern table.extra := by
  rw [pattern, read, parsed]
  cases tree
  rfl

/-- A type pattern is written as a well-formed pattern, and the pattern matches a text exactly when
the text is a documented spelling of the type. -/
theorem matches_iff_mem_documented {aliases : List Alias}
    (words : ∀ a ∈ aliases, Text.IsWordRun a.name) {type : Text} {tree : Tree}
    (parsed : parse type = .ok tree) :
    ∃ p, Notation.read? (pattern type (.ofAliases aliases) true).written = some p ∧
      ∀ u, (p.matchesAll u ↔ (pattern type (.ofAliases aliases) true).matchesAll u) ∧
        (p.matchesAll u ↔ u ∈ tree.documented freeSpace (AliasTable.ofAliases aliases).names) := by
  have part := tree.isPart_pattern (AliasTable.ofAliases aliases).isPart_extra
  obtain ⟨p, read, same⟩ := read?_written part.1
  have spelled := tree.spells (AliasTable.ofWords_ofAliases words)
  rw [pattern_of_parse parsed]
  refine ⟨p, read, ?_⟩
  intro u
  have agree :
      p.matchesAll u ↔ (tree.pattern (AliasTable.ofAliases aliases).extra).matchesAll u := by
    rw [matchesAll_iff, matchesAll_iff]
    exact same none u []
  exact ⟨agree, agree.trans spelled.matchesAll_iff⟩

def intList : Tree :=
  .mk ⟨false, none, false, 0, "QList<int>".toList⟩
    (.base (.template ["QList".toList]
      (.one (.mk ⟨false, none, false, 0, "int".toList⟩ (.base (.plain ["int".toList]))))))

theorem parse_intList : parse "QList<int>".toList = .ok intList := by
  have row : tokens "QList<int>".toList = .ok [⟨.word, [], "QList".toList⟩,
      ⟨.mark, [], ['<']⟩, ⟨.word, [], "int".toList⟩, ⟨.mark, [], ['>']⟩] :=
    tokens_of_readsRow (by decide)
  rw [parse, row]
  rfl

theorem matches_iff_mem_documented_intList :
    (∀ a ∈ [(⟨"Numbers".toList, "QList<int>".toList, false⟩ : Alias)],
        Text.IsWordRun a.name) ∧
      parse "QList<int>".toList = .ok intList ∧
      let table := AliasTable.ofAliases [⟨"Numbers".toList, "QList<int>".toList, false⟩]
      ∃ p, Notation.read? (pattern "QList<int>".toList table true).written = some p ∧
        ∀ u, (p.matchesAll u ↔ (pattern "QList<int>".toList table true).matchesAll u) ∧
          (p.matchesAll u ↔ u ∈ intList.documented freeSpace table.names) := by
  have words : ∀ a ∈ [(⟨"Numbers".toList, "QList<int>".toList, false⟩ : Alias)],
      Text.IsWordRun a.name := by
    simp only [List.mem_singleton, forall_eq, Text.IsWordRun]
    decide +kernel
  exact ⟨words, parse_intList, matches_iff_mem_documented words parse_intList⟩

theorem matches_blank_behind_bracket :
    parse "QList<int>".toList = .ok intList ∧
      (pattern "QList<int>".toList (.ofAliases []) true).matchesAll "QList< int>".toList ∧
      "QList< int>".toList ∉ intList.documented 1 (AliasTable.ofAliases []).names := by
  refine ⟨parse_intList, ?_, ?_⟩
  · rw [pattern_of_parse parse_intList]
    decide +kernel
  · -- without that blank the language has a pattern of its own
    have table : (AliasTable.ofAliases []).OfWords :=
      AliasTable.ofWords_ofAliases fun _ absent => absurd absent List.not_mem_nil
    have argument := Tree.spells table
      (.mk ⟨false, none, false, 0, "int".toList⟩ (.base (.plain ["int".toList])))
    have segment := (spells_wordsPattern ["QList".toList]).seq (spells_spaces.seq
      ((spells_fixed ['<']).seq (spells_empty.seq
        (argument.seq (spells_spaces.seq (spells_fixed ['>']))))))
    have others := List.rel_append (spells_extra table intList.form.spelling)
      (spells_legacyPatterns intList.form)
    have spelled := (spells_anySpelling (spells_namePattern none spells_empty segment) others).seq
      (spells_decoration intList.form)
    intro member
    have matched := spelled.matchesAll_iff.mpr member
    revert matched
    decide +kernel

end Apidoc.PrintedType
