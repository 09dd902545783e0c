import Apidoc.Proofs.Page.TypeEnding
import Apidoc.Proofs.PrintedType.Language

namespace Apidoc.Page

open Pattern PrintedType

def listText (ns : List NamedType) : Text := [',', ' '].intercalate (ns.map NamedType.text)

theorem listText_cons (n m : NamedType) (ns : List NamedType) :
    listText (n :: m :: ns) = n.text ++ ',' :: ' ' :: listText (m :: ns) := by
  simp [listText, List.intercalate]

theorem listText_single (n : NamedType) : listText [n] = n.text := by
  simp [listText, List.intercalate]

namespace IsDocumented

variable {n : NamedType}

theorem level (documented : IsDocumented n) : IsLevel 0 n.text := by
  obtain ⟨tree, accepted⟩ := documented.accepted
  have name := (isFlat_of_word documented.word.2).level 0
  have separator : IsLevel 0 n.separator := by
    unfold NamedType.separator
    split
    · exact (isFlat_of_blank (by decide)).level 0
    · exact level_nil 0
  exact (level_of_parse accepted 0).append (separator.append name)

theorem plain (documented : IsDocumented n) : '=' ∉ n.text := by
  obtain ⟨tree, accepted⟩ := documented.accepted
  intro member
  rcases List.mem_append.mp member with type | behind
  · have allowed := mem_of_parse accepted type
    revert allowed
    decide
  · rcases List.mem_append.mp behind with space | name
    · unfold NamedType.separator at space
      split at space
      · exact absurd space (by decide)
      · cases space
    · have word := documented.word.2 '=' name
      revert word
      decide

theorem solid (documented : IsDocumented n) :
    ∃ c rest, n.text = c :: rest ∧ Text.isBlank c = false := by
  obtain ⟨tree, accepted⟩ := documented.accepted
  cases type : n.type with
  | nil =>
    rw [type] at accepted
    exact absurd accepted (parse_nil_ne tree)
  | cons c rest =>
    refine ⟨c, rest ++ (n.separator ++ n.name), ?_, documented.trimmed.first c rest type⟩
    rw [NamedType.text, type, List.cons_append]

end IsDocumented

theorem plain_listText {ns : List NamedType} (documented : ∀ n ∈ ns, IsDocumented n) :
    '=' ∉ listText ns := by
  induction ns with
  | nil => exact List.not_mem_nil
  | cons n ns ih =>
    obtain ⟨first, others⟩ := List.forall_mem_cons.mp documented
    cases ns with
    | nil =>
      rw [listText_single]
      exact first.plain
    | cons m ns =>
      rw [listText_cons]
      intro member
      rcases List.mem_append.mp member with front | behind
      · exact first.plain front
      · simp only [List.mem_cons] at behind
        rcases behind with comma | space | rest
        · exact absurd comma (by decide)
        · exact absurd space (by decide)
        · exact ih others rest

theorem solid_listText {n : NamedType} (documented : IsDocumented n) (ns : List NamedType) :
    ∃ c rest, listText (n :: ns) = c :: rest ∧ Text.isBlank c = false := by
  obtain ⟨c, rest, eq, solid⟩ := documented.solid
  cases ns with
  | nil => exact ⟨c, rest, by rw [listText_single, eq], solid⟩
  | cons m ns => exact ⟨c, _, by rw [listText_cons, eq, List.cons_append], solid⟩

theorem head_listText {n : NamedType} (documented : IsDocumented n) (ns : List NamedType) :
    ∀ c, (listText (n :: ns)).head? = some c → Text.isBlank c = false := by
  intro c head
  obtain ⟨d, rest, eq, solid⟩ := solid_listText documented ns
  rw [eq] at head
  cases head
  exact solid

theorem solid_of_head {s : Text} (word : s.head?.any Text.isWord) :
    ∀ c, s.head? = some c → Text.isBlank c = false := by
  intro c head
  rw [head] at word
  exact Text.isBlank_of_isWord word

theorem ends_listText {n : NamedType} {ns : List NamedType}
    (documented : ∀ m ∈ n :: ns, IsDocumented m) :
    ∃ u x, listText (n :: ns) = u ++ x ∧ Text.IsWordRun x := by
  induction ns generalizing n with
  | nil =>
    refine ⟨n.type ++ n.separator, n.name, ?_, (documented n (.head _)).word⟩
    rw [listText_single, NamedType.text, List.append_assoc]
  | cons m ns ih =>
    obtain ⟨u, x, eq, word⟩ := ih fun r member => documented r (.tail _ member)
    refine ⟨n.text ++ ',' :: ' ' :: u, x, ?_, word⟩
    rw [listText_cons, eq, List.append_assoc]
    rfl

/-- The type of a parameter is one of the grammar. -/
def IsTyped (p : Parameter) : Prop :=
  ∃ tree, parse p.type = .ok tree ∧ SignedBuiltin tree

section

variable {table : AliasTable} (words : table.OfWords)
include words

theorem spells_parameter {type : Text} {tree : Tree} (parsed : parse type = .ok tree) :
    (PrintedType.pattern type table true).Spells (tree.documented freeSpace table.names) := by
  rw [pattern_of_parse parsed]
  exact tree.spells words

theorem level_of_takes {p : Parameter} (typed : IsTyped p) {before : Option Char} {s rest : Text}
    (plain : '=' ∉ s) (taken : (parameterPattern table true p).Takes before s rest) :
    IsLevel 0 s ∧ s.head?.any Text.isWord := by
  obtain ⟨tree, parsed, -⟩ := typed
  have named := named_of_parse parsed
  obtain ⟨w, v, rfl, type, name⟩ := taken
  have member := (spells_parameter words parsed _ _ _).mp type
  have first := Tree.startsWithWord freeSpace table.names named words w member
  have inner := tree.levels words 0 named w member
  have outside : '=' ∉ v := fun inside => plain (List.mem_append_right w inside)
  refine ⟨?_, ?_⟩
  · rcases (takes_nameAndDefault outside).mp name with rfl | ⟨u, x, rfl, separated, word⟩
    · rwa [List.append_nil]
    · have space : IsLevel 0 u := by
        rcases separated with ⟨-, blank⟩ | ⟨rfl, -⟩
        · exact (isFlat_of_blank blank).level 0
        · exact level_nil 0
      exact inner.append (space.append ((isFlat_of_word word.2).level 0))
  · cases w with
    | nil => cases first
    | cons c w => exact first

theorem takes_parameter_iff {p : Parameter} (typed : IsTyped p) {n : NamedType}
    (documented : IsDocumented n) {before : Option Char} {rest : Text} :
    (parameterPattern table true p).Takes before n.text rest ↔
      (PrintedType.pattern p.type table true).matchesAll n.type := by
  obtain ⟨tree, parsed, signed⟩ := typed
  have named := named_of_parse parsed
  have spelled := spells_parameter words parsed
  rw [spelled.matchesAll_iff]
  constructor
  · intro taken
    obtain ⟨w, v, same, type, name⟩ := taken
    have member := (spelled _ _ _).mp type
    have outside : '=' ∉ v := fun inside =>
      documented.plain (same ▸ List.mem_append_right w inside)
    rcases (takes_nameAndDefault outside).mp name with rfl | ⟨u, x, rfl, separated, word⟩
    · rw [List.append_nil] at same
      rw [← same] at member
      exact absurd member (documented.not_mem named signed words)
    · have some : w ≠ [] := by
        intro none
        have first := Tree.startsWithWord freeSpace table.names named words w member
        rw [none] at first
        cases first
      rwa [NamedType.eq_type documented.toWellFormed documented.trimmed some word separated same]
  · intro member
    refine ⟨n.type, n.separator ++ n.name, rfl, (spelled _ _ _).mpr member, ?_⟩
    have outside : '=' ∉ n.separator ++ n.name := fun inside =>
      documented.plain (List.mem_append_right n.type inside)
    apply (takes_nameAndDefault outside).mpr
    exact .inr ⟨n.separator, n.name, rfl, documented.toWellFormed.separates before, documented.word⟩

theorem head_of_separated {p : Parameter} {ps : List Parameter} (typed : IsTyped p)
    {before : Option Char} {s rest : Text} (plain : '=' ∉ s)
    (taken : (separated (all [comma, spaces])
      ((p :: ps).map (parameterPattern table true))).Takes before s rest) :
    s.head?.any Text.isWord := by
  cases ps with
  | nil => exact (level_of_takes words typed plain taken).2
  | cons q ps =>
    obtain ⟨u, v, rfl, first, -⟩ := taken
    have outside : '=' ∉ u := fun inside => plain (List.mem_append_left v inside)
    have head := (level_of_takes words typed outside first).2
    cases u with
    | nil => cases head
    | cons c u => exact head

theorem takes_separated_iff {p : Parameter} {ps : List Parameter} {n : NamedType}
    {ns : List NamedType} (typed : ∀ q ∈ p :: ps, IsTyped q)
    (documented : ∀ m ∈ n :: ns, IsDocumented m) {before : Option Char} {rest : Text} :
    (separated (all [comma, spaces]) ((p :: ps).map (parameterPattern table true))).Takes before
        (listText (n :: ns)) rest ↔
      List.Forall₂ (fun p m => (PrintedType.pattern p.type table true).matchesAll m.type)
        (p :: ps) (n :: ns) := by
  induction ps generalizing p n ns before with
  | nil =>
    have first := typed p (.head _)
    have head := documented n (.head _)
    cases ns with
    | nil =>
      rw [listText_single, List.forall₂_cons, ← takes_parameter_iff words first head]
      exact (and_iff_left .nil).symm
    | cons m ns =>
      constructor
      · intro taken
        have level := (level_of_takes words first (plain_listText documented) taken).1
        exact absurd (listText_cons n m ns) (head.level.ne_append_comma level)
      · intro agree
        cases agree with
        | cons _ others => cases others
  | cons q ps ih =>
    have first := typed p (.head _)
    have head := documented n (.head _)
    have plain := plain_listText documented
    constructor
    · intro taken
      obtain ⟨u, _, same, front, _, v, rfl, ⟨_, space, rfl, rfl, blank⟩, others⟩ := taken
      rw [same] at plain
      have outside : '=' ∉ u := fun inside => plain (by simp [inside])
      have beyond : '=' ∉ v := fun inside => plain (by simp [inside])
      have level := (level_of_takes words first outside front).1
      have starts := head_of_separated words (typed q (by simp)) beyond others
      have same : listText (n :: ns) = u ++ ',' :: (space ++ v) := same
      cases ns with
      | nil =>
        rw [listText_single] at same
        exact absurd same (level.ne_append_comma head.level)
      | cons m ns =>
        rw [listText_cons] at same
        -- both are cut at the first comma outside of brackets
        obtain ⟨rfl, tail⟩ := head.level.cut_unique level same
        have begins := head_listText (documented m (by simp)) ns
        have blanks : ∀ c ∈ space, Text.isBlank c := takes_chars_star.mp blank
        obtain ⟨-, rfl⟩ :=
          Text.span_unique (u := [' ']) (by decide) blanks begins (solid_of_head starts) tail
        have agree := (takes_parameter_iff words first head).mp front
        have rest := (ih (fun r member => typed r (.tail _ member))
          (fun r member => documented r (.tail _ member))).mp others
        exact .cons agree rest
    · intro agree
      cases agree with
      | cons same others =>
        cases ns with
        | nil => cases others
        | cons m ns =>
          rw [listText_cons]
          refine ⟨n.text, _, rfl, (takes_parameter_iff words first head).mpr same, [',', ' '], _,
            rfl, ⟨[','], [' '], rfl, rfl, takes_chars_star.mpr (by decide)⟩, ?_⟩
          exact (ih (fun r member => typed r (.tail _ member))
            (fun r member => documented r (.tail _ member))).mpr others

theorem agree_of_takes {ps : List Parameter} {ns : List NamedType} (typed : ∀ p ∈ ps, IsTyped p)
    (documented : ∀ n ∈ ns, IsDocumented n) {before : Option Char} {s a t rest : Text}
    (front : ∀ c ∈ s, Text.isBlank c) (back : ∀ c ∈ t, Text.isBlank c)
    (same : listText ns = s ++ (a ++ t))
    (taken : (parametersPattern table true ps).Takes before a rest) :
    List.Forall₂ (fun p n => (PrintedType.pattern p.type table true).matchesAll n.type) ps ns := by
  have plain := plain_listText documented
  rw [same] at plain
  cases ps with
  | nil =>
    have none : a = [] := by
      rcases takes_group_star.mp taken with none | ⟨u, v, rfl, first, -⟩
      · exact none
      · have equals := mem_of_takes_unlisted first
        exact absurd (by simp [equals]) plain
    subst none
    cases ns with
    | nil => exact .nil
    | cons n ns =>
      obtain ⟨c, r, eq, solid⟩ := solid_listText (documented n (.head _)) ns
      have blank : ∀ d ∈ listText (n :: ns), Text.isBlank d := by
        rw [same]
        simpa [or_imp, forall_and] using ⟨front, back⟩
      rw [eq] at blank
      rw [blank c (.head _)] at solid
      cases solid
  | cons p ps =>
    obtain ⟨b, e, rfl, listed, extra⟩ := taken
    -- what the declaration does not have needs an equals sign, and the list has none
    have none : e = [] := by
      rcases takes_group_star.mp extra with none | ⟨u, v, rfl, first, -⟩
      · exact none
      · obtain ⟨c, _, rfl, -, space, w, rfl, -, default⟩ := first
        have equals := mem_of_takes_unlisted default
        exact absurd (by simp [equals]) plain
    subst none
    rw [List.append_nil] at same
    have outside : '=' ∉ b := fun inside => plain (by simp [inside])
    have head := head_of_separated words (typed p (.head _)) outside listed
    cases ns with
    | nil =>
      have empty : b = [] := by
        have none := same.symm
        simp only [listText, List.map_nil, List.intercalate_nil, List.append_eq_nil_iff] at none
        exact none.2.1
      rw [empty] at head
      cases head
    | cons n ns =>
      have first := head_listText (documented n (.head _)) ns
      have second : ∀ d, (b ++ t).head? = some d → Text.isBlank d = false := by
        cases b with
        | nil => cases head
        | cons d b => exact solid_of_head head
      obtain ⟨rfl, tail⟩ := Text.span_unique (by simp) front first second
        (show [] ++ listText (n :: ns) = s ++ (b ++ t) from same)
      obtain ⟨u, x, ends, word⟩ := ends_listText documented
      have last : t = [] := by
        apply (endsOutside_of_blank back).eq_nil_of_append word
        rw [← ends, tail]
      rw [last, List.append_nil] at tail
      rw [← tail] at listed
      exact (takes_separated_iff words typed documented).mp listed

theorem takes_of_agree {ps : List Parameter} {ns : List NamedType} (typed : ∀ p ∈ ps, IsTyped p)
    (documented : ∀ n ∈ ns, IsDocumented n)
    (agree : List.Forall₂ (fun p n => (PrintedType.pattern p.type table true).matchesAll n.type)
      ps ns) (before : Option Char) (rest : Text) :
    (parametersPattern table true ps).Takes before (listText ns) rest := by
  cases agree with
  | nil => exact takes_group_star.mpr (.inl rfl)
  | cons first others =>
    refine ⟨_, [], (List.append_nil _).symm, ?_, takes_group_star.mpr (.inl rfl)⟩
    exact (takes_separated_iff words typed documented).mpr (.cons first others)

end

theorem eq_of_brackets {l m s t : Text} (front : ∀ c ∈ s, Text.isBlank c)
    (back : ∀ c ∈ t, Text.isBlank c)
    (same : '(' :: (l ++ [')']) = s ++ '(' :: (m ++ ')' :: t)) : s = [] ∧ t = [] ∧ l = m := by
  have opening : s = [] := by
    cases s with
    | nil => rfl
    | cons c s =>
      have blank := front c (.head _)
      rw [← (List.cons.inj same).1] at blank
      exact absurd blank (by decide)
  subst opening
  have inner : l ++ [')'] = m ++ ')' :: t := (List.cons.inj same).2
  rcases List.eq_nil_or_concat' t with rfl | ⟨start, c, rfl⟩
  · exact ⟨rfl, rfl, (List.append_inj' inner rfl).1⟩
  · have blank := back c (by simp)
    rw [← List.cons_append, ← List.append_assoc] at inner
    rw [← (List.cons.inj (List.append_inj' inner rfl).2).1] at blank
    exact absurd blank (by decide)

/-- A function's declarator matches a documented parameter list exactly when there are as many
parameters as types, and each type is matched by the pattern of the parameter at its place. -/
theorem declarator_matches_iff {aliases : List Alias}
    (words : ∀ a ∈ aliases, Text.IsWordRun a.name) {f : Function}
    (typed : ∀ p ∈ f.callParameters, IsTyped p) {ns : List NamedType}
    (documented : ∀ n ∈ ns, IsDocumented n) :
    (declarator (.ofAliases aliases) true f).matchesAll
        (f.documentedName ++ '(' :: (listText ns ++ [')'])) ↔
      List.Forall₂
        (fun p n => (PrintedType.pattern p.type (.ofAliases aliases) true).matchesAll n.type)
        f.callParameters ns := by
  have table := AliasTable.ofWords_ofAliases words
  rw [matchesAll_iff]
  constructor
  · intro taken
    obtain ⟨_, _, whole, rfl, before, _, rfl, space, _, _, rfl, rfl, front, _, rfl, inner, list, _,
      rfl, taken, back, _, rfl, outer, _, behind, rfl, rfl, last⟩ := taken
    have same := List.append_cancel_left whole
    obtain ⟨-, -, eq⟩ := eq_of_brackets (m := front ++ (list ++ back)) (takes_chars_star.mp space)
      (takes_chars_star.mp last) (by simpa using same)
    exact agree_of_takes table typed documented (takes_chars_star.mp inner)
      (takes_chars_star.mp outer) eq taken
  · intro agree
    have none : ∀ before rest, spaces.Takes before [] rest := fun _ _ =>
      takes_chars_star.mpr fun _ absent => nomatch absent
    refine ⟨f.documentedName, _, rfl, rfl, [], _, rfl, none _ _, ['('], _, rfl, rfl, [], _, rfl,
      none _ _, listText ns, _, rfl, takes_of_agree table typed documented agree _ _, [], _, rfl,
      none _ _, [')'], [], rfl, rfl, none _ _⟩

def unary (name type : Text) : Function :=
  ⟨name, name, none, none, [⟨"_0".toList, type, .regular⟩], []⟩

theorem declarator_matches_iff_scale :
    (∀ a ∈ [(⟨"qreal".toList, "double".toList, false⟩ : Alias)], Text.IsWordRun a.name) ∧
      (∀ p ∈ (unary "scale".toList "double".toList).callParameters, IsTyped p) ∧
      (∀ n ∈ [(⟨"qreal".toList, true, "factor".toList⟩ : NamedType)], IsDocumented n) ∧
      ((declarator (.ofAliases [⟨"qreal".toList, "double".toList, false⟩]) true
          (unary "scale".toList "double".toList)).matchesAll
          ("scale".toList ++ '(' :: (listText [⟨"qreal".toList, true, "factor".toList⟩] ++ [')'])) ↔
        List.Forall₂ (fun p n => (PrintedType.pattern p.type
            (.ofAliases [⟨"qreal".toList, "double".toList, false⟩]) true).matchesAll n.type)
          (unary "scale".toList "double".toList).callParameters
          [(⟨"qreal".toList, true, "factor".toList⟩ : NamedType)]) := by
  have words : ∀ a ∈ [(⟨"qreal".toList, "double".toList, false⟩ : Alias)],
      Text.IsWordRun a.name := by
    simp only [List.mem_singleton, forall_eq, Text.IsWordRun]
    decide +kernel
  have typed : ∀ p ∈ (unary "scale".toList "double".toList).callParameters, IsTyped p := by
    intro p member
    cases List.mem_singleton.mp member
    have spelled : tokens "double".toList = .ok [⟨.word, [], "double".toList⟩] :=
      tokens_of_word (by decide) (by decide +kernel)
    refine ⟨.mk ⟨false, none, false, 0, "double".toList⟩ (.base (.plain ["double".toList])), ?_,
      fun signed => by cases signed⟩
    rw [parse, spelled]
    rfl
  have documented :
      ∀ n ∈ [(⟨"qreal".toList, true, "factor".toList⟩ : NamedType)], IsDocumented n := by
    intro n member
    cases List.mem_singleton.mp member
    have spelled : tokens "qreal".toList = .ok [⟨.word, [], "qreal".toList⟩] :=
      tokens_of_word (by decide) (by decide +kernel)
    have accepted : parse "qreal".toList =
        .ok (.mk ⟨false, none, false, 0, "qreal".toList⟩ (.base (.plain ["qreal".toList]))) := by
      rw [parse, spelled]
      rfl
    have trimmed : IsTrimmed "qreal".toList := isTrimmed_of_ends (by decide) (by decide)
    exact ⟨⟨⟨by decide, by decide +kernel⟩, fun direct => by cases direct⟩, ⟨_, accepted⟩,
      trimmed, by decide⟩
  exact ⟨words, typed, documented, declarator_matches_iff words typed documented⟩

def signedScope : Tree :=
  .mk ⟨false, some .unsigned, false, 0, "unsigned int::Foo".toList⟩
    (.inside (.plain ["int".toList]) (.base (.plain ["Foo".toList])))

theorem declarator_matches_signed_scope :
    let f := unary "f".toList "unsigned int::Foo".toList
    parse "unsigned int::Foo".toList = .ok signedScope ∧ isCombining "int".toList ∧
      (∃ tree, parse "unsigned".toList = .ok tree) ∧
      "Foo".toList ∉ [constWord, Sign.signed.text, Sign.unsigned.text] ++ combiningWords ∧
      (declarator (.ofAliases []) true f).matchesAll "f(unsigned Foo)".toList ∧
      ¬ List.Forall₂ (fun p n =>
          (PrintedType.pattern p.type (.ofAliases []) true).matchesAll n.type)
        f.callParameters [(⟨"unsigned".toList, true, "Foo".toList⟩ : NamedType)] := by
  have fourth : tokens "Foo".toList = .ok [⟨.word, [], "Foo".toList⟩] :=
    tokens_of_word (by decide) (by decide +kernel)
  have third : tokens "::Foo".toList =
      .ok [⟨.scope, [], "::".toList⟩, ⟨.word, [], "Foo".toList⟩] :=
    tokens_eq_cons (by decide +kernel) rfl fourth
  have second : tokens " int::Foo".toList = .ok [⟨.word, [' '], "int".toList⟩,
      ⟨.scope, [], "::".toList⟩, ⟨.word, [], "Foo".toList⟩] :=
    tokens_eq_cons (by decide +kernel) rfl third
  have first : tokens "unsigned int::Foo".toList = .ok [⟨.word, [], "unsigned".toList⟩,
      ⟨.word, [' '], "int".toList⟩, ⟨.scope, [], "::".toList⟩, ⟨.word, [], "Foo".toList⟩] :=
    tokens_eq_cons (by decide +kernel) rfl second
  have parsed : parse "unsigned int::Foo".toList = .ok signedScope := by
    rw [parse, first]
    rfl
  have alone : tokens "unsigned".toList = .ok [⟨.word, [], "unsigned".toList⟩] :=
    tokens_of_word (by decide) (by decide +kernel)
  have bare : parse "unsigned".toList =
      .ok (.mk ⟨false, none, false, 0, "unsigned".toList⟩ (.base (.plain ["unsigned".toList]))) := by
    rw [parse, alone]
    rfl
  refine ⟨parsed, by decide, ⟨_, bare⟩, by decide, ?_, ?_⟩
  · have parameters : (unary "f".toList "unsigned int::Foo".toList).callParameters =
        [⟨"_0".toList, "unsigned int::Foo".toList, .regular⟩] := rfl
    rw [declarator, parameters, parametersPattern, List.map_singleton, parameterPattern,
      pattern_of_parse parsed]
    decide +kernel
  · intro agree
    have matched := (List.forall₂_cons.mp agree).1
    rw [pattern_of_parse parsed] at matched
    revert matched
    decide +kernel

end Apidoc.Page
