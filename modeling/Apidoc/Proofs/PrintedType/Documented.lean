import Apidoc.PrintedType.Pattern
import Apidoc.Proofs.Pattern.Spells
import Apidoc.Proofs.PrintedType.Alias

namespace Apidoc.PrintedType

open Computability Pattern

def freeSpace : Language Char := {w | ∀ c ∈ w, Text.isBlank c}

def gap : Language Char := {w | w ≠ [] ∧ ∀ c ∈ w, Text.isBlank c}

def plainSpace : Language Char := {w | ∀ c ∈ w, c = ' '}

def wordRun : Language Char := {w | w ≠ [] ∧ ∀ c ∈ w, Text.isWord c}

def exact (t : Text) : Language Char := {t}

def maybe (L : Language Char) : Language Char := 1 + L

def foreignScope : Language Char := maybe (wordRun * exact [':', ':'])

def constSpelling : Language Char := maybe (exact constWord * gap)

def signSpelling : Option Sign → Language Char
  | none => 1
  | some sign => maybe (exact sign.text * gap)

theorem mem_foreignScope {w : Text} (member : w ∈ foreignScope) :
    w = [] ∨ ∃ x, w = x ++ [':', ':'] ∧ Text.IsWordRun x := by
  rcases member with none | some
  · exact .inl none
  · obtain ⟨x, word, _, rfl, rfl⟩ := Language.mem_mul.mp some
    exact .inr ⟨x, rfl, word⟩

theorem mem_constSpelling {w : Text} (member : w ∈ constSpelling) :
    w = [] ∨ ∃ g, w = constWord ++ g ∧ g ≠ [] ∧ ∀ c ∈ g, Text.isBlank c := by
  rcases member with none | some
  · exact .inl none
  · obtain ⟨_, rfl, g, blank, rfl⟩ := Language.mem_mul.mp some
    exact .inr ⟨g, rfl, blank⟩

theorem mem_signSpelling {sign : Option Sign} {w : Text} (member : w ∈ signSpelling sign) :
    w = [] ∨ ∃ s g, sign = some s ∧ w = s.text ++ g ∧ g ≠ [] ∧ ∀ c ∈ g, Text.isBlank c := by
  cases sign with
  | none => exact .inl member
  | some s =>
    rcases member with none | some
    · exact .inl none
    · obtain ⟨_, rfl, g, blank, rfl⟩ := Language.mem_mul.mp some
      exact .inr ⟨s, g, rfl, rfl, blank⟩

def wordsSpelling : List Text → Language Char
  | [] => 1
  | [w] => exact w
  | w :: ws => exact w * (gap * wordsSpelling ws)

def nameSpelling (sign : Option Sign) (scopes base : Language Char) : Language Char :=
  foreignScope * (signSpelling sign * (scopes * base))

/-- Scopes are all there or all missing, and never missing if one has template arguments. -/
def Path.scopesSpelling (path : Path) (scopes : Language Char) : Language Char :=
  match path with
  | .base _ => 1
  | .inside _ _ => if path.hasTemplateScope then scopes else maybe scopes

theorem Path.mem_scopesSpelling {path : Path} {scopes : Language Char} {w : Text}
    (member : w ∈ path.scopesSpelling scopes) : w = [] ∨ w ∈ scopes := by
  cases path with
  | base s => exact .inl member
  | inside s path =>
    rw [scopesSpelling] at member
    split at member
    · exact .inr member
    · exact member

def pointersSpelling : Language Char := (exact ['*'] + exact "[]".toList) *
  (exact ['*'] + exact "[]".toList)∗

def Form.decorationSpelling (form : Form) : Language Char :=
  if form.reference then plainSpace * (exact ['&'] * plainSpace)
  else if form.pointers ≠ 0 then plainSpace * (pointersSpelling * plainSpace)
  else 1

/-- The names that stand for a type in documentation: its typedefs and its legacy name. -/
def aliasSpellings (names : List Text) : List (Language Char) :=
  names.map fun name => foreignScope * exact name

def Form.legacySpellings (form : Form) : List (Language Char) :=
  ((legacyNames.lookup form.fullSpelling).toList).map fun legacy =>
    nameSpelling legacy.sign 1 (exact legacy.word)

theorem mem_sum {Ls : List (Language Char)} {w : Text} (member : w ∈ Ls.sum) :
    ∃ L ∈ Ls, w ∈ L := by
  induction Ls with
  | nil => cases member
  | cons L Ls ih =>
    rw [List.sum_cons] at member
    rcases member with member | member
    · exact ⟨L, .head _, member⟩
    · obtain ⟨M, listed, inside⟩ := ih member
      exact ⟨M, .tail _ listed, inside⟩

section

-- what may stand behind the opening bracket of template arguments, and the typedef names of types
variable (opened : Language Char) (names : Text → List Text)

mutual

/-- The spellings of a type with the decoration it needs. -/
def Tree.documented : Tree → Language Char
  | .mk form path =>
    constSpelling *
      (nameSpelling form.sign (path.scopesSpelling path.scopesDocumented) path.baseDocumented +
        (aliasSpellings (names form.spelling) ++ form.legacySpellings).sum) *
      form.decorationSpelling

def Path.scopesDocumented : Path → Language Char
  | .base _ => 1
  | .inside s path => s.documented * (exact [':', ':'] * path.scopesDocumented)

def Path.baseDocumented : Path → Language Char
  | .base s => s.documented
  | .inside _ path => path.baseDocumented

def Segment.documented : Segment → Language Char
  | .plain words => wordsSpelling words
  | .template words arguments =>
    wordsSpelling words *
      (freeSpace * (exact ['<'] * (opened * (arguments.documented * (freeSpace * exact ['>'])))))

def Arguments.documented : Arguments → Language Char
  | .one t => t.documented
  | .cons t rest => t.documented * (exact [','] * (freeSpace * rest.documented))

end

theorem Path.baseDocumented_eq (path : Path) :
    path.baseDocumented opened names = path.last.documented opened names := by
  cases path with
  | base s => rfl
  | inside s path => exact path.baseDocumented_eq

end

/-- The spellings of a type under its own name, without `const` and decoration. -/
abbrev Path.ownName (names : Text → List Text) (path : Path) (sign : Option Sign) :
    Language Char :=
  nameSpelling sign (path.scopesSpelling (path.scopesDocumented freeSpace names))
    (path.baseDocumented freeSpace names)

abbrev Form.otherNames (names : Text → List Text) (form : Form) : Language Char :=
  (aliasSpellings (names form.spelling) ++ form.legacySpellings).sum

theorem Form.mem_others {form : Form} {names : Text → List Text} {w : Text}
    (member : w ∈ form.otherNames names) :
    ∃ f ∈ foreignScope, (∃ name ∈ names form.spelling, w = f ++ name) ∨
      ∃ legacy, (form.fullSpelling, legacy) ∈ legacyNames ∧
        ∃ s ∈ signSpelling legacy.sign, w = f ++ (s ++ legacy.word) := by
  obtain ⟨L, listed, inside⟩ := mem_sum member
  rcases List.mem_append.mp listed with typedef | old
  · obtain ⟨name, present, rfl⟩ := List.mem_map.mp typedef
    obtain ⟨f, foreign, _, rfl, rfl⟩ := Language.mem_mul.mp inside
    exact ⟨f, foreign, .inl ⟨_, present, rfl⟩⟩
  · obtain ⟨legacy, found, rfl⟩ := List.mem_map.mp old
    obtain ⟨before, behind, eq, -⟩ := List.lookup_eq_some_iff.mp (Option.mem_toList.mp found)
    rw [nameSpelling, one_mul] at inside
    obtain ⟨f, foreign, _, rest, rfl⟩ := Language.mem_mul.mp inside
    obtain ⟨s, sign, _, rfl, rfl⟩ := Language.mem_mul.mp rest
    exact ⟨f, foreign, .inr ⟨legacy, by simp [eq], s, sign, rfl⟩⟩

theorem spells_spaces : spaces.Spells freeSpace := fun _ _ _ => takes_chars_star

theorem spells_plainSpaces : plainSpaces.Spells plainSpace := by
  intro before w rest
  rw [plainSpaces, takes_chars_star]
  exact forall₂_congr fun c _ => beq_iff_eq

theorem spells_someSpaces : someSpaces.Spells gap := fun _ _ _ => takes_chars_plus

theorem spells_wordRun : (Pattern.chars .word .plus).Spells wordRun := fun _ _ _ => takes_chars_plus

theorem spells_anyScope : anyScope.Spells foreignScope :=
  (spells_wordRun.seq (spells_fixed _)).group_optional

theorem spells_optionalConst : optionalConst.Spells constSpelling :=
  ((spells_fixed _).seq spells_someSpaces).group_optional

theorem spells_signPattern (sign : Option Sign) :
    (signPattern sign).Spells (signSpelling sign) := by
  cases sign with
  | none => exact spells_empty
  | some sign => exact ((spells_fixed _).seq spells_someSpaces).group_optional

theorem spells_wordsPattern (words : List Text) :
    (wordsPattern words).Spells (wordsSpelling words) := by
  induction words with
  | nil => exact spells_empty
  | cons w words ih =>
    cases words with
    | nil => exact spells_quoted w
    | cons v words => exact (spells_quoted w).seq (spells_someSpaces.seq ih)

theorem spells_namePattern {scopes base : Pattern} {L M : Language Char} (sign : Option Sign)
    (outer : scopes.Spells L) (inner : base.Spells M) :
    (namePattern sign scopes base).Spells (nameSpelling sign L M) :=
  spells_anyScope.seq ((spells_signPattern sign).seq (outer.seq inner))

theorem spells_scopesPattern {scopes : Pattern} {L : Language Char} (path : Path)
    (outer : scopes.Spells L) : (path.scopesPattern scopes).Spells (path.scopesSpelling L) := by
  cases path with
  | base s => exact spells_empty
  | inside s path =>
    simp only [Path.scopesPattern, Path.scopesSpelling]
    split
    · exact outer
    · exact outer.group_optional

theorem spells_pointerMarks : pointerMarks.Spells pointersSpelling :=
  ((spells_fixed _).alt (spells_fixed _)).group_plus

theorem spells_decoration (form : Form) : form.decoration.Spells form.decorationSpelling := by
  unfold Form.decoration Form.decorationSpelling
  split
  · exact spells_plainSpaces.seq ((spells_fixed _).seq spells_plainSpaces)
  · split
    · exact spells_plainSpaces.seq (spells_pointerMarks.seq spells_plainSpaces)
    · exact spells_empty

theorem spells_legacyPatterns (form : Form) :
    List.Forall₂ Spells form.legacyPatterns form.legacySpellings := by
  unfold Form.legacyPatterns Form.legacySpellings
  cases legacyNames.lookup form.fullSpelling with
  | none => exact .nil
  | some legacy => exact .cons (spells_namePattern legacy.sign spells_empty (spells_quoted _)) .nil

theorem exact_cons (c : Char) (w : Text) : exact [c] * exact w = exact (c :: w) := by
  ext u
  rw [Language.mem_mul]
  constructor
  · intro member
    obtain ⟨_, rfl, _, rfl, rfl⟩ := member
    rfl
  · intro same
    exact ⟨[c], rfl, w, rfl, same.symm⟩

theorem looseChar_of_word {c : Char} (word : Text.isWord c) : looseChar c = .quoted [c] := by
  have star : c ≠ '*' := Text.ne_of_isWord word (isWord_of_mem_marks (by decide))
  have reference : c ≠ '&' := Text.ne_of_isWord word (isWord_of_mem_marks (by decide))
  have comma : c ≠ ',' := Text.ne_of_isWord word (isWord_of_mem_marks (by decide))
  simp [looseChar, star, reference, comma, Text.isBlank_of_isWord word]

theorem spells_looseWord {w : Text} (word : ∀ c ∈ w, Text.isWord c) :
    (loosePattern w).Spells (exact w) := by
  have parts : List.Forall₂ Spells (w.map looseChar) (w.map fun c => exact [c]) := by
    rw [List.forall₂_map_left_iff, List.forall₂_map_right_iff, List.forall₂_same]
    intro c member
    rw [looseChar_of_word (word c member)]
    exact spells_quoted [c]
  have joined : (w.map fun c => exact [c]).prod = exact w := by
    clear word parts
    induction w with
    | nil => rfl
    | cons c w ih => rw [List.map_cons, List.prod_cons, ih, exact_cons]
  have spelled := spells_all parts
  rwa [joined] at spelled

theorem spells_bareName_of_word {w : Text} (word : ∀ c ∈ w, Text.isWord c) (extra : Extra) :
    ((read w).bareName extra).Spells (foreignScope * exact w) := by
  rcases read_of_word word with ⟨form, unsigned, eq⟩ | eq
  · have spelled := spells_namePattern none spells_empty (spells_wordsPattern [w])
    rw [nameSpelling, signSpelling, one_mul, one_mul] at spelled
    rw [eq, Reading.bareName, Tree.bareName, Tree.form, unsigned]
    exact spelled
  · rw [eq]
    exact spells_anyScope.seq (spells_looseWord word)

/-- Every typedef name of the table is a word. -/
def AliasTable.OfWords (table : AliasTable) : Prop :=
  ∀ type, ∀ name ∈ table.names type, Text.IsWordRun name

theorem AliasTable.ofWords_ofAliases {aliases : List Alias}
    (words : ∀ a ∈ aliases, Text.IsWordRun a.name) : (ofAliases aliases).OfWords :=
  fun _ _ member => names_ofAliases Text.IsWordRun words member

theorem spells_extra {table : AliasTable} (words : table.OfWords) (spelling : Text) :
    List.Forall₂ Spells (table.extra spelling) (aliasSpellings (table.names spelling)) := by
  rw [AliasTable.extra, aliasSpellings, List.forall₂_map_left_iff, List.forall₂_map_right_iff,
    List.forall₂_same]
  intro name member
  exact spells_bareName_of_word (words spelling name member).2 _

theorem spells_choices {p : Pattern} {L : Language Char} {choices : List Pattern}
    {Ls : List (Language Char)} (first : p.Spells L) (others : List.Forall₂ Spells choices Ls) :
    (group (oneOf ((p :: choices).map (group · .one))) .one).Spells (L + Ls.sum) := by
  have grouped : List.Forall₂ Spells (choices.map (group · .one)) Ls := by
    rw [List.forall₂_map_left_iff]
    exact others.imp fun _ _ spelled => spelled.group_one
  exact (spells_oneOf first.group_one grouped).group_one

theorem spells_anySpelling {p : Pattern} {L : Language Char} {choices : List Pattern}
    {Ls : List (Language Char)} (first : p.Spells L) (others : List.Forall₂ Spells choices Ls) :
    (anySpelling (p :: choices)).Spells (constSpelling * (L + Ls.sum)) :=
  spells_optionalConst.seq (spells_choices first others)

mutual

theorem Tree.spells {table : AliasTable} (words : table.OfWords) : (t : Tree) →
    (t.pattern table.extra).Spells (t.documented freeSpace table.names)
  | .mk form path => by
    have own := spells_namePattern form.sign (spells_scopesPattern path (path.spells_scopes words))
      (path.spells_base words)
    have others := List.rel_append (spells_extra words form.spelling) (spells_legacyPatterns form)
    exact (spells_anySpelling own others).seq (spells_decoration form)

theorem Path.spells_scopes {table : AliasTable} (words : table.OfWords) : (path : Path) →
    (path.allScopes table.extra).Spells (path.scopesDocumented freeSpace table.names)
  | .base _ => spells_empty
  | .inside s path =>
    (s.spells words).seq ((spells_fixed _).seq (path.spells_scopes words))

theorem Path.spells_base {table : AliasTable} (words : table.OfWords) : (path : Path) →
    (path.lastPattern table.extra).Spells (path.baseDocumented freeSpace table.names)
  | .base s => s.spells words
  | .inside _ path => path.spells_base words

theorem Segment.spells {table : AliasTable} (words : table.OfWords) : (s : Segment) →
    (s.pattern table.extra).Spells (s.documented freeSpace table.names)
  | .plain run => spells_wordsPattern run
  | .template run arguments =>
    (spells_wordsPattern run).seq (spells_spaces.seq ((spells_fixed _).seq
      (spells_spaces.seq ((arguments.spells words).seq (spells_spaces.seq (spells_fixed _))))))

theorem Arguments.spells {table : AliasTable} (words : table.OfWords) : (arguments : Arguments) →
    (arguments.pattern table.extra).Spells (arguments.documented freeSpace table.names)
  | .one t => t.spells words
  | .cons t rest =>
    (t.spells words).seq ((spells_fixed _).seq (spells_spaces.seq (rest.spells words)))

end

end Apidoc.PrintedType
