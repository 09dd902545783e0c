import Apidoc.Proofs.PrintedType.Documented

namespace Apidoc.PrintedType

/-- The words of a name: one that is no builtin word, or a run of builtin words. -/
def IsNameText (words : List Text) : Prop :=
  (∀ w ∈ words, Text.IsWordRun w) ∧
    ((∃ w, words = [w] ∧ isCombining w = false) ∨ (words ≠ [] ∧ ∀ w ∈ words, isCombining w))

mutual

/-- All names of a tree are names of the grammar. -/
def Tree.Named : Tree → Prop
  | .mk _ path => path.Named

def Path.Named : Path → Prop
  | .base s => s.Named
  | .inside s path => s.Named ∧ path.Named

def Segment.Named : Segment → Prop
  | .plain words => IsNameText words
  | .template words arguments => IsNameText words ∧ arguments.Named

def Arguments.Named : Arguments → Prop
  | .one t => t.Named
  | .cons t rest => t.Named ∧ rest.Named

end

theorem Path.named_last (path : Path) (named : path.Named) : path.last.Named := by
  cases path with
  | base s => exact named
  | inside s path => exact path.named_last named.2

theorem Token.WellFormed.isWordRun {t : Token} (formed : t.WellFormed) (word : t.kind = .word) :
    Text.IsWordRun t.text := by
  have lexeme := formed.lexeme
  rw [word] at lexeme
  cases lexeme with
  | word some all => exact ⟨some, all⟩

theorem IsName.isNameText {words : List Token} (name : IsName words) (formed : Formed words) :
    IsNameText (words.map Token.text) := by
  rcases name with ⟨t, rfl, word, single⟩ | ⟨nonempty, run⟩
  · refine ⟨?_, .inl ⟨t.text, rfl, single⟩⟩
    intro w member
    rw [List.map_singleton, List.mem_singleton] at member
    rw [member]
    exact (formed t (.head _)).isWordRun word
  · refine ⟨?_, .inr ⟨by simpa using nonempty, ?_⟩⟩
    · intro w member
      obtain ⟨t, inside, rfl⟩ := List.mem_map.mp member
      exact (formed t inside).isWordRun (run t inside).1
    · intro w member
      obtain ⟨t, inside, rfl⟩ := List.mem_map.mp member
      exact (run t inside).2

mutual

theorem TypeNode.tree_named : (d : TypeNode) → d.Valid → Formed d.yield → d.tree.Named
  | .mk _ _ name _, valid, formed =>
    name.path_named valid.2.2.2.1 formed.append.2.append.1.append.2

theorem NameNode.path_named : (d : NameNode) → d.Valid → Formed d.yield → d.path.Named
  | .base segment, valid, formed => segment.segment_named valid formed
  | .inside scope _ name, valid, formed =>
    ⟨scope.segment_named valid.1 formed.append.1,
      name.path_named valid.2.2 formed.append.2.cons.2⟩

theorem SegmentNode.segment_named : (d : SegmentNode) → d.Valid → Formed d.yield →
    d.segment.Named
  | .plain _, valid, formed => IsName.isNameText valid formed
  | .template _ _ arguments _, valid, formed =>
    ⟨IsName.isNameText valid.1 formed.append.1,
      arguments.arguments_named valid.2.2.1 formed.append.2.cons.2.append.1⟩

theorem ArgumentsNode.arguments_named : (d : ArgumentsNode) → d.Valid → Formed d.yield →
    d.arguments.Named
  | .one type, valid, formed => type.tree_named valid formed
  | .cons type _ rest, valid, formed =>
    ⟨type.tree_named valid.1 formed.append.1,
      rest.arguments_named valid.2.2 formed.append.2.cons.2⟩

end

theorem named_of_parse {s : Text} {tree : Tree} (parsed : parse s = .ok tree) : tree.Named := by
  obtain ⟨ts, spelled, d, ⟨valid, rfl⟩, rfl⟩ := parse_eq_ok_iff.mp parsed
  exact d.tree_named valid (tokens_spell spelled).1

theorem parse_of_read {s : Text} {tree : Tree} (reading : read s = .tree tree) :
    parse s = .ok tree := by
  unfold read at reading
  split at reading
  · rename_i parsed
    cases reading
    exact parsed
  · unfold verbatim at reading
    split at reading
    · cases reading
    · cases reading

theorem named_of_read {s : Text} {tree : Tree} (reading : read s = .tree tree) : tree.Named :=
  named_of_parse (parse_of_read reading)

def StartsWithWord (L : Language Char) : Prop := ∀ w ∈ L, w.head?.any Text.isWord

theorem startsWithWord_exact {w : Text} (word : Text.IsWordRun w) : StartsWithWord (exact w) := by
  intro v same
  cases w with
  | nil => exact absurd rfl word.1
  | cons c w =>
    cases same
    exact word.2 c (.head _)

theorem startsWithWord_wordRun : StartsWithWord wordRun := by
  intro w member
  exact startsWithWord_exact member w rfl

theorem StartsWithWord.mul {L : Language Char} (first : StartsWithWord L) (M : Language Char) :
    StartsWithWord (L * M) := by
  intro w member
  obtain ⟨u, left, v, -, rfl⟩ := Language.mem_mul.mp member
  have head := first u left
  cases u with
  | nil => cases head
  | cons c u => exact head

theorem StartsWithWord.add {L M : Language Char} (first : StartsWithWord L)
    (second : StartsWithWord M) : StartsWithWord (L + M) := by
  intro w member
  rcases member with member | member
  · exact first w member
  · exact second w member

theorem StartsWithWord.maybe_mul {L M : Language Char} (first : StartsWithWord L)
    (second : StartsWithWord M) : StartsWithWord (maybe L * M) := by
  rw [maybe, add_mul, one_mul]
  exact second.add (first.mul M)

theorem StartsWithWord.sum {Ls : List (Language Char)} (all : ∀ L ∈ Ls, StartsWithWord L) :
    StartsWithWord Ls.sum := by
  induction Ls with
  | nil => exact fun _ none => nomatch none
  | cons L Ls ih =>
    obtain ⟨first, others⟩ := List.forall_mem_cons.mp all
    rw [List.sum_cons]
    exact first.add (ih others)

theorem isWordRun_constWord : Text.IsWordRun constWord := ⟨by decide, by decide⟩

theorem isWordRun_sign (sign : Sign) : Text.IsWordRun sign.text := by
  cases sign <;> exact ⟨by decide, by decide⟩

theorem startsWithWord_foreignScope {L : Language Char} (starts : StartsWithWord L) :
    StartsWithWord (foreignScope * L) :=
  (startsWithWord_wordRun.mul _).maybe_mul starts

theorem startsWithWord_nameSpelling {scopes base : Language Char} (sign : Option Sign)
    (starts : StartsWithWord (scopes * base)) : StartsWithWord (nameSpelling sign scopes base) := by
  apply startsWithWord_foreignScope
  cases sign with
  | none =>
    rw [signSpelling, one_mul]
    exact starts
  | some sign => exact ((startsWithWord_exact (isWordRun_sign sign)).mul _).maybe_mul starts

theorem startsWithWord_wordsSpelling {words : List Text} (name : IsNameText words) :
    StartsWithWord (wordsSpelling words) := by
  have nonempty : words ≠ [] := by
    rcases name.2 with ⟨w, rfl, -⟩ | ⟨some, -⟩
    · exact List.cons_ne_nil _ _
    · exact some
  cases words with
  | nil => exact absurd rfl nonempty
  | cons w words =>
    have first := startsWithWord_exact (name.1 w (.head _))
    cases words with
    | nil => exact first
    | cons v words => exact first.mul _

theorem chars_wordsSpelling {words : List Text} (all : ∀ w ∈ words, Text.IsWordRun w) :
    ∀ w ∈ wordsSpelling words, ∀ c ∈ w, Text.isWord c ∨ Text.isBlank c := by
  induction words with
  | nil =>
    intro w member
    cases member
    simp
  | cons v words ih =>
    obtain ⟨first, others⟩ := List.forall_mem_cons.mp all
    cases words with
    | nil =>
      intro w member c inside
      cases member
      exact .inl (first.2 c inside)
    | cons u words =>
      intro w member
      obtain ⟨_, rfl, _, rest, rfl⟩ := Language.mem_mul.mp member
      obtain ⟨g, blank, x, inner, rfl⟩ := Language.mem_mul.mp rest
      simp only [List.forall_mem_append]
      exact ⟨fun c inside => .inl (first.2 c inside), fun c inside => .inr (blank.2 c inside),
        ih others x inner⟩

theorem legacyNames_words : ∀ legacy ∈ legacyNames.map Prod.snd, Text.IsWordRun legacy.word := by
  simp only [legacyNames, List.map_cons, List.map_nil, List.forall_mem_cons, Text.IsWordRun]
  decide

section

variable (opened : Language Char) (names : Text → List Text)

theorem Segment.startsWithWord (s : Segment) (named : s.Named) :
    StartsWithWord (s.documented opened names) := by
  cases s with
  | plain words => exact startsWithWord_wordsSpelling named
  | template words arguments => exact (startsWithWord_wordsSpelling named.1).mul _

theorem Path.startsWithWord_base (path : Path) (named : path.Named) :
    StartsWithWord (path.baseDocumented opened names) := by
  rw [path.baseDocumented_eq]
  exact path.last.startsWithWord opened names (path.named_last named)

theorem Path.startsWithWord (path : Path) (named : path.Named) :
    StartsWithWord (path.scopesSpelling (path.scopesDocumented opened names) *
      path.baseDocumented opened names) := by
  have base := path.startsWithWord_base opened names named
  cases path with
  | base s =>
    rw [Path.scopesSpelling, one_mul]
    exact base
  | inside s path =>
    have scope := (s.startsWithWord opened names named.1).mul
      (exact [':', ':'] * path.scopesDocumented opened names)
    rw [Path.scopesSpelling]
    split
    · exact scope.mul _
    · exact scope.maybe_mul base

theorem startsWithWord_aliasSpellings {names : List Text} (words : ∀ w ∈ names, Text.IsWordRun w) :
    ∀ L ∈ aliasSpellings names, StartsWithWord L := by
  intro L member
  obtain ⟨name, inside, rfl⟩ := List.mem_map.mp member
  exact startsWithWord_foreignScope (startsWithWord_exact (words name inside))

theorem Form.mem_legacySpellings {form : Form} {L : Language Char}
    (member : L ∈ form.legacySpellings) : ∃ legacy ∈ legacyNames.map Prod.snd,
      L = nameSpelling legacy.sign 1 (exact legacy.word) := by
  obtain ⟨legacy, found, rfl⟩ := List.mem_map.mp member
  obtain ⟨before, behind, eq, -⟩ := List.lookup_eq_some_iff.mp (Option.mem_toList.mp found)
  refine ⟨legacy, ?_, rfl⟩
  rw [eq]
  simp

theorem startsWithWord_legacySpellings (form : Form) :
    ∀ L ∈ form.legacySpellings, StartsWithWord L := by
  intro L member
  obtain ⟨legacy, listed, rfl⟩ := form.mem_legacySpellings member
  apply startsWithWord_nameSpelling
  rw [one_mul]
  exact startsWithWord_exact (legacyNames_words legacy listed)

theorem startsWithWord_name {form : Form} {path : Path} (named : path.Named)
    (words : ∀ key, ∀ w ∈ names key, Text.IsWordRun w) : StartsWithWord
      (nameSpelling form.sign (path.scopesSpelling (path.scopesDocumented opened names))
        (path.baseDocumented opened names) +
          (aliasSpellings (names form.spelling) ++ form.legacySpellings).sum) := by
  have others :
      StartsWithWord (aliasSpellings (names form.spelling) ++ form.legacySpellings).sum := by
    apply StartsWithWord.sum
    intro L member
    rcases List.mem_append.mp member with member | member
    · exact startsWithWord_aliasSpellings (words form.spelling) L member
    · exact startsWithWord_legacySpellings form L member
  exact (startsWithWord_nameSpelling form.sign (path.startsWithWord opened names named)).add others

theorem Tree.startsWithWord {t : Tree} (named : t.Named)
    (words : ∀ key, ∀ w ∈ names key, Text.IsWordRun w) :
    StartsWithWord (t.documented opened names) := by
  cases t with
  | mk form path =>
    have qualified := (startsWithWord_exact isWordRun_constWord).mul gap
    exact (qualified.maybe_mul (startsWithWord_name opened names named words)).mul _

end

end Apidoc.PrintedType
