import Apidoc.Proofs.PrintedType.Canonical
import Apidoc.Proofs.PrintedType.Language

namespace Apidoc.PrintedType

open Pattern

namespace AliasTable

/-- The entries have the name for the type of this canonical spelling. -/
def Lists (key name : Text) (entries : List (Text × List Text)) : Prop :=
  ∃ names, entries.lookup key = some names ∧ name ∈ names

theorem mem_addName_self {key name : Text} (other : canonical name ≠ key) (names : List Text) :
    name ∈ addName key name names := by
  unfold addName
  by_cases present : name ∈ names <;> simp [present, other]

theorem mem_addName_of_mem {key name other : Text} {names : List Text} (present : other ∈ names) :
    other ∈ addName key name names := by
  unfold addName
  split
  · exact present
  · exact List.mem_append_left _ present

theorem lookup_note_self (key name : Text) (entries : List (Text × List Text)) :
    (note key name entries).lookup key = some (addName key name ((entries.lookup key).getD [])) := by
  induction entries with
  | nil => simp [note]
  | cons entry rest ih =>
    obtain ⟨k, names⟩ := entry
    by_cases same : k = key
    · simp [note, same]
    · have differs : (key == k) = false := beq_false_of_ne (Ne.symm same)
      simp [note, same, List.lookup_cons, differs, ih]

theorem lookup_note_of_ne {key other : Text} (differs : other ≠ key) (name : Text)
    (entries : List (Text × List Text)) :
    (note key name entries).lookup other = entries.lookup other := by
  have apart : (other == key) = false := beq_false_of_ne differs
  induction entries with
  | nil => simp [note, List.lookup_cons, apart]
  | cons entry rest ih =>
    obtain ⟨k, names⟩ := entry
    by_cases same : k = key
    · subst same
      simp [note, List.lookup_cons, apart]
    · simp only [note, if_neg same, List.lookup_cons, ih]

theorem lists_note_self {key name : Text} (other : canonical name ≠ key)
    (entries : List (Text × List Text)) : Lists key name (note key name entries) :=
  ⟨_, lookup_note_self key name entries, mem_addName_self other _⟩

theorem Lists.note {key name : Text} {entries : List (Text × List Text)}
    (listed : Lists key name entries) (type new : Text) : Lists key name (note type new entries) := by
  obtain ⟨names, found, present⟩ := listed
  by_cases same : key = type
  · subst same
    refine ⟨_, lookup_note_self key new entries, mem_addName_of_mem ?_⟩
    rwa [found]
  · exact ⟨names, (lookup_note_of_ne same new entries).trans found, present⟩

theorem lists_collected {aliases : List Alias} {a : Alias} (listed : a ∈ aliases)
    (free : a.dependent = false) (other : canonical a.name ≠ canonical a.type) :
    Lists (canonical a.type) a.name (collected aliases) := by
  have kept (rest : List Alias) (entries : List (Text × List Text))
      (present : Lists (canonical a.type) a.name entries) :
      Lists (canonical a.type) a.name (rest.foldl
        (fun entries a => if a.dependent then entries else note (canonical a.type) a.name entries)
        entries) := by
    induction rest generalizing entries with
    | nil => exact present
    | cons b rest ih =>
      apply ih
      show Lists _ _ (if b.dependent then _ else _)
      split
      · exact present
      · exact present.note _ _
  obtain ⟨before, behind, rfl⟩ := List.append_of_mem listed
  rw [collected, List.foldl_append, List.foldl_cons, free]
  exact kept behind _ (lists_note_self other _)

theorem lookup_filter {key : Text} {names : List Text} {entries : List (Text × List Text)}
    (found : entries.lookup key = some names) {keep : Text × List Text → Bool}
    (kept : keep (key, names)) : (entries.filter keep).lookup key = some names := by
  induction entries with
  | nil => cases found
  | cons entry rest ih =>
    obtain ⟨k, others⟩ := entry
    by_cases same : key = k
    · subst same
      obtain rfl : others = names := by simpa using found
      rw [List.filter_cons_of_pos kept]
      simp
    · have differs : (key == k) = false := beq_false_of_ne same
      have inner : rest.lookup key = some names := by simpa [List.lookup_cons, differs] using found
      rw [List.filter_cons]
      split
      · rw [List.lookup_cons, differs]
        exact ih inner
      · exact ih inner

/-- The table has the name of a typedef for its type, unless the name spells the type itself or some
typedef of the type depends on template parameters. -/
theorem mem_names {aliases : List Alias} {a : Alias} (listed : a ∈ aliases)
    (other : canonical a.name ≠ canonical a.type)
    (settled : ∀ b ∈ aliases, canonical b.type = canonical a.type → b.dependent = false) :
    a.name ∈ (ofAliases aliases).names a.type := by
  obtain ⟨names, found, present⟩ := lists_collected listed (settled a listed rfl) other
  have independent : canonical a.type ∉ dependentTypes aliases := by
    intro member
    obtain ⟨b, inside, same⟩ := List.mem_map.mp member
    obtain ⟨original, dependent⟩ := List.mem_filter.mp inside
    rw [settled b original same] at dependent
    cases dependent
  have some : names ≠ [] := List.ne_nil_of_mem present
  have kept : (ofAliases aliases).entries.lookup (canonical a.type) = .some names :=
    lookup_filter found (by simp [some, independent])
  rwa [AliasTable.names, find?, kept]

theorem names_congr (table : AliasTable) {type other : Text} (same : canonical type = canonical other) :
    table.names type = table.names other := by
  rw [names, names, find?, find?, same]

end AliasTable

/-- Neither `const` nor a reference nor a pointer stands around the name. -/
structure Form.Bare (form : Form) : Prop where
  const : form.const = false
  reference : form.reference = false
  pointers : form.pointers = 0

theorem TypeNode.bare_eq {d : TypeNode} (valid : d.Valid) (bare : d.tree.form.Bare) :
    ∃ sign name, d = .mk none sign name [] := by
  cases d with
  | mk lead sign name decorations =>
    obtain ⟨unqualified, unreferred, unpointed⟩ := bare
    have parts : lead.isSome = false ∧ decorations.head?.any Token.isConst = false := by
      simpa [TypeNode.tree, Tree.form] using unqualified
    obtain rfl : lead = none := by simpa using parts.1
    cases decorations with
    | nil => exact ⟨sign, name, rfl⟩
    | cons t ts =>
      have decoration : t.isDecoration := valid.2.2.2.2 t (.head _)
      have const : t.isConst = false := parts.2
      have reference : t.isReference = false := by
        have none := List.any_eq_false.mp unreferred t (.head _)
        simpa using none
      have pointer : t.isPointer = false := by
        have none := List.countP_eq_zero.mp unpointed t (.head _)
        simpa using none
      simp [Token.isDecoration, const, reference, pointer] at decoration

theorem canonical_spelling {type : Text} {tree : Tree} (parsed : parse type = .ok tree)
    (bare : tree.form.Bare) : canonical tree.form.spelling = canonical type := by
  obtain ⟨ts, spelled, d, ⟨valid, rfl⟩, rfl⟩ := parse_eq_ok_iff.mp parsed
  obtain ⟨sign, name, rfl⟩ := TypeNode.bare_eq valid bare
  obtain ⟨formed, tail, blank, text⟩ := tokens_spell spelled
  generalize row : (TypeNode.mk none sign name []).yield = ts at formed text
  have spelling : (TypeNode.mk none sign name []).tree.form.spelling = canonical (rowText ts) := by
    simp [TypeNode.tree, Tree.form, ← row, TypeNode.yield, rowText]
  calc canonical (TypeNode.mk none sign name []).tree.form.spelling
    _ = canonical (rowText ts) := by rw [spelling, canonical_canonical formed]
    _ = rowText (neatRow true ts) := canonical_row formed
    _ = canonical type := by rw [text, ← canonical_rowText formed blank, rowText]

theorem Tree.matchesAll_of_extra {extra : Extra} {tree : Tree} (bare : tree.form.Bare) {p : Pattern}
    (choice : p ∈ extra tree.form.spelling) {s : Text} (taken : p.Takes none s []) :
    (tree.pattern extra).matchesAll s := by
  cases tree with
  | mk form path =>
    have undecorated : form.decoration = .empty := by
      simp [Form.decoration, show form.reference = false from bare.reference,
        show form.pointers = 0 from bare.pointers]
    rw [matchesAll_iff, Tree.pattern, undecorated]
    have member : p.group .one ∈ (namePattern form.sign
        (path.scopesPattern (path.allScopes extra)) (path.lastPattern extra) ::
          extra form.spelling ++ form.legacyPatterns).map (group · .one) :=
      List.mem_map_of_mem (List.mem_append_left _ (.tail _ choice))
    have chosen := (takes_oneOf (List.ne_nil_of_mem member)).mpr
      ⟨_, member, takes_group_one.mpr taken⟩
    have unqualified : optionalConst.Takes none [] (s ++ []) := takes_group_optional.mpr (.inl rfl)
    refine ⟨s, [], (List.append_nil s).symm, ?_, rfl⟩
    exact ⟨[], s, rfl, by simpa using unqualified, takes_group_one.mpr chosen⟩

/-- A typedef that is one word is honoured for every type without decoration. -/
theorem matches_typedef_name {aliases : List Alias} {a : Alias} (listed : a ∈ aliases)
    (word : Text.IsWordRun a.name) (other : canonical a.name ≠ canonical a.type)
    (settled : ∀ b ∈ aliases, canonical b.type = canonical a.type → b.dependent = false)
    {tree : Tree} (parsed : parse a.type = .ok tree) (bare : tree.form.Bare) :
    (pattern a.type (.ofAliases aliases) true).matchesAll a.name := by
  have named : a.name ∈ (AliasTable.ofAliases aliases).names tree.form.spelling := by
    rw [AliasTable.names_congr _ (canonical_spelling parsed bare)]
    exact AliasTable.mem_names listed other settled
  have choice : (read a.name).bareName (fun _ => []) ∈
      (AliasTable.ofAliases aliases).extra tree.form.spelling := List.mem_map_of_mem named
  have itself : a.name ∈ foreignScope * exact a.name :=
    Language.mem_mul.mpr ⟨[], .inl rfl, a.name, rfl, rfl⟩
  have taken := (spells_bareName_of_word word.2 (fun _ => []) none a.name []).mpr itself
  rw [pattern_of_parse parsed]
  exact tree.matchesAll_of_extra bare choice taken

def unsignedInt : Tree :=
  .mk ⟨false, some .unsigned, false, 0, "unsigned int".toList⟩ (.base (.plain ["int".toList]))

theorem parse_unsignedInt : parse "unsigned int".toList = .ok unsignedInt := by
  have row : tokens "unsigned int".toList =
      .ok [⟨.word, [], "unsigned".toList⟩, ⟨.word, [' '], "int".toList⟩] :=
    tokens_of_readsRow (by decide)
  rw [parse, row]
  rfl

theorem matches_typedef_name_unsignedInt :
    let a : Alias := ⟨"uint".toList, "unsigned int".toList, false⟩
    a ∈ [a] ∧ Text.IsWordRun a.name ∧ canonical a.name ≠ canonical a.type ∧
      (∀ b ∈ [a], canonical b.type = canonical a.type → b.dependent = false) ∧
      parse a.type = .ok unsignedInt ∧ unsignedInt.form.Bare ∧
      (pattern a.type (.ofAliases [a]) true).matchesAll a.name := by
  intro a
  have listed : a ∈ [a] := .head _
  have word : Text.IsWordRun a.name := by decide +kernel
  have other : canonical a.name ≠ canonical a.type := by decide
  have settled : ∀ b ∈ [a], canonical b.type = canonical a.type → b.dependent = false := by
    intro b member _
    rw [List.mem_singleton.mp member]
  have bare : unsignedInt.form.Bare := ⟨rfl, rfl, rfl⟩
  exact ⟨listed, word, other, settled, parse_unsignedInt, bare,
    matches_typedef_name listed word other settled parse_unsignedInt bare⟩

def intPointer : Tree :=
  .mk ⟨false, none, false, 1, "int".toList⟩ (.base (.plain ["int".toList]))

theorem parse_intPointer : parse "int*".toList = .ok intPointer := by
  have row : tokens "int*".toList = .ok [⟨.word, [], "int".toList⟩, ⟨.mark, [], ['*']⟩] :=
    tokens_of_readsRow (by decide)
  rw [parse, row]
  rfl

theorem not_matches_typedef_of_pointer :
    let a : Alias := ⟨"IntPtr".toList, "int*".toList, false⟩
    a ∈ [a] ∧ Text.IsWordRun a.name ∧ canonical a.name ≠ canonical a.type ∧
      (∀ b ∈ [a], canonical b.type = canonical a.type → b.dependent = false) ∧
      parse a.type = .ok intPointer ∧
      (pattern a.type (.ofAliases [a]) true).matchesAll a.name = false := by
  intro a
  have settled : ∀ b ∈ [a], canonical b.type = canonical a.type → b.dependent = false := by
    intro b member _
    rw [List.mem_singleton.mp member]
  refine ⟨.head _, by decide +kernel, by decide, settled, parse_intPointer, ?_⟩
  rw [pattern_of_parse parse_intPointer]
  decide +kernel

end Apidoc.PrintedType
