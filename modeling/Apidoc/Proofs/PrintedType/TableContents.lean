import Apidoc.Proofs.PrintedType.Registered
import Mathlib.Data.Set.Card

namespace Apidoc.PrintedType.AliasTable

def noteAll (aliases : List Alias) : List (Text × List Text) :=
  aliases.foldl (fun entries a => note (canonical a.type) a.name entries) []

/-- The names that typedefs give to the types of this canonical spelling, one for each typedef that
does not name such a type by its own spelling. -/
def given (aliases : List Alias) (key : Text) : List Text :=
  (aliases.filter fun a => canonical a.type = key ∧ canonical a.name ≠ key).map (·.name)

/-- Some typedef of a type of this canonical spelling depends on template parameters. -/
def Unsettled (aliases : List Alias) (key : Text) : Prop :=
  ∃ a ∈ aliases, a.dependent ∧ canonical a.type = key

instance (aliases : List Alias) (key : Text) : Decidable (Unsettled aliases key) :=
  inferInstanceAs (Decidable (∃ a ∈ aliases, a.dependent ∧ canonical a.type = key))

theorem mem_dependentTypes {aliases : List Alias} {key : Text} :
    key ∈ dependentTypes aliases ↔ Unsettled aliases key := by
  simp [dependentTypes, Unsettled, and_assoc]

theorem collected_eq (aliases : List Alias) :
    collected aliases = noteAll (aliases.filter fun a => !a.dependent) := by
  rw [collected, noteAll, List.foldl_filter]
  congr
  funext entries a
  cases a.dependent <;> rfl

theorem noteAll_concat (aliases : List Alias) (a : Alias) :
    noteAll (aliases ++ [a]) = note (canonical a.type) a.name (noteAll aliases) := by
  simp [noteAll]

section Keys

variable {key name : Text} {entries : List (Text × List Text)}

theorem keys_note : (note key name entries).map Prod.fst =
    if key ∈ entries.map Prod.fst then entries.map Prod.fst else entries.map Prod.fst ++ [key] := by
  induction entries with
  | nil => rfl
  | cons entry rest ih =>
    obtain ⟨k, names⟩ := entry
    by_cases same : k = key
    · simp [note, same]
    · have apart : key ≠ k := Ne.symm same
      simp only [note, if_neg same, List.map_cons, ih, List.mem_cons, apart, false_or]
      split <;> rfl

theorem keys_note_nodup (distinct : (entries.map Prod.fst).Nodup) :
    ((note key name entries).map Prod.fst).Nodup := by
  rw [keys_note]
  split
  · exact distinct
  · next new => exact (List.nodup_append_comm.mp (List.nodup_cons.mpr ⟨new, distinct⟩))

theorem lookup_of_mem {names : List Text} (distinct : (entries.map Prod.fst).Nodup)
    (member : (key, names) ∈ entries) : entries.lookup key = some names := by
  obtain ⟨before, behind, rfl⟩ := List.append_of_mem member
  refine List.lookup_eq_some_iff.mpr ⟨before, behind, rfl, fun entry inside => ?_⟩
  have apart := (List.nodup_append.mp (by simpa using distinct)).2.2
  exact bne_iff_ne.mpr (apart entry.1 (List.mem_map_of_mem inside) key (.head _)).symm

theorem lookup_filter_eq (distinct : (entries.map Prod.fst).Nodup)
    (keep : Text × List Text → Bool) : (entries.filter keep).lookup key =
      (entries.lookup key).filter fun names => keep (key, names) := by
  cases found : (entries.filter keep).lookup key with
  | some names =>
    obtain ⟨before, behind, row, -⟩ := List.lookup_eq_some_iff.mp found
    have member : (key, names) ∈ entries.filter keep := by simp [row]
    obtain ⟨inside, kept⟩ := List.mem_filter.mp member
    rw [lookup_of_mem distinct inside, Option.filter_some, if_pos kept]
  | none =>
    cases first : entries.lookup key with
    | none => rfl
    | some names =>
      have lost : keep (key, names) = false := by
        by_contra kept
        rw [lookup_filter first (by simpa using kept)] at found
        cases found
      simp [Option.filter_some, lost]

end Keys

theorem keys_noteAll_nodup (aliases : List Alias) : ((noteAll aliases).map Prod.fst).Nodup := by
  induction aliases using List.reverseRecOn with
  | nil => exact List.nodup_nil
  | append_singleton before a ih =>
    rw [noteAll_concat]
    exact keys_note_nodup ih

theorem mem_keys_noteAll {aliases : List Alias} {key : Text} :
    key ∈ (noteAll aliases).map Prod.fst ↔ ∃ a ∈ aliases, canonical a.type = key := by
  induction aliases using List.reverseRecOn with
  | nil => simp [noteAll]
  | append_singleton before a ih =>
    rw [noteAll_concat, keys_note]
    split <;> grind

theorem given_concat (aliases : List Alias) (a : Alias) (key : Text) :
    given (aliases ++ [a]) key = given aliases key ++
      if canonical a.type = key ∧ canonical a.name ≠ key then [a.name] else [] := by
  rw [given, List.filter_append, List.map_append, given]
  split <;> simp [*]

theorem eraseDups_concat (names : List Text) (name : Text) :
    (names ++ [name]).eraseDups =
      if name ∈ names then names.eraseDups else names.eraseDups ++ [name] := by
  rw [List.eraseDups_append]
  split <;> simp [List.removeAll, List.eraseDups_cons, *]

theorem addName_eraseDups (key name : Text) (names : List Text) :
    addName key name names.eraseDups =
      (names ++ if canonical name ≠ key then [name] else []).eraseDups := by
  by_cases itself : canonical name = key
  · simp [addName, itself]
  · rw [if_pos itself, eraseDups_concat]
    simp [addName, itself]

theorem lookup_noteAll (aliases : List Alias) (key : Text) :
    ((noteAll aliases).lookup key).getD [] = (given aliases key).eraseDups := by
  induction aliases using List.reverseRecOn with
  | nil => rfl
  | append_singleton before a ih =>
    rw [noteAll_concat, given_concat]
    by_cases same : key = canonical a.type
    · subst same
      simp only [lookup_note_self, Option.getD_some, ih, addName_eraseDups, true_and]
    · rw [lookup_note_of_ne same, ih, if_neg fun both => same both.1.symm, List.append_nil]

theorem given_settled {aliases : List Alias} {key : Text} (settled : ¬ Unsettled aliases key) :
    given (aliases.filter fun a => !a.dependent) key = given aliases key := by
  rw [given, given, List.filter_filter]
  congr 1
  apply List.filter_congr
  intro a member
  by_cases same : canonical a.type = key
  · have free : a.dependent = false := by
      by_contra dependent
      exact settled ⟨a, member, by simpa using dependent, same⟩
    simp [free]
  · simp [same]

theorem find?_ofAliases (aliases : List Alias) (type : Text) :
    (ofAliases aliases).find? type = ((collected aliases).lookup (canonical type)).filter
      fun names => !names.isEmpty && !(dependentTypes aliases).contains (canonical type) := by
  rw [find?, ofAliases, collected_eq]
  exact lookup_filter_eq (keys_noteAll_nodup _) _

theorem names_eq (aliases : List Alias) (type : Text) :
    (ofAliases aliases).names type =
      if Unsettled aliases (canonical type) then [] else
        (given aliases (canonical type)).eraseDups := by
  rw [names, find?_ofAliases]
  by_cases unsettled : Unsettled aliases (canonical type)
  · have member := mem_dependentTypes.mpr unsettled
    cases (collected aliases).lookup (canonical type) <;> simp [unsettled, member]
  · have absent : canonical type ∉ dependentTypes aliases := mt mem_dependentTypes.mp unsettled
    rw [if_neg unsettled, ← given_settled unsettled, ← lookup_noteAll, ← collected_eq]
    rcases (collected aliases).lookup (canonical type) with _ | _ | ⟨name, names⟩ <;>
      simp [Option.filter_some, absent]

theorem contains_iff (aliases : List Alias) (type : Text) :
    (ofAliases aliases).contains type ↔ (ofAliases aliases).names type ≠ [] := by
  rw [contains, names, find?_ofAliases]
  rcases (collected aliases).lookup (canonical type) with _ | _ | ⟨name, names⟩
  · simp
  · simp [Option.filter_some]
  · by_cases absent : canonical type ∈ dependentTypes aliases <;> simp [Option.filter_some, absent]

def named (table : AliasTable) : Set Text :=
  canonical '' {type | table.names type ≠ []}

theorem named_eq (aliases : List Alias) : (ofAliases aliases).named =
    {key | key ∈ (ofAliases aliases).entries.map Prod.fst} := by
  ext key
  constructor
  · rintro ⟨type, some, rfl⟩
    obtain ⟨names, found⟩ := Option.isSome_iff_exists.mp ((contains_iff aliases type).mpr some)
    obtain ⟨before, behind, row, -⟩ := List.lookup_eq_some_iff.mp found
    exact List.mem_map.mpr ⟨(canonical type, names), by simp [row], rfl⟩
  · intro member
    obtain ⟨entry, inside, rfl⟩ := List.mem_map.mp member
    have original := (List.mem_filter.mp inside).1
    obtain ⟨a, -, same⟩ := mem_keys_noteAll.mp
      (collected_eq aliases ▸ List.mem_map_of_mem original)
    refine ⟨a.type, (contains_iff aliases a.type).mp ?_, same⟩
    rw [contains, find?, same]
    exact List.lookup_isSome_iff.mpr ⟨entry, inside, by simp⟩

theorem size_eq (aliases : List Alias) :
    (ofAliases aliases).named.encard = (ofAliases aliases).size := by
  have distinct : ((ofAliases aliases).entries.map Prod.fst).Nodup := by
    have all := keys_noteAll_nodup (aliases.filter fun a => !a.dependent)
    rw [← collected_eq] at all
    exact all.sublist (List.filter_sublist.map _)
  have finite : (ofAliases aliases).named =
      ((ofAliases aliases).entries.map Prod.fst).toFinset := by
    rw [named_eq, List.coe_toFinset]
  rw [finite, Set.encard_coe_eq_coe_finsetCard, List.toFinset_card_of_nodup distinct,
    List.length_map, size]

theorem mem_names_perm {aliases others : List Alias} (perm : aliases.Perm others)
    (type name : Text) :
    name ∈ (ofAliases aliases).names type ↔ name ∈ (ofAliases others).names type := by
  have unsettled : Unsettled aliases (canonical type) ↔ Unsettled others (canonical type) := by
    simp only [Unsettled, perm.mem_iff]
  have given : name ∈ given aliases (canonical type) ↔ name ∈ given others (canonical type) :=
    ((perm.filter _).map _).mem_iff
  rw [names_eq, names_eq]
  by_cases held : Unsettled others (canonical type)
  · rw [if_pos held, if_pos (unsettled.mpr held)]
  · rw [if_neg held, if_neg (mt unsettled.mp held), List.mem_eraseDups, List.mem_eraseDups, given]

theorem names_ne_nil_perm {aliases others : List Alias} (perm : aliases.Perm others) (type : Text) :
    (ofAliases aliases).names type ≠ [] ↔ (ofAliases others).names type ≠ [] := by
  simp only [ne_eq, List.eq_nil_iff_forall_not_mem, mem_names_perm perm]

/-- A type has the names that its typedefs give to it, each where it comes up first, and no name if
one of them depends on template parameters. The table contains the types that have names and counts
their canonical spellings. The order of the typedefs matters for nothing but the order of names. -/
theorem ofAliases_contents (aliases : List Alias) :
    (∀ type, (ofAliases aliases).names type =
      if Unsettled aliases (canonical type) then [] else
        (given aliases (canonical type)).eraseDups) ∧
    (∀ type, (ofAliases aliases).contains type ↔ (ofAliases aliases).names type ≠ []) ∧
    (ofAliases aliases).named.encard = (ofAliases aliases).size ∧
    ∀ others, aliases.Perm others →
      (ofAliases aliases).size = (ofAliases others).size ∧
      ∀ type, (ofAliases aliases).contains type = (ofAliases others).contains type ∧
        ∀ name, name ∈ (ofAliases aliases).names type ↔ name ∈ (ofAliases others).names type := by
  refine ⟨names_eq aliases, contains_iff aliases, size_eq aliases, fun others perm => ?_⟩
  have same : (ofAliases aliases).named = (ofAliases others).named := by
    simp only [named, names_ne_nil_perm perm]
  refine ⟨?_, fun type => ⟨?_, mem_names_perm perm type⟩⟩
  · have counted := size_eq aliases
    rw [same, size_eq others] at counted
    exact_mod_cast counted.symm
  · rw [Bool.eq_iff_iff, contains_iff, contains_iff, names_ne_nil_perm perm]

def mixed : List Alias :=
  [⟨"uint".toList, "unsigned int".toList, false⟩, ⟨"Row".toList, "T *".toList, false⟩,
    ⟨"word".toList, "unsigned  int".toList, false⟩, ⟨"uint".toList, "unsigned int".toList, false⟩,
    ⟨"pointer".toList, "T*".toList, true⟩, ⟨"unsigned\tint".toList, "unsigned int".toList, false⟩]

theorem ofAliases_contents_mixed :
    mixed.Perm mixed.reverse ∧
    (ofAliases mixed).names "unsigned int".toList = ["uint".toList, "word".toList] ∧
    (ofAliases mixed).names "T*".toList = [] ∧
    (ofAliases mixed).size = (ofAliases mixed.reverse).size ∧
    ∀ type name,
      name ∈ (ofAliases mixed).names type ↔ name ∈ (ofAliases mixed.reverse).names type := by
  obtain ⟨names, -, -, perm⟩ := ofAliases_contents mixed
  have reversed : mixed.Perm mixed.reverse := (List.reverse_perm mixed).symm
  refine ⟨reversed, (names _).trans (by decide), (names _).trans (by decide), ?_, ?_⟩
  · exact (perm _ reversed).1
  · exact fun type => ((perm _ reversed).2 type).2

end Apidoc.PrintedType.AliasTable
