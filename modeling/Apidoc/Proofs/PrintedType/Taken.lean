import Apidoc.Proofs.PrintedType.Brackets
import Apidoc.Proofs.PrintedType.Verbatim

namespace Apidoc.PrintedType

open Computability Pattern

section

variable {table : AliasTable} (words : table.OfWords) {type : Text} {complete : Bool}
  {before : Option Char} {w rest : Text}
include words

theorem level_of_tree {t : Tree} (reading : read type = .tree t)
    (taken : (pattern type table complete).Takes before w rest) : IsLevel 0 w := by
  have named := named_of_read reading
  cases t with
  | mk form path =>
    rw [pattern, reading] at taken
    obtain ⟨u, v, rfl, name, decoration⟩ := taken
    have own := spells_namePattern form.sign (spells_scopesPattern path (path.spells_scopes words))
      (path.spells_base words)
    have others := List.rel_append (spells_extra words form.spelling) (spells_legacyPatterns form)
    have levels := levels_undecorated form (words form.spelling) (levels_nameSpelling form.sign
      (levels_scopesSpelling path (path.levels_scopes words 0 named))
      (path.levels_base words 0 named))
    have front := levels u ((spells_anySpelling own others _ _ _).mp name)
    have plain : (if complete then form.decoration else looseDecoration).IsPlain
        ['<', '>', ','] := by
      split
      · exact isPlain_decoration (by decide) form
      · exact isPlain_looseDecoration (by decide)
    have flat : IsFlat v := ⟨not_mem_of_takes plain decoration (by decide),
      not_mem_of_takes plain decoration (by decide), not_mem_of_takes plain decoration (by decide)⟩
    exact front.append (flat.level 0)

theorem not_mem_of_tree {t : Tree} (reading : read type = .tree t)
    (taken : (pattern type table complete).Takes before w rest) : '=' ∉ w ∧ ')' ∉ w := by
  have plain : (pattern type table complete).IsPlain ['=', ')'] :=
    isPlain_of_tree (by decide) (isPlain_extra (by decide) words) complete (by decide) reading
  exact ⟨not_mem_of_takes plain taken (by decide), not_mem_of_takes plain taken (by decide)⟩

theorem not_mem_of_verbatim {const : Bool} {raw : Text} (reading : read type = .verbatim const raw)
    (unmarked : ¬ ∃ c ∈ cutMarks, c ∈ raw)
    (taken : (pattern type table complete).Takes before w rest) : ∀ c ∈ cutMarks, c ∉ w := by
  have free : ∀ c ∈ cutMarks, c ∉ raw := fun c mark inside => unmarked ⟨c, mark, inside⟩
  have plain : (pattern type table complete).IsPlain cutMarks :=
    isPlain_of_verbatim (by decide) (isPlain_extra (by decide) words) complete reading free
  exact fun c mark => not_mem_of_takes plain taken mark

end

/-- A type outside of the grammar with a comma or a closing parenthesis has no typedef names. -/
def AliasTable.Spares (table : AliasTable) (type : Text) : Prop :=
  ∀ const raw, read type = .verbatim const raw → (∃ c ∈ cutMarks, c ∈ raw) →
    table.names (canonical raw) = []

theorem AliasTable.spares_of_parse {table : AliasTable} {type : Text} {t : Tree}
    (parsed : parse type = .ok t) : table.Spares type := by
  intro const raw reading
  rw [read, parsed] at reading
  cases reading

/-- Two spellings of a type that start one text are the same up to their last closing parentheses. -/
theorem exists_core {table : AliasTable} (words : table.OfWords) {type : Text} {complete : Bool}
    (spares : table.Spares type) {s s' w w' x x' : Text} (blank : ∀ c ∈ s, Text.isBlank c)
    (blank' : ∀ c ∈ s', Text.isBlank c) (taken : (pattern type table complete).Takes none w [])
    (taken' : (pattern type table complete).Takes none w' [])
    (same : s ++ (w ++ x) = s' ++ (w' ++ x')) :
    ∃ core t t', s ++ w = core ++ t ∧ s' ++ w' = core ++ t' ∧ ')' ∉ t := by
  have open_blank {u : Text} (blank : ∀ c ∈ u, Text.isBlank c) : ')' ∉ u := by
    intro member
    exact absurd (blank ')' member) (by decide)
  cases reading : read type with
  | tree t =>
    refine ⟨[], s ++ w, s' ++ w', rfl, rfl, ?_⟩
    rw [List.mem_append]
    exact not_or.mpr ⟨open_blank blank, (not_mem_of_tree words reading taken).2⟩
  | verbatim const raw =>
    by_cases marked : ∃ c ∈ cutMarks, c ∈ raw
    · obtain ⟨core, t, t', eq, eq', space, -⟩ := blankApart_of_verbatim reading
        (spares const raw reading marked) marked blank blank' taken taken' same
      exact ⟨core, t, t', eq, eq', open_blank space⟩
    · refine ⟨[], s ++ w, s' ++ w', rfl, rfl, ?_⟩
      rw [List.mem_append]
      exact not_or.mpr ⟨open_blank blank,
        not_mem_of_verbatim words reading marked taken ')' (by decide)⟩

end Apidoc.PrintedType
