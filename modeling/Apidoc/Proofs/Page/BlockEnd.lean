import Apidoc.Page.FunctionBlock
import Apidoc.Proofs.Page.Description
import Apidoc.Proofs.Pattern.Search
import Mathlib.Data.List.Infix

/-!
Where the description of a function ends. It is free text up to the end of its block, and stops at
the first place behind its first character where a block ends.
-/
namespace Apidoc.Page

open Pattern

theorem endsBlock_of_line {layout : Layout} (valid : layout.IsValid) (low : layout.trailingLow = 1)
    {s v : Text} (blank : ∀ c ∈ s, Text.isBlank c)
    (last : IsMark v ∨ IsLines layout.functionBlock v) : EndsBlock layout ('\n' :: (s ++ v)) := by
  have line : IsLines 1 ('\n' :: s) := ⟨s, [], by rw [List.append_nil], blank, rfl⟩
  exact ⟨1, '\n' :: s, v, rfl, Nat.le_of_eq low, low ▸ valid, line, last⟩

/-- A block can end in front of the text. -/
def BlockEndsAt (layout : Layout) (s : Text) : Prop := ∃ w, EndsBlock layout w ∧ w <+: s

theorem ends_functionEnd {layout : Layout} (valid : layout.IsValid) {c : Cursor} :
    (functionEnd layout).ends c ≠ [] ↔ BlockEndsAt layout c.rest := by
  rw [ends_ne_nil_iff]
  constructor
  · intro ends
    obtain ⟨w, rest, split, taken⟩ := ends
    exact ⟨w, (takes_functionEnd valid).mp taken, rest, split.symm⟩
  · intro ends
    obtain ⟨w, ends, rest, split⟩ := ends
    exact ⟨w, rest, split.symm, (takes_functionEnd valid).mpr ends⟩

/-- A description in front of the first end of a block behind its first character. -/
structure EndsFirst (layout : Layout) (docs back : Text) : Prop where
  word : docs.head?.any Text.isWord
  ends : BlockEndsAt layout back
  first : ∀ u v, docs = u ++ v → u ≠ [] → v ≠ [] → ¬ BlockEndsAt layout (v ++ back)

theorem exists_endsFirst {layout : Layout} (valid : layout.IsValid) {c x : Cursor}
    (first : ((seq (.field .docs (all [.chars .word .one, .chars .any .lazyStar]))
      (functionEnd layout)).ends c).head? = some x) :
    ∃ docs back, c.rest = docs ++ back ∧ EndsFirst layout docs back ∧
      x.captures = ⟨.docs, c.rest, docs.length⟩ :: c.captures := by
  have places : (seq (.field .docs (all [.chars .word .one, .chars .any .lazyStar]))
      (functionEnd layout)).ends c =
      ((chars .word .one).ends c).flatMap fun a =>
        (a.stops .any .lazyStar).flatMap fun e => (functionEnd layout).ends (e.keep .docs c) := by
    simp only [all, ends, List.map_flatMap, List.flatMap_map, List.flatMap_assoc]
  rw [places] at first
  obtain ⟨a, member, first⟩ := exists_of_head?_flatMap first
  obtain ⟨_, started, taken, kept⟩ := mem_ends rfl member
  obtain ⟨l, rfl, word⟩ := takes_chars_one.mp taken
  obtain ⟨w, back, rest, ends, nearer, captures⟩ :=
    exists_kept_of_lazy rfl (fun _ => ends_functionEnd valid) started kept first
  refine ⟨l :: w, back, ?_, ⟨word, ends, ?_⟩, captures⟩
  · rw [started.rest, rest]
    rfl
  · intro u v split some more
    obtain ⟨k, u, rfl⟩ := List.exists_cons_of_ne_nil some
    exact nearer u v (List.cons.inj split).2 more

namespace EndsFirst

variable {layout : Layout} {docs back : Text} (ended : EndsFirst layout docs back)
include ended

theorem not_endsAt {i : Nat} (some : 1 ≤ i) (few : i < docs.length) :
    ¬ BlockEndsAt layout ((docs ++ back).drop i) := by
  rw [List.drop_append_of_le_length (Nat.le_of_lt few)]
  refine ended.first (docs.take i) _ (List.take_append_drop i docs).symm ?_ ?_
  · rw [← List.length_pos_iff, List.length_take]
    omega
  · rw [← List.length_pos_iff, List.length_drop]
    omega

theorem not_occurs {w : Text} (starts : w.head? = some '\n') (ends : EndsBlock layout w) :
    ¬ w <:+: docs := by
  rintro ⟨u, v, split⟩
  have front : u ≠ [] := by
    rintro rfl
    have word := ended.word
    cases w with
    | nil => cases starts
    | cons c w =>
      cases starts
      rw [← split] at word
      exact absurd word (show ¬ Text.isWord '\n' by decide)
  refine ended.first u (w ++ v) (by rw [← split, List.append_assoc]) front ?_ ⟨w, ends, ?_⟩
  · rintro none
    rw [(List.append_eq_nil_iff.mp none).1] at starts
    cases starts
  · exact ⟨v ++ back, by rw [List.append_assoc]⟩

theorem not_lines (valid : layout.IsValid) (low : layout.trailingLow = 1)
    (block : layout.functionBlock = 2) {l : Text} (lines : IsLines 3 l) : ¬ l <:+: docs := by
  obtain ⟨s, v, rfl, blank, others⟩ := lines
  exact ended.not_occurs rfl (endsBlock_of_line valid low blank (.inr (block ▸ others)))

theorem not_mark (valid : layout.IsValid) (low : layout.trailingLow = 1) {s m : Text}
    (blank : ∀ c ∈ s, Text.isBlank c) (mark : IsMark m) : ¬ '\n' :: (s ++ m) <:+: docs :=
  ended.not_occurs rfl (endsBlock_of_line valid low blank (.inl mark))

end EndsFirst

theorem findFunction?_eq_some {layout : Layout} {table : PrintedType.AliasTable} {complete : Bool}
    {f : Function} {page : Text} {text : FunctionText}
    (found : findFunction? layout table complete f page = .ok (some text)) :
    layout.IsValid ∧ ∃ m, (functionBlock layout table complete f).search? page = some m ∧
      text = ⟨m.get .docs, m.get .arguments⟩ := by
  have valid : layout.IsValid := by
    by_contra invalid
    rw [findFunction?, functionSearch, if_neg invalid] at found
    cases found
  rw [findFunction?, functionSearch, if_pos valid] at found
  obtain ⟨m, searched, rfl⟩ := Option.map_eq_some_iff.mp (Except.ok.inj found)
  exact ⟨valid, m, searched, rfl⟩

/-- A match on a page keeps a description that ends with its block. -/
theorem endsFirst_of_search {layout : Layout} (valid : layout.IsValid)
    {table : PrintedType.AliasTable} {complete : Bool} {f : Function} {page : Text} {m : Match}
    (searched : (functionBlock layout table complete f).search? page = some m) :
    ∃ front docs back, page = front ++ (docs ++ back) ∧ EndsFirst layout docs back ∧
      m.stop.captures.find? (·.field = .docs) = some ⟨.docs, docs ++ back, docs.length⟩ := by
  obtain ⟨u, v, d, rfl, first, rfl⟩ := searchFrom?_eq_some searched
  let heading := [functionStart, returnType, scopeOrBlank (scopeName f.scope),
    declarator table complete f, headingEnd]
  have parts : functionBlock layout table complete f = all (heading ++
    [.field .docs (all [.chars .word .one, .chars .any .lazyStar]), functionEnd layout]) := rfl
  rw [parts] at first
  obtain ⟨w, c, passes, first⟩ := exists_of_head?_all (List.cons_ne_nil _ _) first
  obtain ⟨docs, back, rest, ended, captures⟩ := exists_endsFirst valid first
  refine ⟨u ++ w, docs, back, ?_, ended, ?_⟩
  · rw [List.append_assoc, ← rest]
    exact congrArg (u ++ ·) passes.rest
  · rw [captures, rest]
    rfl

/-- A description that is found starts with a word and never runs past its block: no block ends
behind its first character and before its end. -/
theorem findFunction?_endsFirst {layout : Layout} {table : PrintedType.AliasTable}
    {complete : Bool} {f : Function} {page : Text} {text : FunctionText}
    (found : findFunction? layout table complete f page = .ok (some text)) :
    ∃ m front back, (functionBlock layout table complete f).search? page = some m ∧
      text.arguments = m.get .arguments ∧ page = front ++ (text.docs ++ back) ∧
      m.stop.captures.find? (·.field = .docs) =
        some ⟨.docs, text.docs ++ back, text.docs.length⟩ ∧
      text.docs.head?.any Text.isWord ∧ BlockEndsAt layout back ∧
      (∀ i, 1 ≤ i → i < text.docs.length →
        ¬ BlockEndsAt layout (page.drop (front.length + i))) ∧
      (layout.trailingLow = 1 → layout.functionBlock = 2 →
        (∀ l, IsLines 3 l → ¬ l <:+: text.docs) ∧
          ∀ s m, (∀ c ∈ s, Text.isBlank c) → IsMark m → ¬ '\n' :: (s ++ m) <:+: text.docs) := by
  obtain ⟨valid, m, searched, rfl⟩ := findFunction?_eq_some found
  obtain ⟨front, docs, back, split, ended, kept⟩ := endsFirst_of_search valid searched
  refine ⟨m, front, back, searched, rfl, ?_⟩
  rw [get_of_kept kept]
  refine ⟨split, kept, ended.word, ended.ends, ?_, fun low block =>
    ⟨fun l lines => ended.not_lines valid low block lines,
      fun s m blank mark => ended.not_mark valid low blank mark⟩⟩
  intro i some few
  rw [split, ← List.drop_drop, List.drop_left]
  exact ended.not_endsAt some few

theorem findFunction?_endsFirst_clear :
    let f : Function := ⟨"clear".toList, "clear".toList, none, none, [], []⟩
    let page := "\n\nvoid clear()\nClears it.\n\nUndo works.\n \n&redo --\n\nRedo.\n\n\n\n".toList
    let text : FunctionText := ⟨"Clears it.\n\nUndo works.".toList, []⟩
    findFunction? {} .empty true f page = .ok (some text) ∧
      ∃ m front back, (functionBlock {} .empty true f).search? page = some m ∧
        text.arguments = m.get .arguments ∧ page = front ++ (text.docs ++ back) ∧
        m.stop.captures.find? (·.field = .docs) =
          some ⟨.docs, text.docs ++ back, text.docs.length⟩ ∧
        text.docs.head?.any Text.isWord ∧ BlockEndsAt {} back ∧
        (∀ i, 1 ≤ i → i < text.docs.length →
          ¬ BlockEndsAt {} (page.drop (front.length + i))) ∧
        (({} : Layout).trailingLow = 1 → ({} : Layout).functionBlock = 2 →
          (∀ l, IsLines 3 l → ¬ l <:+: text.docs) ∧
            ∀ s m, (∀ c ∈ s, Text.isBlank c) → IsMark m →
              ¬ '\n' :: (s ++ m) <:+: text.docs) := by
  intro f page text
  have found : findFunction? {} .empty true f page = .ok (some text) := by decide +kernel
  exact ⟨found, findFunction?_endsFirst found⟩

end Apidoc.Page
