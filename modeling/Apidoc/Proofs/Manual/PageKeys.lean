import Apidoc.Proofs.Text.Character
import Apidoc.Proofs.Text.Replacement
import Apidoc.Scope

/-!
The keys of pages. The names in them have neither hyphens nor full stops, so that a key gives them
back: scopes share a page only if they and the classes around them are named alike.
-/
namespace Apidoc

namespace Text

def IsIdentifier (s : Text) : Prop :=
  s ≠ [] ∧ (∀ c ∈ s, c.toNat < 128 ∧ isWord c) ∧ s.head?.any Char.isDigit = false

instance (s : Text) : Decidable (IsIdentifier s) :=
  inferInstanceAs (Decidable
    (s ≠ [] ∧ (∀ c ∈ s, c.toNat < 128 ∧ isWord c) ∧ s.head?.any Char.isDigit = false))

theorem lower_of_ascii {s : Text} (ascii : ∀ c ∈ s, c.toNat < 128) :
    lower s = s.map Char.toLower := by
  have behind (before : Text) : lowerAfter before s = s.map Char.toLower := by
    induction s generalizing before with
    | nil => rfl
    | cons c s ih =>
      obtain ⟨here, rest⟩ := List.forall_mem_cons.mp ascii
      have other : c ≠ 'Σ' := by
        rintro rfl
        exact absurd here (by decide)
      rw [lowerAfter, if_neg other, lowerChar, if_pos here, ih rest]
      rfl
  exact behind []

theorem IsIdentifier.not_mem_lower {s : Text} (identifier : IsIdentifier s) :
    '-' ∉ lower s ∧ '.' ∉ lower s := by
  obtain ⟨-, chars, -⟩ := identifier
  have all : ∀ n < 128, isWord (Char.ofNat n) →
      (Char.ofNat n).toLower ≠ '-' ∧ (Char.ofNat n).toLower ≠ '.' := by decide
  have each {c : Char} (member : c ∈ s) : c.toLower ≠ '-' ∧ c.toLower ≠ '.' := by
    obtain ⟨ascii, word⟩ := chars c member
    simpa [word] using all c.toNat ascii
  rw [lower_of_ascii fun c member => (chars c member).1]
  constructor
  · intro member
    obtain ⟨c, inside, same⟩ := List.mem_map.mp member
    exact (each inside).1 same
  · intro member
    obtain ⟨c, inside, same⟩ := List.mem_map.mp member
    exact (each inside).2 same

end Text

namespace Scope

def classAround? (s : Scope) : Option Scope := s.enclosing.filter isClass

/-- The scope is no interface, and it and the class around it have ASCII identifiers for names. -/
structure HasPlainNames (s : Scope) : Prop where
  whole : s.interface = false
  name : Text.IsIdentifier s.name
  around : ∀ p ∈ s.classAround?, Text.IsIdentifier p.name

def stem (s : Scope) : Text := s.parentStem ++ s.pageStem

def hyphened (outer : Option Text) (name : Text) : Text := outer.elim name (· ++ '-' :: name)

theorem hyphened_eq_iff {outer outer' : Option Text} {name name' : Text} (own : '-' ∉ name)
    (own' : '-' ∉ name') :
    hyphened outer name = hyphened outer' name' ↔ outer = outer' ∧ name = name' := by
  constructor
  · intro same
    cases outer with
    | none =>
      cases outer' with
      | none => exact ⟨rfl, same⟩
      | some u =>
        obtain rfl : name = u ++ '-' :: name' := same
        exact absurd (by simp) own
    | some t =>
      cases outer' with
      | none =>
        obtain rfl : t ++ '-' :: name = name' := same
        exact absurd (by simp) own'
      | some u =>
        obtain ⟨rfl, rfl⟩ := Text.last_unique own own' same
        exact ⟨rfl, rfl⟩
  · rintro ⟨rfl, rfl⟩
    rfl

def outer? (s : Scope) : Option Text := s.classAround?.map fun p => Text.lower p.name

variable {s c d : Scope}

theorem HasPlainNames.stem_eq (plain : s.HasPlainNames) :
    s.stem = hyphened s.outer? (Text.lower s.name) := by
  have own : s.pageStem = Text.lower s.name := by
    rw [Scope.pageStem, plain.whole]
    rfl
  rw [stem, own, parentStem, outer?, classAround?]
  cases s.enclosing with
  | none => rfl
  | some p => cases isClass : p.isClass <;> simp [isClass, Option.filter, hyphened]

theorem HasPlainNames.not_mem_outer? (plain : s.HasPlainNames) :
    ∀ t ∈ s.outer?, '-' ∉ t ∧ '.' ∉ t := by
  intro t member
  obtain ⟨p, around, rfl⟩ := Option.map_eq_some_iff.mp member
  exact (plain.around p around).not_mem_lower

theorem HasPlainNames.not_mem_stem (plain : s.HasPlainNames) : '.' ∉ s.stem := by
  have name := plain.name.not_mem_lower.2
  rw [plain.stem_eq]
  cases around : s.outer? with
  | none => exact name
  | some t =>
    have other := (plain.not_mem_outer? t around).2
    simp [hyphened, name, other]

theorem HasPlainNames.stem_eq_iff (plain : c.HasPlainNames) (plain' : d.HasPlainNames) :
    c.stem = d.stem ↔ c.outer? = d.outer? ∧ Text.lower c.name = Text.lower d.name := by
  rw [plain.stem_eq, plain'.stem_eq,
    hyphened_eq_iff plain.name.not_mem_lower.1 plain'.name.not_mem_lower.1]

theorem HasPlainNames.stem_eq_retired_iff (plain : c.HasPlainNames) (plain' : d.HasPlainNames) :
    d.stem ++ "-obsolete".toList = c.stem ↔ d.outer? = none ∧
      Text.lower c.name = "obsolete".toList ∧ c.outer? = some (Text.lower d.name) := by
  have retired : d.stem ++ "-obsolete".toList = hyphened (some d.stem) "obsolete".toList := rfl
  rw [retired, plain.stem_eq, hyphened_eq_iff (by decide) plain.name.not_mem_lower.1]
  constructor
  · rintro ⟨outer, name⟩
    have whole := (plain.not_mem_outer? _ outer.symm).1
    rw [plain'.stem_eq] at whole outer
    cases around : d.outer? with
    | none =>
      rw [around] at outer
      exact ⟨rfl, name.symm, outer.symm⟩
    | some t =>
      -- the class around a scope has no hyphen in its name
      rw [around] at whole
      exact absurd (by simp [hyphened]) whole
  · rintro ⟨none, name, outer⟩
    rw [plain'.stem_eq, none, outer, name]
    exact ⟨rfl, rfl⟩

theorem outer?_eq_iff : c.outer? = d.outer? ↔
    (∃ p ∈ c.classAround?, ∃ q ∈ d.classAround?, Text.lower p.name = Text.lower q.name) ∨
      c.classAround? = none ∧ d.classAround? = none := by
  unfold outer?
  cases c.classAround? <;> cases d.classAround? <;> simp

end Scope

namespace Layout

theorem page_named (layout : Layout) {s : Scope} (named : s.name ≠ []) :
    layout.page (some s) = s.stem ++ layout.keyEnding := by
  rw [page, if_neg (by simpa using named)]
  rfl

theorem retiredKey_stem {stem : Text} (unmarked : '.' ∉ stem) :
    ({} : Layout).retiredKey (stem ++ ".html".toList) = stem ++ "-obsolete.html".toList := by
  have some : ".html".toList ≠ [] := by decide
  have replaced : Text.Replaced ".html".toList "-obsolete.html".toList
      (stem ++ (".html".toList ++ [])) (stem ++ ("-obsolete.html".toList ++ [])) := by
    refine .first ?_ (.none (by decide))
    intro x y split something starts
    obtain ⟨c, y, rfl⟩ := List.exists_cons_of_ne_nil something
    have same : '.' = c := (List.cons_prefix_cons.mp starts).1
    exact unmarked (by simp [split, ← same])
  simpa [retiredKey] using ((Text.replaced_iff some).mp replaced).symm

/-- Scopes share a page if they and the classes around them have the same names in lower case, and
share the page of their retired members if they share a page. The page of a scope is that of the
retired members of another one only if it is named `Obsolete` and lies in a class of that name. -/
theorem page_eq_iff {c d : Scope} (plain : c.HasPlainNames) (plain' : d.HasPlainNames) :
    let layout : Layout := {}
    let key (s : Scope) := layout.page (some s)
    (key c = key d ↔ Text.lower c.name = Text.lower d.name ∧
      ((∃ p ∈ c.classAround?, ∃ q ∈ d.classAround?, Text.lower p.name = Text.lower q.name) ∨
        c.classAround? = none ∧ d.classAround? = none)) ∧
    (layout.retiredKey (key c) = layout.retiredKey (key d) ↔ key c = key d) ∧
    (layout.retiredKey (key d) = key c ↔ d.classAround? = none ∧
      Text.lower c.name = "obsolete".toList ∧
      ∃ p ∈ c.classAround?, Text.lower p.name = Text.lower d.name) := by
  intro layout key
  have written {s : Scope} (plain : s.HasPlainNames) : key s = s.stem ++ ".html".toList :=
    layout.page_named plain.name.1
  have retired {s : Scope} (plain : s.HasPlainNames) :
      layout.retiredKey (key s) = s.stem ++ "-obsolete.html".toList := by
    rw [written plain, retiredKey_stem plain.not_mem_stem]
  have same : key c = key d ↔ c.stem = d.stem := by
    rw [written plain, written plain', List.append_left_inj]
  refine ⟨?_, ?_, ?_⟩
  · rw [same, plain.stem_eq_iff plain', Scope.outer?_eq_iff, and_comm]
  · rw [retired plain, retired plain', List.append_left_inj, same]
  · have ending : "-obsolete.html".toList = "-obsolete".toList ++ ".html".toList := rfl
    rw [retired plain', written plain, ending, ← List.append_assoc, List.append_left_inj,
      plain.stem_eq_retired_iff plain']
    simp only [Scope.outer?, Option.map_eq_none_iff, Option.map_eq_some_iff, Option.mem_def]

theorem page_eq_iff_obsoleteClass :
    let map : Scope := ⟨"QMap".toList, .classLike false, [], none⟩
    let obsolete : Scope := ⟨"Obsolete".toList, .classLike false, [], some map⟩
    let layout : Layout := {}
    obsolete.HasPlainNames ∧ map.HasPlainNames ∧
      layout.retiredKey (layout.page (some map)) = layout.page (some obsolete) ∧
      layout.page (some obsolete) ≠ layout.page (some map) := by
  intro map obsolete layout
  have around : obsolete.classAround? = some map := rfl
  have plain : map.HasPlainNames := ⟨rfl, by decide, nofun⟩
  have plain' : obsolete.HasPlainNames := by
    refine ⟨rfl, by decide, ?_⟩
    rintro _ ⟨⟩
    exact plain.name
  obtain ⟨shared, -, retired⟩ := page_eq_iff plain' plain
  refine ⟨plain', plain, retired.mpr ⟨rfl, by decide, map, around, rfl⟩, ?_⟩
  intro same
  exact absurd (shared.mp same).1 (by decide)

end Layout

end Apidoc
