import Apidoc.Page.FunctionBlock
import Apidoc.Proofs.Pattern.Parts
import Apidoc.Proofs.PrintedType.Accepted

namespace Apidoc.Page

open Pattern PrintedType

def tight : CharClass := .oneOf [.char '*', .char '&', .char ']']

theorem tight_accepts {c : Char} : tight.accepts c ↔ c ∈ ['*', '&', ']'] := by
  simp [tight, CharClass.accepts, ClassItem.accepts]

theorem isWord_of_tight {c : Char} (close : tight.accepts c) : Text.isWord c = false := by
  have all : ∀ c ∈ ['*', '&', ']'], Text.isWord c = false := by decide
  exact all c (tight_accepts.mp close)

/-- A documented type with a name behind it, and whether a space stands between them. -/
structure NamedType where
  type : Text
  spaced : Bool
  name : Text

namespace NamedType

def separator (n : NamedType) : Text := if n.spaced then [' '] else []

def text (n : NamedType) : Text := n.type ++ (n.separator ++ n.name)

/-- The name is a word, and only follows a decoration directly. -/
structure WellFormed (n : NamedType) : Prop where
  word : Text.IsWordRun n.name
  separated : n.spaced = false → ∃ front c, n.type = front ++ [c] ∧ tight.accepts c

end NamedType

theorem behind_concat (before : Option Char) (u : Text) (c : Char) :
    behind before (u ++ [c]) = some c := by
  rw [behind_append]
  rfl

/-- What stands between a type and a name: white space, or nothing behind a decoration. -/
def Separates (before : Option Char) (w : Text) : Prop :=
  (w ≠ [] ∧ ∀ c ∈ w, Text.isBlank c) ∨ (w = [] ∧ ∃ c, before = some c ∧ tight.accepts c)

theorem takes_separator {before : Option Char} {w rest : Text} :
    (group (.alt someSpaces (.after tight)) .one).Takes before w rest ↔ Separates before w := by
  rw [takes_group_one]
  apply or_congr
  · exact takes_chars_plus
  · exact and_congr_right fun _ => Option.any_eq_true _ _

theorem mem_of_takes_defaultValue {before : Option Char} {w rest : Text}
    (taken : defaultValue.Takes before w rest) : '=' ∈ w := by
  obtain ⟨u, _, rfl, -, mark, v, rfl, equals, -⟩ := taken
  have sign : mark = ['='] := equals
  simp [sign]

theorem mem_of_takes_unlisted {before : Option Char} {w rest : Text}
    (taken : unlistedParameter.Takes before w rest) : '=' ∈ w := by
  obtain ⟨u, _, rfl, -, v, t, rfl, default, -⟩ := taken
  have equals := mem_of_takes_defaultValue default
  simp [equals]

theorem takes_nameAndDefault {before : Option Char} {w rest : Text} (plain : '=' ∉ w) :
    nameAndDefault.Takes before w rest ↔
      w = [] ∨ ∃ u v, w = u ++ v ∧ Separates before u ∧ Text.IsWordRun v := by
  rw [nameAndDefault, takes_group_optional]
  apply or_congr_right
  constructor
  · intro taken
    obtain ⟨u, _, rfl, first, v, d, rfl, word, default⟩ := taken
    have separated := takes_separator.mp first
    have none : d = [] := by
      rcases takes_group_optional.mp default with none | some
      · exact none
      · exact absurd (mem_of_takes_defaultValue some) (by simp at plain; exact plain.2.2)
    subst none
    exact ⟨u, v, by simp, separated, takes_chars_plus.mp word⟩
  · intro named
    obtain ⟨u, v, rfl, separated, word⟩ := named
    refine ⟨u, v, rfl, takes_separator.mpr separated, v, [], by simp, takes_chars_plus.mpr word, ?_⟩
    exact takes_group_optional.mpr (.inl rfl)

def EndsOutside (w : Text) : Prop := ∀ front c, w = front ++ [c] → Text.isWord c = false

theorem EndsOutside.eq_nil {u t : Text} (ends : EndsOutside (u ++ t))
    (word : ∀ c ∈ t, Text.isWord c) : t = [] := by
  rcases List.eq_nil_or_concat t with none | ⟨front, c, rfl⟩
  · exact none
  · have last := ends (u ++ front) c (by simp)
    rw [word c (by simp)] at last
    cases last

theorem last_word_unique {u v x y : Text} (first : EndsOutside u) (second : EndsOutside v)
    (word : Text.IsWordRun x) (word' : Text.IsWordRun y) (same : u ++ x = v ++ y) :
    u = v ∧ x = y := by
  rcases List.append_eq_append_iff.mp same with ⟨t, rfl, rfl⟩ | ⟨t, rfl, rfl⟩
  · have none := second.eq_nil fun c member => word.2 c (List.mem_append_left y member)
    subst none
    exact ⟨by simp, rfl⟩
  · have none := first.eq_nil fun c member => word'.2 c (List.mem_append_left x member)
    subst none
    exact ⟨by simp, rfl⟩

theorem endsOutside_nil : EndsOutside [] := by
  intro front c eq
  simp at eq

theorem endsOutside_concat {u : Text} {c : Char} (outside : Text.isWord c = false) :
    EndsOutside (u ++ [c]) := by
  intro front d eq
  obtain ⟨-, same⟩ := List.append_inj' eq rfl
  cases same
  exact outside

theorem EndsOutside.append {u v : Text} (first : EndsOutside u) (second : EndsOutside v) :
    EndsOutside (u ++ v) := by
  rcases List.eq_nil_or_concat v with rfl | ⟨front, c, rfl⟩
  · rwa [List.append_nil]
  · rw [List.concat_eq_append, ← List.append_assoc]
    exact endsOutside_concat (second front c (List.concat_eq_append))

theorem endsOutside_of_forall {w : Text} (all : ∀ c ∈ w, Text.isWord c = false) :
    EndsOutside w := by
  intro front c eq
  exact all c (by simp [eq])

theorem endsOutside_of_blank {w : Text} (blank : ∀ c ∈ w, Text.isBlank c) : EndsOutside w :=
  endsOutside_of_forall fun c member => Text.isWord_of_isBlank (blank c member)

theorem EndsOutside.eq_nil_of_append {u v x t : Text} (word : Text.IsWordRun x)
    (ends : EndsOutside t) (same : u ++ x = v ++ t) : t = [] := by
  rcases List.eq_nil_or_concat t with none | ⟨front, c, rfl⟩
  · exact none
  · rcases List.eq_nil_or_concat x with none | ⟨start, d, rfl⟩
    · exact absurd none word.1
    · rw [List.concat_eq_append, List.concat_eq_append, ← List.append_assoc, ← List.append_assoc]
        at same
      obtain ⟨-, last⟩ := List.append_inj' same rfl
      have outside := ends front c List.concat_eq_append
      rw [← (List.cons.inj last).1, word.2 d (by simp)] at outside
      cases outside

theorem Separates.endsOutside {before : Option Char} {front u : Text} {c : Char}
    (separated : Separates (behind before (front ++ [c])) u) :
    EndsOutside (front ++ [c] ++ u) := by
  rcases separated with ⟨some, blank⟩ | ⟨rfl, d, last, close⟩
  · rcases List.eq_nil_or_concat u with rfl | ⟨start, d, rfl⟩
    · exact absurd rfl some
    · rw [List.concat_eq_append, ← List.append_assoc]
      exact endsOutside_concat (Text.isWord_of_isBlank (blank d (by simp)))
  · rw [behind_concat] at last
    cases last
    rw [List.append_nil]
    exact endsOutside_concat (isWord_of_tight close)

namespace NamedType

variable {n : NamedType}

theorem WellFormed.separates (formed : n.WellFormed) (before : Option Char) :
    Separates (behind before n.type) n.separator := by
  unfold separator
  split
  · exact .inl ⟨by decide, by decide⟩
  · rename_i direct
    obtain ⟨front, c, eq, close⟩ := formed.separated (eq_false_of_ne_true direct)
    rw [eq, behind_concat]
    exact .inr ⟨rfl, c, rfl, close⟩

theorem WellFormed.endsOutside (formed : n.WellFormed) : EndsOutside (n.type ++ n.separator) := by
  unfold separator
  split
  · exact endsOutside_concat (by decide)
  · rename_i direct
    obtain ⟨front, c, eq, close⟩ := formed.separated (eq_false_of_ne_true direct)
    rw [List.append_nil, eq]
    exact endsOutside_concat (isWord_of_tight close)

end NamedType

/-- A text without white space at its ends. -/
structure IsTrimmed (s : Text) : Prop where
  first : ∀ c rest, s = c :: rest → Text.isBlank c = false
  last : ∀ front c, s = front ++ [c] → Text.isBlank c = false

theorem isTrimmed_of_ends {s : Text} (first : s.head?.all fun c => !Text.isBlank c)
    (last : s.getLast?.all fun c => !Text.isBlank c) : IsTrimmed s := by
  constructor
  · intro c rest eq
    rw [eq, List.head?_cons, Option.all_some] at first
    exact (Bool.not_eq_true' _).mp first
  · intro front c eq
    rw [eq, List.getLast?_concat, Option.all_some] at last
    exact (Bool.not_eq_true' _).mp last

theorem IsTrimmed.eq_nil {s w u : Text} (trimmed : IsTrimmed s) (blank : ∀ c ∈ u, Text.isBlank c)
    (same : s = w ++ u) : u = [] := by
  rcases List.eq_nil_or_concat u with none | ⟨start, c, rfl⟩
  · exact none
  · have solid := trimmed.last (w ++ start) c (by simp [same])
    rw [blank c (by simp)] at solid
    cases solid

theorem NamedType.eq_type {n : NamedType} (formed : n.WellFormed) (trimmed : IsTrimmed n.type)
    {before : Option Char} {w u v : Text} (some : w ≠ []) (word : Text.IsWordRun v)
    (separated : Separates (behind before w) u) (same : n.text = w ++ (u ++ v)) : n.type = w := by
  obtain ⟨front, c, rfl⟩ := (List.eq_nil_or_concat' w).resolve_left some
  rw [NamedType.text, ← List.append_assoc, ← List.append_assoc] at same
  obtain ⟨split, -⟩ :=
    last_word_unique formed.endsOutside separated.endsOutside formed.word word same
  unfold NamedType.separator at split
  rcases separated with ⟨nonempty, blank⟩ | ⟨rfl, d, last, close⟩
  · -- white space in front of the name: it is the space that the text has there
    obtain ⟨start, d, rfl⟩ := (List.eq_nil_or_concat' u).resolve_left nonempty
    split at split
    · rw [← List.append_assoc] at split
      obtain ⟨type, -⟩ := List.append_inj' split rfl
      have none := trimmed.eq_nil (fun e member => blank e (by simp [member])) type
      rw [type, none, List.append_nil]
    · rw [List.append_nil] at split
      exact absurd (trimmed.eq_nil blank split) (by simp)
  · -- none: then the type ends in the decoration
    rw [behind_concat] at last
    cases last
    split at split
    · rw [List.append_nil] at split
      obtain ⟨-, space⟩ := List.append_inj' split rfl
      rw [← (List.cons.inj space).1] at close
      exact absurd close (by decide)
    · simpa using split

end Apidoc.Page
