import Apidoc.Proofs.Page.ParameterList
import Apidoc.Proofs.PrintedType.Taken

namespace Apidoc.Page

open Pattern PrintedType

/-- A text whose commas stand in brackets, and perhaps a default value without commas behind it. -/
def IsItem (w : Text) : Prop :=
  ∃ u v, w = u ++ v ∧ IsLevel 0 u ∧ '=' ∉ u ∧ ',' ∉ v ∧ (v = [] ∨ v.head? = some '=')

theorem level_unique {u v x y : Text} {c d : Char} (first : IsLevel 0 u) (plain : '=' ∉ u)
    (second : IsLevel 0 v) (plain' : '=' ∉ v) (ends : c = ',' ∨ c = '=') (ends' : d = ',' ∨ d = '=')
    (same : u ++ c :: x = v ++ d :: y) : u = v := by
  rcases List.append_eq_append_iff.mp same with ⟨t, eq, tail⟩ | ⟨t, eq, tail⟩
  · cases t with
    | nil => simpa using eq.symm
    | cons e t =>
      obtain ⟨rfl, -⟩ := List.cons.inj tail
      rcases ends with rfl | rfl
      · exact absurd eq (first.ne_append_comma second)
      · exact absurd (by simp [eq]) plain'
  · cases t with
    | nil => simpa using eq
    | cons e t =>
      obtain ⟨rfl, -⟩ := List.cons.inj tail
      rcases ends' with rfl | rfl
      · exact absurd eq (second.ne_append_comma first)
      · exact absurd (by simp [eq]) plain

theorem IsItem.cut_unique {u v x y : Text} (first : IsItem u) (second : IsItem v)
    (same : u ++ ',' :: x = v ++ ',' :: y) : u = v ∧ x = y := by
  obtain ⟨a, b, rfl, level, plain, free, value⟩ := first
  obtain ⟨a', b', rfl, level', plain', free', value'⟩ := second
  have head {w z : Text} (value : w = [] ∨ w.head? = some '=') :
      ∃ c r, w ++ ',' :: z = c :: r ∧ (c = ',' ∨ c = '=') := by
    cases w with
    | nil => exact ⟨',', z, rfl, .inl rfl⟩
    | cons c w =>
      rcases value with none | equals
      · cases none
      · cases equals
        exact ⟨'=', _, rfl, .inr rfl⟩
  obtain ⟨c, r, eq, ends⟩ := head (z := x) value
  obtain ⟨c', r', eq', ends'⟩ := head (z := y) value'
  rw [List.append_assoc, List.append_assoc] at same
  have front : a = a' := by
    rw [eq, eq'] at same
    exact level_unique level plain level' plain' ends ends' same
  rw [front] at same
  obtain ⟨rfl, rest⟩ := Text.first_unique free free' (List.append_cancel_left same)
  exact ⟨by rw [front], rest⟩

theorem comma_not_mem_defaultValue {before : Option Char} {w rest : Text}
    (taken : defaultValue.Takes before w rest) :
    ∃ front value, w = front ++ '=' :: value ∧ (∀ c ∈ front, Text.isBlank c) ∧ ',' ∉ value := by
  obtain ⟨front, _, rfl, blank, _, _, rfl, rfl, space, _, rfl, inner, value, call, rfl,
    ⟨solid, -⟩, brackets⟩ := taken
  have plain {u : Text} (blank : ∀ c ∈ u, Text.isBlank c) : ',' ∉ u := (isFlat_of_blank blank).2.2
  have middle : ',' ∉ value := by
    intro member
    exact absurd (solid ',' member) (by decide)
  have last : ',' ∉ call := by
    rcases takes_group_optional.mp brackets with rfl | ⟨_, _, rfl, rfl, gap, _, rfl, free, rfl⟩
    · exact List.not_mem_nil
    · have none := plain (takes_chars_star.mp free)
      simp [none]
  refine ⟨front, space ++ (value ++ call), rfl, takes_chars_star.mp blank, ?_⟩
  simp [plain (takes_chars_star.mp inner), middle, last]

def IsClear (w : Text) : Prop := ∀ c ∈ w, Text.isBlank c ∨ Text.isWord c

theorem IsClear.not_mem {w : Text} (clear : IsClear w) {c : Char} (solid : Text.isBlank c = false)
    (mark : Text.isWord c = false) : c ∉ w := by
  intro member
  rcases clear c member with blank | word
  · rw [solid] at blank
    cases blank
  · rw [mark] at word
    cases word

theorem IsClear.flat {w : Text} (clear : IsClear w) : IsFlat w :=
  ⟨clear.not_mem (by decide) (by decide), clear.not_mem (by decide) (by decide),
    clear.not_mem (by decide) (by decide)⟩

theorem IsClear.append {u v : Text} (first : IsClear u) (second : IsClear v) : IsClear (u ++ v) :=
  List.forall_mem_append.mpr ⟨first, second⟩

theorem isClear_of_blank {w : Text} (blank : ∀ c ∈ w, Text.isBlank c) : IsClear w :=
  fun c member => .inl (blank c member)

theorem isClear_of_word {w : Text} (word : ∀ c ∈ w, Text.isWord c) : IsClear w :=
  fun c member => .inr (word c member)

theorem tail_of_takes {before : Option Char} {w rest : Text}
    (taken : nameAndDefault.Takes before w rest) :
    ∃ u v, w = u ++ v ∧ IsClear u ∧ ',' ∉ v ∧ (v = [] ∨ v.head? = some '=') := by
  have clear_nil : IsClear [] := isClear_of_blank (by simp)
  rcases takes_group_optional.mp taken with rfl | ⟨space, _, rfl, separator, name, value, rfl,
    word, default⟩
  · exact ⟨[], [], rfl, clear_nil, by simp, .inl rfl⟩
  · have gap : IsClear space := by
      rcases takes_separator.mp separator with ⟨-, blank⟩ | ⟨rfl, -⟩
      · exact isClear_of_blank blank
      · exact clear_nil
    have named := gap.append (isClear_of_word (takes_chars_plus.mp word).2)
    rcases takes_group_optional.mp default with rfl | some
    · exact ⟨space ++ name, [], by simp, named, by simp, .inl rfl⟩
    · obtain ⟨front, text, rfl, blank, free⟩ := comma_not_mem_defaultValue some
      exact ⟨space ++ name ++ front, '=' :: text, by simp, named.append (isClear_of_blank blank),
        by simp [free], .inr rfl⟩

section

variable {table : AliasTable} (words : table.OfWords) {complete : Bool} {p : Parameter}
  (spares : table.Spares p.type)
include words spares

/-- Two readings of a parameter at the start of a text end at the same comma. -/
theorem parameter_unique {s s' w w' n n' y y' rest rest' tail tail' : Text}
    {before before' behind behind' : Option Char} (blank : ∀ c ∈ s, Text.isBlank c)
    (blank' : ∀ c ∈ s', Text.isBlank c)
    (type : (PrintedType.pattern p.type table complete).Takes before w rest)
    (type' : (PrintedType.pattern p.type table complete).Takes before' w' rest')
    (name : nameAndDefault.Takes behind n tail) (name' : nameAndDefault.Takes behind' n' tail')
    (same : s ++ (w ++ n) ++ ',' :: y = s' ++ (w' ++ n') ++ ',' :: y') :
    s ++ (w ++ n) = s' ++ (w' ++ n') ∧ y = y' := by
  obtain ⟨u, v, rfl, clear, free, value⟩ := tail_of_takes name
  obtain ⟨u', v', rfl, clear', free', value'⟩ := tail_of_takes name'
  have flat := clear.flat
  have flat' := clear'.flat
  have plain : '=' ∉ u := clear.not_mem (by decide) (by decide)
  have plain' : '=' ∉ u' := clear'.not_mem (by decide) (by decide)
  have plain_blank {a : Text} (blank : ∀ c ∈ a, Text.isBlank c) : '=' ∉ a := by
    intro member
    exact absurd (blank '=' member) (by decide)
  cases reading : read p.type with
  | tree t =>
    have item {a b c d : Text} {before : Option Char} {rest : Text}
        (blank : ∀ e ∈ a, Text.isBlank e)
        (type : (PrintedType.pattern p.type table complete).Takes before b rest)
        (flat : IsFlat c) (plain : '=' ∉ c) (free : ',' ∉ d)
        (value : d = [] ∨ d.head? = some '=') : IsItem (a ++ (b ++ (c ++ d))) := by
      refine ⟨a ++ (b ++ c), d, by simp, ?_, ?_, free, value⟩
      · exact ((isFlat_of_blank blank).level 0).append
          ((level_of_tree words reading type).append (flat.level 0))
      · simp [plain_blank blank, (not_mem_of_tree words reading type).1, plain]
    exact (item blank type flat plain free value).cut_unique
      (item blank' type' flat' plain' free' value') same
  | verbatim const raw =>
    have commas {a b : Text} (flat : IsFlat a) (free : ',' ∉ b) : ',' ∉ a ++ b := by
      simp [flat.2.2, free]
    by_cases marked : ∃ c ∈ cutMarks, c ∈ raw
    · -- the type is there as it is written, so the same text stands behind it
      have whole := isPlain_pattern p.type table complete
      have parts : s ++ (w ++ (u ++ v ++ ',' :: y)) = s' ++ (w' ++ (u' ++ v' ++ ',' :: y')) := by
        simpa using same
      obtain ⟨core, t, t', eq, eq', left, right⟩ := blankApart_of_verbatim reading
        (spares const raw reading marked) marked blank blank' (takes_anywhere whole type none [])
        (takes_anywhere whole type' none []) parts
      rw [← List.append_assoc s, ← List.append_assoc s', eq, eq'] at same ⊢
      simp only [List.append_assoc] at same
      obtain ⟨back, rest⟩ := Text.first_unique (u := t ++ (u ++ v)) (v := t' ++ (u' ++ v'))
        (commas (isFlat_of_blank left) (commas flat free))
        (commas (isFlat_of_blank right) (commas flat' free'))
        (by simpa using List.append_cancel_left same)
      exact ⟨by rw [List.append_assoc, back, List.append_assoc], rest⟩
    · have item {a b c d : Text} {before : Option Char} {rest : Text}
          (blank : ∀ e ∈ a, Text.isBlank e)
          (type : (PrintedType.pattern p.type table complete).Takes before b rest)
          (flat : IsFlat c) (free : ',' ∉ d) : ',' ∉ a ++ (b ++ (c ++ d)) := by
        have none := not_mem_of_verbatim words reading marked type ',' (by decide)
        simp [(isFlat_of_blank blank).2.2, none, flat.2.2, free]
      exact Text.first_unique (item blank type flat free) (item blank' type' flat' free') same

end

end Apidoc.Page
