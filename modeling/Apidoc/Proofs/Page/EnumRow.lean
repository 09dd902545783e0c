import Apidoc.Page.EnumBlock
import Apidoc.Proofs.Pattern.Search
import Apidoc.Proofs.Text.Character

namespace Apidoc.Page

open Pattern PrintedType

namespace Separator

def mark : Separator → Char
  | tab => '\t'
  | spaces => ' '

/-- A gap between columns is one tab or some spaces. -/
def Gap : Separator → Text → Prop
  | tab, w => w = ['\t']
  | spaces, w => w ≠ [] ∧ ∀ c ∈ w, c = ' '

/-- A value has no mark of the columns in it, and between tabs it stands on one line. -/
def Fits : Separator → Text → Prop
  | tab, w => '\t' ∉ w ∧ '\n' ∉ w
  | spaces, w => ' ' ∉ w

instance (s : Separator) (w : Text) : Decidable (s.Gap w) :=
  match s with
  | tab => inferInstanceAs (Decidable (w = ['\t']))
  | spaces => inferInstanceAs (Decidable (w ≠ [] ∧ ∀ c ∈ w, c = ' '))

instance (s : Separator) (w : Text) : Decidable (s.Fits w) :=
  match s with
  | tab => inferInstanceAs (Decidable ('\t' ∉ w ∧ '\n' ∉ w))
  | spaces => inferInstanceAs (Decidable (' ' ∉ w))

variable {s : Separator} {before : Option Char} {w rest : Text}

theorem Fits.unmarked (fits : s.Fits w) : s.mark ∉ w := by
  cases s with
  | tab => exact fits.1
  | spaces => exact fits

theorem Gap.takes (gap : s.Gap w) : s.pattern.Takes before w rest := by
  cases s with
  | tab => exact takes_chars_one.mpr ⟨'\t', gap, by decide⟩
  | spaces =>
    refine takes_chars_plus.mpr ⟨gap.1, ?_⟩
    intro c member
    rw [gap.2 c member]
    rfl

theorem mark_of_takes (taken : s.pattern.Takes before w rest) : ∃ v, w = s.mark :: v := by
  cases s with
  | tab =>
    obtain ⟨c, rfl, accepted⟩ := takes_chars_one.mp taken
    exact ⟨[], by simpa [CharClass.accepts, mark] using accepted⟩
  | spaces =>
    obtain ⟨some, accepted⟩ := takes_chars_plus.mp taken
    obtain ⟨c, v, rfl⟩ := List.exists_cons_of_ne_nil some
    have blank := accepted c (.head v)
    exact ⟨v, by simpa [CharClass.accepts, mark] using blank⟩

theorem Gap.starts (gap : s.Gap w) : ∃ v, w = s.mark :: v := by
  have taken : s.pattern.Takes none w [] := gap.takes
  exact mark_of_takes taken

theorem Gap.line (gap : s.Gap w) : '\n' ∉ w := by
  cases s with
  | tab =>
    obtain rfl : w = ['\t'] := gap
    decide
  | spaces =>
    intro member
    exact absurd (gap.2 _ member) (by decide)

theorem isWord_mark (s : Separator) : Text.isWord s.mark = false := by
  cases s <;> decide

theorem mark_ne_colon (s : Separator) : s.mark ≠ ':' := by
  cases s <;> decide

theorem head?_gap {c : Cursor} {g : Cursor → List Cursor} (gap : s.Gap w)
    (split : c.rest = w ++ rest) (next : s = spaces → rest.head? ≠ some ' ')
    (leads : ∀ d, c.Passes w d → g d ≠ []) :
    ∃ d, c.Passes w d ∧ d.captures = c.captures ∧
      ((s.pattern.ends c).flatMap g).head? = (g d).head? := by
  have taken : s.pattern.Takes c.before w rest := gap.takes
  cases s with
  | tab =>
    apply Cursor.head?_stops_of_greedy rfl split taken.1 taken.2 _ leads
    intro u v _ _ fits
    obtain rfl : w = ['\t'] := gap
    have one := Times.allows_one.mp fits
    rw [List.length_append, List.length_singleton] at one
    exact List.length_eq_zero_iff.mp (by omega)
  | spaces =>
    apply Cursor.head?_stops_of_greedy rfl split taken.1 taken.2 _ leads
    intro u v eq blank _
    cases u with
    | nil => rfl
    | cons a u =>
      have space : a = ' ' := by simpa [CharClass.accepts] using blank a (.head u)
      exact absurd (by rw [eq, space]; rfl) (next rfl)

end Separator

/-- What stands in front of the name of an enumerator: its scope, or a single name or nothing for a
member of the global scope. -/
def Owns (scope w : Text) : Prop :=
  if scope = [] then w = [] ∨ ∃ v, Text.IsWordRun v ∧ w = v ++ "::".toList
  else w = scope ++ "::".toList

/-- A row of the value table of an enum. -/
structure Row where
  owner : Text
  item : Text
  gap : Text
  value : Text
  space : Text
  description : Text

namespace Row

variable (r : Row)

def columns : Text := r.gap ++ (r.value ++ (r.space ++ (r.description ++ ['\n'])))

def text : Text := r.owner ++ (r.item ++ r.columns)

/-- A match from `c` to `x` keeps the description. -/
def IsKept (c x : Cursor) : Prop :=
  ∃ rest, x.captures = ⟨.docs, r.description ++ rest, r.description.length⟩ :: c.captures

theorem IsKept.of_captures {r : Row} {c d x : Cursor} (kept : r.IsKept d x)
    (same : d.captures = c.captures) : r.IsKept c x := by
  unfold IsKept at kept ⊢
  rwa [same] at kept

/-- A description is a line that is not blank, starts behind the spaces of the gap and does not end
in a character reference. -/
structure WellFormed (scope : Text) (s : Separator) : Prop where
  owner : Owns scope r.owner
  item : Text.IsWordRun r.item
  gap : s.Gap r.gap
  space : s.Gap r.space
  value : r.value ≠ []
  fits : s.Fits r.value
  line : '\n' ∉ r.description
  start : r.description.head? ≠ some ' '
  plain : ∀ u w, Text.IsWordRun w → r.description ≠ u ++ '&' :: (w ++ [';'])
  visible : ∃ c ∈ r.description, Text.isBlank c = false

theorem wellFormed_of_line {r : Row} {scope : Text} {s : Separator} (owner : Owns scope r.owner)
    (item : Text.IsWordRun r.item) (gap : s.Gap r.gap) (space : s.Gap r.space)
    (value : r.value ≠ []) (fits : s.Fits r.value)
    (line : '\n' ∉ r.description ∧ '&' ∉ r.description)
    (start : r.description.head?.any fun c => !Text.isBlank c) : r.WellFormed scope s := by
  obtain ⟨c, head, solid⟩ : ∃ c, r.description.head? = some c ∧ Text.isBlank c = false := by
    simpa [Option.any_eq_true] using start
  refine ⟨owner, item, gap, space, value, fits, line.1, ?_, ?_, c, List.mem_of_mem_head? head, solid⟩
  · intro blank
    rw [head] at blank
    cases blank
    exact absurd solid (by decide)
  · intro u w _ eq
    exact line.2 (by simp [eq])

end Row

theorem accepts_line {w : Text} :
    (∀ c ∈ w, (CharClass.noneOf [.char '\n']).accepts c) ↔ '\n' ∉ w := by
  constructor
  · intro accepted member
    exact absurd (accepted _ member) (by decide)
  · intro free c member
    have other : c ≠ '\n' := ne_of_mem_of_not_mem member free
    simpa [CharClass.accepts, ClassItem.accepts] using other

def rowEnd : Pattern :=
  all [.group (all [.fixed "&".toList, .chars .word .plus, .fixed ";".toList]) .optional,
    .fixed "\n".toList]

def descriptionPattern : Pattern :=
  .seq (.field .docs (.chars (.noneOf [.char '\n']) .lazyStar)) rowEnd

def valueClass : CharClass := .noneOf [.char '\t', .char '\n']

def valuePattern : Pattern := .chars valueClass .lazyPlus

def columnsPattern (s : Separator) : Pattern :=
  all [s.pattern, valuePattern, s.pattern, descriptionPattern]

theorem takes_rowEnd {before : Option Char} {w rest : Text} (taken : rowEnd.Takes before w rest) :
    w = ['\n'] ∨ ∃ v, Text.IsWordRun v ∧ w = '&' :: (v ++ [';', '\n']) := by
  obtain ⟨u, v, rfl, reference, rfl⟩ := taken
  rcases takes_group_optional.mp reference with rfl | inner
  · exact .inl rfl
  · obtain ⟨_, _, rfl, rfl, v, _, rfl, word, rfl⟩ := inner
    refine .inr ⟨v, takes_chars_plus.mp word, ?_⟩
    simp

namespace Row.WellFormed

variable {r : Row} {scope : Text} {s : Separator} (formed : r.WellFormed scope s)
include formed

theorem takes_description (before : Option Char) (rest : Text) :
    descriptionPattern.Takes before (r.description ++ ['\n']) rest := by
  have docs : (Pattern.chars (.noneOf [.char '\n']) .lazyStar).Takes before r.description
      (['\n'] ++ rest) := takes_chars_lazyStar.mpr (accepts_line.mpr formed.line)
  exact ⟨_, _, rfl, docs, [], ['\n'], rfl, takes_group_optional.mpr (.inl rfl), rfl⟩

theorem takes_space (before : Option Char) (rest : Text) :
    (all [s.pattern, descriptionPattern]).Takes before (r.space ++ (r.description ++ ['\n'])) rest :=
  ⟨_, _, rfl, formed.space.takes, formed.takes_description _ rest⟩

theorem allows_value : Times.lazyPlus.Allows r.value.length :=
  ⟨List.length_pos_iff.mpr formed.value, fun _ none => nomatch none⟩

theorem takes_value (values : ∀ c ∈ r.value, valueClass.accepts c) (before : Option Char)
    (rest : Text) : (all [valuePattern, s.pattern, descriptionPattern]).Takes before
      (r.value ++ (r.space ++ (r.description ++ ['\n']))) rest :=
  ⟨_, _, rfl, ⟨values, formed.allows_value⟩, formed.takes_space _ rest⟩

theorem takes_columns (values : ∀ c ∈ r.value, valueClass.accepts c)
    (before : Option Char) (rest : Text) : (columnsPattern s).Takes before r.columns rest :=
  ⟨_, _, rfl, formed.gap.takes, formed.takes_value values _ rest⟩

variable {c x : Cursor} {rest : Text}

theorem keeps_description (split : c.rest = r.description ++ ['\n'] ++ rest)
    (first : (descriptionPattern.ends c).head? = some x) : r.IsKept c x := by
  obtain ⟨e, kept, ended⟩ := List.mem_flatMap.mp (List.mem_of_mem_head? first)
  obtain ⟨w, passes, taken, captures⟩ := mem_ends_field rfl kept
  obtain ⟨z, more, closed, same⟩ := mem_ends rfl ended
  have inside : '\n' ∉ w := accepts_line.mp (takes_chars_lazyStar.mp taken)
  have whole : r.description ++ '\n' :: rest = w ++ (z ++ x.rest) := by
    rw [← more.rest, ← passes.rest, split]
    simp
  rcases takes_rowEnd closed with rfl | ⟨v, word, rfl⟩
  · obtain ⟨description, -⟩ := Text.first_unique formed.line inside whole
    exact ⟨['\n'] ++ rest, by rw [same, captures, split, description, List.append_assoc]⟩
  · have longer : '\n' ∉ w ++ '&' :: (v ++ [';']) := by
      simp [inside, word.not_mem Text.isWord_newline]
    have whole : r.description ++ '\n' :: rest = (w ++ '&' :: (v ++ [';'])) ++ '\n' :: x.rest := by
      rw [whole]
      simp
    exact absurd (Text.first_unique formed.line longer whole).1 (formed.plain w v word)

theorem keeps_space (split : c.rest = r.space ++ (r.description ++ ['\n']) ++ rest)
    (first : ((all [s.pattern, descriptionPattern]).ends c).head? = some x) : r.IsKept c x := by
  rw [List.append_assoc] at split
  have solid : s = .spaces → (r.description ++ ['\n'] ++ rest).head? ≠ some ' ' := by
    obtain ⟨_, member, -⟩ := formed.visible
    have some : r.description ≠ [] := List.ne_nil_of_mem member
    intro _
    rw [List.append_assoc, List.head?_append_of_ne_nil _ some]
    exact formed.start
  obtain ⟨d, passes, kept, found⟩ := Separator.head?_gap formed.space split solid fun e passes =>
    ends_ne_nil_iff.mpr ⟨_, _, passes.rest_eq split, formed.takes_description _ rest⟩
  exact (formed.keeps_description (passes.rest_eq split) (found.symm.trans first)).of_captures kept

theorem keeps_value (values : ∀ c ∈ r.value, valueClass.accepts c)
    (split : c.rest = r.value ++ (r.space ++ (r.description ++ ['\n'])) ++ rest)
    (first : ((all [valuePattern, s.pattern, descriptionPattern]).ends c).head? = some x) :
    r.IsKept c x := by
  rw [List.append_assoc] at split
  have blocked : ∀ u v d, r.value = u ++ v → v ≠ [] → c.Passes u d →
      (all [s.pattern, descriptionPattern]).ends d = [] := by
    intro u v d parts some passes
    by_contra more
    obtain ⟨_, _, next, _, _, rfl, gap, -⟩ := ends_ne_nil_iff.mp more
    obtain ⟨_, rfl⟩ := Separator.mark_of_takes gap
    rw [parts, List.append_assoc] at split
    obtain ⟨b, v, rfl⟩ := List.exists_cons_of_ne_nil some
    obtain ⟨rfl, -⟩ := List.cons.inj ((passes.rest_eq split).symm.trans next)
    exact formed.fits.unmarked (by simp [parts])
  obtain ⟨d, passes, kept, found⟩ := Cursor.head?_stops_of_lazy rfl split
    values formed.allows_value blocked fun e passes =>
      ends_ne_nil_iff.mpr ⟨_, _, passes.rest_eq split, formed.takes_space _ rest⟩
  exact (formed.keeps_space (passes.rest_eq split) (found.symm.trans first)).of_captures kept

theorem keeps_columns (values : ∀ c ∈ r.value, valueClass.accepts c)
    (split : c.rest = r.columns ++ rest) (first : ((columnsPattern s).ends c).head? = some x) :
    r.IsKept c x := by
  rw [columns, List.append_assoc] at split
  have solid : s = .spaces →
      (r.value ++ (r.space ++ (r.description ++ ['\n'])) ++ rest).head? ≠ some ' ' := by
    intro spaces blank
    subst spaces
    rw [List.append_assoc, List.head?_append_of_ne_nil _ formed.value] at blank
    exact formed.fits.unmarked (List.mem_of_mem_head? blank)
  obtain ⟨d, passes, kept, found⟩ := Separator.head?_gap formed.gap split solid fun e passes =>
    ends_ne_nil_iff.mpr ⟨_, _, passes.rest_eq split, formed.takes_value values _ rest⟩
  exact (formed.keeps_value values (passes.rest_eq split) (found.symm.trans first)).of_captures kept

end Row.WellFormed

theorem takes_memberName {scope item : Text} {before : Option Char} {w rest : Text} :
    (memberName scope item).Takes before w rest ↔ ∃ o, Owns scope o ∧ w = o ++ item := by
  unfold memberName Owns
  by_cases global : scope = []
  · subst global
    constructor
    · intro taken
      obtain ⟨o, _, rfl, owner, rfl⟩ := taken
      refine ⟨o, ?_, rfl⟩
      rcases takes_group_optional.mp owner with none | ⟨v, _, rfl, word, rfl⟩
      · exact .inl none
      · exact .inr ⟨v, takes_chars_plus.mp word, rfl⟩
    · intro owned
      obtain ⟨o, owner, rfl⟩ := owned
      refine ⟨o, item, rfl, takes_group_optional.mpr ?_, rfl⟩
      rcases owner with none | ⟨v, word, rfl⟩
      · exact .inl none
      · exact .inr ⟨v, _, rfl, takes_chars_plus.mpr word, rfl⟩
  · have named : scope.isEmpty = false := by simpa using global
    rw [if_neg (by simp [named])]
    simp [Takes, Scope.qualify, global, named]

theorem Owns.line {scope o : Text} (owner : Owns scope o) (line : '\n' ∉ scope) : '\n' ∉ o := by
  unfold Owns at owner
  split at owner
  · rcases owner with rfl | ⟨v, word, rfl⟩
    · exact List.not_mem_nil
    · simp [word.not_mem Text.isWord_newline]
  · simp [owner, line]

theorem owner_unique {scope o o' item item' x y : Text} {m : Char} (owner : Owns scope o)
    (owner' : Owns scope o') (word : ∀ c ∈ item, Text.isWord c)
    (word' : ∀ c ∈ item', Text.isWord c) (edge : Text.isWord m = false) (other : m ≠ ':')
    (same : o ++ (item ++ m :: x) = o' ++ (item' ++ m :: y)) : item = item' ∧ x = y := by
  have names (same : item ++ m :: x = item' ++ m :: y) : item = item' ∧ x = y :=
    ⟨(Text.word_unique word word' edge edge same).1,
      (Text.word_unique word word' edge edge same).2.2⟩
  unfold Owns at owner owner'
  split at owner
  · rename_i global
    rw [if_pos global] at owner'
    rcases owner with rfl | ⟨v, run, rfl⟩ <;> rcases owner' with rfl | ⟨v', run', rfl⟩
    · exact names same
    · have mark := (Text.word_unique word run'.2 edge Text.isWord_colon (by simpa using same)).2.1
      exact absurd mark other
    · have mark := (Text.word_unique run.2 word' Text.isWord_colon edge (by simpa using same)).2.1
      exact absurd mark.symm other
    · obtain ⟨-, -, behind⟩ := Text.word_unique (x := ':' :: (item ++ m :: x))
        (y := ':' :: (item' ++ m :: y)) run.2 run'.2 Text.isWord_colon Text.isWord_colon
        (by simpa using same)
      exact names (List.cons.inj behind).2
  · rename_i named
    rw [if_neg named] at owner'
    subst owner owner'
    exact names (List.append_cancel_left same)

end Apidoc.Page
