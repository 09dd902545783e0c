import Apidoc.ArgumentList
import Apidoc.Proofs.Page.ParameterList
import Apidoc.Proofs.Pattern.Search

/-!
The name that a piece of a list gives. A reading cuts the piece into what stands in front of a name,
the name, and a short default value; of all readings the one with the shortest front is taken.
-/
namespace Apidoc.ArgumentList

open Page Pattern

def nameGap : CharClass := .oneOf [.blank, .char '*', .char '&']

def shortChar : CharClass := .noneOf [.char '(', .char ',', .blank]

theorem nameGap_accepts {c : Char} :
    nameGap.accepts c ↔ Text.isBlank c ∨ c = '*' ∨ c = '&' := by
  simp [nameGap, CharClass.accepts, ClassItem.accepts]

theorem isWord_of_nameGap {c : Char} (apart : nameGap.accepts c) : Text.isWord c = false := by
  rcases nameGap_accepts.mp apart with blank | rfl | rfl
  · exact Text.isWord_of_isBlank blank
  · decide
  · decide

/-- Whether a word belongs to a type that it ends, whatever the type starts with. -/
def isTypeWord (word : Text) : Bool := typeEndings.contains word || isToolkitType word

theorem endsType_eq {before : Text} (unqualified : Text.trim before ≠ "const".toList)
    (word : Text) : endsType before word = isTypeWord word := by
  rw [endsType, beq_eq_false_iff_ne.mpr unqualified, Bool.or_false, isTypeWord]

def withName (p : Parameter) (word : Text) : Parameter :=
  if isTypeWord word then p else { p with name := Identifier.sanitize word }

theorem adopt_eq_withName {p : Parameter} (anonymous : isAnonymous p.name) {s before word : Text}
    (given : nameIn? s = if endsType before word then none else some (Identifier.sanitize word))
    (unqualified : Text.trim before ≠ "const".toList) : adopt p s = withName p word := by
  rw [adopt, if_pos anonymous, given, endsType_eq unqualified, withName]
  split <;> rfl

/-- A default value in front of which names are read: characters other than blanks, commas and
opening parentheses, and perhaps an empty pair of parentheses, with blanks around. -/
def IsShort (value : Text) : Prop :=
  ∃ space core call tail, value = space ++ (core ++ (call ++ tail)) ∧
    (∀ c ∈ space, Text.isBlank c) ∧ (core ≠ [] ∧ ∀ c ∈ core, shortChar.accepts c) ∧
    (call = [] ∨ ∃ gap, call = '(' :: (gap ++ [')']) ∧ ∀ c ∈ gap, Text.isBlank c) ∧
    ∀ c ∈ tail, Text.isBlank c

theorem isShort_cons {c : Char} (blank : Text.isBlank c) {value : Text} :
    IsShort (c :: value) ↔ IsShort value := by
  constructor
  · rintro ⟨space, core, call, tail, eq, free, solid, called, closing⟩
    cases space with
    | nil =>
      obtain ⟨d, core, rfl⟩ := List.exists_cons_of_ne_nil solid.1
      obtain ⟨rfl, -⟩ := List.cons.inj eq
      have other := solid.2 c (.head core)
      simp [shortChar, CharClass.accepts, ClassItem.accepts, blank] at other
    | cons d space =>
      exact ⟨space, core, call, tail, (List.cons.inj eq).2,
        fun e member => free e (.tail d member), solid, called, closing⟩
  · rintro ⟨space, core, call, tail, rfl, free, short⟩
    exact ⟨c :: space, core, call, tail, rfl, List.forall_mem_cons.mpr ⟨blank, free⟩, short⟩

/-- What may stand behind a name: blanks, and perhaps a short default value. -/
def ClosesPiece (tail : Text) : Prop :=
  ∃ space value, tail = space ++ value ∧ (∀ c ∈ space, Text.isBlank c) ∧
    (value = [] ∨ ∃ default, value = '=' :: default ∧ IsShort default)

/-- A way to read a piece: its name stands behind `front` and `gap` and in front of `tail`. -/
structure Reads (piece front gap name tail : Text) : Prop where
  parts : piece = front ++ (gap ++ (name ++ tail))
  front : front ≠ []
  gap : gap ≠ [] ∧ ∀ c ∈ gap, nameGap.accepts c
  word : Text.IsWordRun name
  closes : ClosesPiece tail

theorem Reads.endsOutside {piece front gap name tail : Text}
    (reads : Reads piece front gap name tail) : EndsOutside (front ++ gap) := by
  obtain ⟨start, c, rfl⟩ := (List.eq_nil_or_concat' gap).resolve_left reads.gap.1
  rw [← List.append_assoc]
  exact endsOutside_concat (isWord_of_nameGap (reads.gap.2 c (by simp)))

/-! What the parts of the pattern take. -/

def nameEnd : Pattern := all [.group shortDefault .optional, spaces, .finish]

def nameOnward : Pattern := .seq (.field .namePart (.chars .word .plus)) nameEnd

theorem takes_shortDefault {before : Option Char} {w rest : Text}
    (taken : shortDefault.Takes before w rest) : ∃ space default, w = space ++ '=' :: default ∧
      (∀ c ∈ space, Text.isBlank c) ∧
      ∀ tail, (∀ c ∈ tail, Text.isBlank c) → IsShort (default ++ tail) := by
  obtain ⟨space, _, rfl, blank, _, _, rfl, rfl, gap, _, rfl, blank', core, call, rfl, solid,
    brackets⟩ := taken
  refine ⟨space, gap ++ (core ++ call), rfl, takes_chars_star.mp blank, ?_⟩
  intro tail blanks
  refine ⟨gap, core, call, tail, by simp, takes_chars_star.mp blank', takes_chars_plus.mp solid,
    ?_, blanks⟩
  rcases takes_group_optional.mp brackets with none | ⟨_, _, rfl, rfl, inner, _, rfl, free, rfl⟩
  · exact .inl none
  · exact .inr ⟨inner, rfl, takes_chars_star.mp free⟩

theorem shortDefault_takes {space gap core call : Text} (blank : ∀ c ∈ space, Text.isBlank c)
    (blank' : ∀ c ∈ gap, Text.isBlank c) (solid : core ≠ [] ∧ ∀ c ∈ core, shortChar.accepts c)
    (brackets : call = [] ∨ ∃ inner, call = '(' :: (inner ++ [')']) ∧ ∀ c ∈ inner, Text.isBlank c)
    (before : Option Char) (rest : Text) :
    shortDefault.Takes before (space ++ '=' :: (gap ++ (core ++ call))) rest := by
  refine ⟨space, _, rfl, takes_chars_star.mpr blank, ['='], _, rfl, rfl, gap, _, rfl,
    takes_chars_star.mpr blank', core, call, rfl, takes_chars_plus.mpr solid, ?_⟩
  apply takes_group_optional.mpr
  rcases brackets with none | ⟨inner, rfl, free⟩
  · exact .inl none
  · exact .inr ⟨['('], _, rfl, rfl, inner, [')'], rfl, takes_chars_star.mpr free, rfl⟩

theorem ends_nameEnd {c : Cursor} : nameEnd.ends c ≠ [] ↔ ClosesPiece c.rest := by
  rw [ends_ne_nil_iff]
  constructor
  · rintro ⟨_, rest, split, value, _, rfl, default, gap, _, rfl, blank, rfl, ended⟩
    have closing : ∀ c ∈ gap ++ rest, Text.isBlank c := by
      rw [List.forall_mem_append]
      refine ⟨takes_chars_star.mp blank, ?_⟩
      rcases ended with rfl | rfl <;> decide
    have parts : c.rest = value ++ (gap ++ rest) := by simpa using split
    rcases takes_group_optional.mp default with rfl | some
    · exact ⟨gap ++ rest, [], by simpa using parts, closing, .inl rfl⟩
    · obtain ⟨space, text, rfl, free, short⟩ := takes_shortDefault some
      exact ⟨space, '=' :: (text ++ (gap ++ rest)), by simpa using parts, free,
        .inr ⟨_, rfl, short _ closing⟩⟩
  · rintro ⟨space, value, split, blank, closed⟩
    have last (before : Option Char) {w : Text} (blank : ∀ c ∈ w, Text.isBlank c) :
        (all [spaces, .finish]).Takes before w [] :=
      ⟨w, [], (List.append_nil w).symm, takes_chars_star.mpr blank, rfl, .inl rfl⟩
    refine ⟨space ++ value, [], by rw [split, List.append_nil], ?_⟩
    rcases closed with rfl | ⟨_, rfl, gap, core, call, tail, rfl, blank', solid, brackets, blank''⟩
    · exact ⟨[], _, by simp, takes_group_optional.mpr (.inl rfl), last _ blank⟩
    · exact ⟨space ++ '=' :: (gap ++ (core ++ call)), tail, by simp,
        takes_group_optional.mpr (.inr (shortDefault_takes blank blank' solid brackets _ _)),
        last _ blank''⟩

theorem ends_nameOnward {c : Cursor} : nameOnward.ends c ≠ [] ↔
    ∃ name tail, c.rest = name ++ tail ∧ Text.IsWordRun name ∧ ClosesPiece tail := by
  constructor
  · intro some
    obtain ⟨d, member⟩ := List.exists_mem_of_ne_nil _ some
    obtain ⟨e, named, ended⟩ := List.mem_flatMap.mp member
    obtain ⟨name, passes, word, -⟩ := mem_ends_field rfl named
    exact ⟨name, e.rest, passes.rest, takes_chars_plus.mp word,
      ends_nameEnd.mp (List.ne_nil_of_mem ended)⟩
  · rintro ⟨name, tail, split, word, closes⟩
    have taken : (Pattern.chars .word .plus).Takes c.before name tail := takes_chars_plus.mpr word
    obtain ⟨e, named, passes⟩ :=
      (Pattern.field .namePart (.chars .word .plus)).faithful.complete split taken
    have ended : nameEnd.ends e ≠ [] := ends_nameEnd.mpr ((passes.rest_eq split).symm ▸ closes)
    obtain ⟨d, member⟩ := List.exists_mem_of_ne_nil _ ended
    exact List.ne_nil_of_mem (List.mem_flatMap.mpr ⟨e, named, member⟩)

/-! Matches and readings. -/

def behindFront (start c : Cursor) : List Cursor :=
  ((c.stops nameGap .plus).map fun d => d.keep .typePart start).flatMap nameOnward.ends

theorem namedParameter_ends (piece : Text) : namedParameter.ends (.atStart piece) =
    ((Cursor.atStart piece).stops .any .lazyPlus).flatMap (behindFront (.atStart piece)) := by
  have parts : namedParameter.ends (.atStart piece) =
      ((((Cursor.atStart piece).stops .any .lazyPlus).flatMap fun d =>
        d.stops nameGap .plus).map fun d => d.keep .typePart (.atStart piece)).flatMap
          nameOnward.ends := by
    show [Cursor.atStart piece].flatMap _ = _
    rw [List.flatMap_singleton]
    rfl
  rw [parts, List.map_flatMap, List.flatMap_assoc]
  rfl

/-- The pattern goes on from a place exactly when the piece is read with the text up to there in
front. -/
theorem behindFront_ne_nil {piece front : Text} {start c : Cursor}
    (passes : (Cursor.atStart piece).Passes front c) (some : front ≠ []) :
    behindFront start c ≠ [] ↔ ∃ gap name tail, Reads piece front gap name tail := by
  have split : piece = front ++ c.rest := passes.rest
  have listed : behindFront start c ≠ [] ↔
      ∃ d ∈ c.stops nameGap .plus, nameOnward.ends (d.keep .typePart start) ≠ [] := by
    simp [behindFront, List.flatMap_eq_nil_iff]
  rw [listed]
  constructor
  · rintro ⟨d, member, found⟩
    obtain ⟨gap, reached, apart, nonempty, -⟩ := Cursor.mem_stops.mp member
    obtain ⟨name, tail, rest, word, closes⟩ := ends_nameOnward.mp found
    have behind : d.rest = name ++ tail := rest
    refine ⟨gap, name, tail, ?_, some, ⟨?_, apart⟩, word, closes⟩
    · rw [split, reached.rest, behind]
    · exact List.length_pos_iff.mp (Times.allows_plus.mp nonempty)
  · rintro ⟨gap, name, tail, reads⟩
    have rest : c.rest = gap ++ (name ++ tail) :=
      List.append_cancel_left (split.symm.trans reads.parts)
    obtain ⟨d, member, reached, -⟩ := Cursor.exists_mem_stops rest reads.gap.2
      (Times.allows_plus.mpr (List.length_pos_iff.mpr reads.gap.1))
    exact ⟨d, member, ends_nameOnward.mpr
      ⟨name, tail, reached.rest_eq rest, reads.word, reads.closes⟩⟩

theorem matchStart?_eq_none {piece : Text}
    (never : ∀ front gap name tail, ¬ Reads piece front gap name tail) :
    namedParameter.matchStart? piece = none := by
  have empty : namedParameter.ends (.atStart piece) = [] := by
    rw [namedParameter_ends, List.flatMap_eq_nil_iff]
    intro c member
    obtain ⟨front, passes, -, nonempty, -⟩ := Cursor.mem_stops.mp member
    have some : front ≠ [] := List.length_pos_iff.mp (Times.allows_plus.mp nonempty)
    by_contra found
    obtain ⟨gap, name, tail, reads⟩ := (behindFront_ne_nil passes some).mp found
    exact never front gap name tail reads
  rw [matchStart?, matchAt?, run_some, empty]
  rfl

theorem Reads.length_le {piece front front' gap name tail : Text} {start : Cursor}
    (reads : Reads piece front' gap name tail) (begins : front <+: piece)
    (nearer : ∀ u v, front = u ++ v → v ≠ [] → Times.lazyPlus.Allows u.length →
      ∃ d, (Cursor.atStart piece).Passes u d ∧ behindFront start d = []) :
    front.length ≤ front'.length := by
  by_contra shorter
  obtain ⟨v, rfl⟩ := List.prefix_of_prefix_length_le ⟨_, reads.parts.symm⟩ begins (by omega)
  have some : v ≠ [] := by
    rintro rfl
    simp at shorter
  obtain ⟨d, near, none⟩ := nearer front' v rfl some
    (Times.allows_plus.mpr (List.length_pos_iff.mpr reads.front))
  exact (behindFront_ne_nil near reads.front).mpr ⟨gap, name, tail, reads⟩ none

/-- A match keeps the parts of a reading, and no reading has a shorter front. -/
theorem exists_reading_of_match {piece : Text} {m : Match}
    (found : namedParameter.matchStart? piece = some m) :
    ∃ front gap name tail, Reads piece front gap name tail ∧ m.get .typePart = front ++ gap ∧
      m.get .namePart = name ∧ ∀ front' gap' name' tail', Reads piece front' gap' name' tail' →
        front.length ≤ front'.length := by
  rw [matchStart?, matchAt?, run_some] at found
  obtain ⟨b, first, rfl⟩ := Option.map_eq_some_iff.mp found
  rw [namedParameter_ends] at first
  obtain ⟨front, c, passes, -, nonempty, kept, first, nearer⟩ :=
    Cursor.exists_stop_of_lazy rfl first
  have filled : front ≠ [] := List.length_pos_iff.mp (Times.allows_plus.mp nonempty)
  have split : piece = front ++ c.rest := passes.rest
  obtain ⟨_, listed, first⟩ := exists_of_head?_flatMap first
  obtain ⟨d, member, rfl⟩ := List.mem_map.mp listed
  obtain ⟨gap, reached, apart, wide, kept'⟩ := Cursor.mem_stops.mp member
  obtain ⟨e, named, ended⟩ := List.mem_flatMap.mp (List.mem_of_mem_head? first)
  obtain ⟨name, onward, word, captures⟩ := mem_ends_field rfl named
  obtain ⟨-, -, -, kept''⟩ := mem_ends rfl ended
  have closes : ClosesPiece e.rest := ends_nameEnd.mp (List.ne_nil_of_mem ended)
  have behind : d.rest = name ++ e.rest := onward.rest
  have parts : piece = front ++ (gap ++ (name ++ e.rest)) := by rw [split, reached.rest, behind]
  have offset : d.offset = (front ++ gap).length := by
    rw [(passes.trans reached).offset]
    exact Nat.zero_add _
  have kept : b.captures =
      [⟨.namePart, name ++ e.rest, name.length⟩, ⟨.typePart, piece, (front ++ gap).length⟩] := by
    rw [kept'', captures, Cursor.keep, kept', kept, ← behind, ← offset]
    rfl
  refine ⟨front, gap, name, e.rest, ⟨parts, filled, ⟨?_, apart⟩, takes_chars_plus.mp word, closes⟩,
    ?_, ?_, ?_⟩
  · exact List.length_pos_iff.mp (Times.allows_plus.mp wide)
  · have found : b.captures.find? (·.field = .typePart) =
        some ⟨.typePart, (front ++ gap) ++ (name ++ e.rest), (front ++ gap).length⟩ := by
      rw [kept, parts, List.append_assoc]
      rfl
    exact get_of_kept found
  · have found : b.captures.find? (·.field = .namePart) =
        some ⟨.namePart, name ++ e.rest, name.length⟩ := by
      rw [kept]
      rfl
    exact get_of_kept found
  · intro front' gap' name' tail' reads
    -- the free text is lazy, so the pattern goes on from no nearer place
    have nearer (u v : Text) (eq : front = u ++ v) (some : v ≠ [])
        (fits : Times.lazyPlus.Allows u.length) :
        ∃ d, (Cursor.atStart piece).Passes u d ∧ behindFront (.atStart piece) d = [] := by
      obtain ⟨d, near, -, none⟩ := nearer u v eq some fits
      exact ⟨d, near, none⟩
    exact reads.length_le ⟨_, parts.symm⟩ nearer

theorem nameIn?_eq_none {piece : Text}
    (never : ∀ front gap name tail, ¬ Reads piece front gap name tail) : nameIn? piece = none := by
  rw [nameIn?, matchStart?_eq_none never]

theorem exists_reading {piece front gap name tail : Text}
    (reads : Reads piece front gap name tail) :
    ∃ front' gap' name' tail', Reads piece front' gap' name' tail' ∧ front'.length ≤ front.length ∧
      nameIn? piece =
        if endsType (front' ++ gap') name' then none else some (Identifier.sanitize name') := by
  cases found : namedParameter.matchStart? piece with
  | none =>
    rw [matchStart?, matchAt?, run_some, Option.map_eq_none_iff, List.head?_eq_none_iff,
      namedParameter_ends, List.flatMap_eq_nil_iff] at found
    have long : Times.lazyPlus.Allows front.length :=
      Times.allows_plus.mpr (List.length_pos_iff.mpr reads.front)
    have all : ∀ a ∈ front, CharClass.any.accepts a := fun _ _ => rfl
    obtain ⟨c, member, passes, -⟩ :=
      @Cursor.exists_mem_stops .any .lazyPlus (.atStart piece) front _ reads.parts all long
    exact absurd (found c member)
      ((behindFront_ne_nil passes reads.front).mpr ⟨gap, name, tail, reads⟩)
  | some m =>
    obtain ⟨front', gap', name', tail', reads', type, word, least⟩ := exists_reading_of_match found
    refine ⟨front', gap', name', tail', reads', least _ _ _ _ reads, ?_⟩
    rw [nameIn?, found]
    simp only [type, word]

/-! One name in front of an equals sign. -/

theorem ClosesPiece.split {tail : Text} (closes : ClosesPiece tail) :
    ∃ space value, tail = space ++ value ∧ (∀ c ∈ space, Text.isBlank c) ∧
      ∀ c, value.head? = some c → c = '=' := by
  obtain ⟨space, value, rfl, blank, closed⟩ := closes
  refine ⟨space, value, rfl, blank, ?_⟩
  intro c head
  rcases closed with rfl | ⟨default, rfl, -⟩
  · cases head
  · exact (Option.some.inj head).symm

theorem not_mem_of_nameGap {gap : Text} (apart : ∀ c ∈ gap, nameGap.accepts c) : '=' ∉ gap :=
  fun member => absurd (apart '=' member) (by decide)

theorem lastWord_unique {before name space value before' name' space' value' : Text}
    (same : before ++ (name ++ (space ++ value)) = before' ++ (name' ++ (space' ++ value')))
    (free : '=' ∉ before) (free' : '=' ∉ before') (outside : EndsOutside before)
    (outside' : EndsOutside before') (word : Text.IsWordRun name) (word' : Text.IsWordRun name')
    (blank : ∀ c ∈ space, Text.isBlank c) (blank' : ∀ c ∈ space', Text.isBlank c)
    (ends : ∀ c, value.head? = some c → c = '=') (ends' : ∀ c, value'.head? = some c → c = '=') :
    before = before' ∧ name = name' ∧ space ++ value = space' ++ value' := by
  have front {b n s : Text} (free : '=' ∉ b) (word : Text.IsWordRun n)
      (blank : ∀ c ∈ s, Text.isBlank c) : ∀ c ∈ (b ++ n) ++ s, (c != '=') = true := by
    intro c member
    rw [bne_iff_ne]
    rintro rfl
    rcases List.mem_append.mp member with head | last
    · rcases List.mem_append.mp head with first | second
      · exact free first
      · exact word.not_mem (by decide) second
    · exact absurd (blank '=' last) (by decide)
  have back {v : Text} (ends : ∀ c, v.head? = some c → c = '=') :
      ∀ c, v.head? = some c → (c != '=') = false := by
    intro c head
    rw [ends c head]
    rfl
  have last {b n : Text} (word : Text.IsWordRun n) :
      ∀ c, (b ++ n).getLast? = some c → Text.isBlank c = false := by
    intro c at_end
    rw [List.getLast?_append_of_ne_nil _ word.1] at at_end
    exact Text.isBlank_of_isWord (word.2 c (List.mem_of_mem_getLast? at_end))
  simp only [← List.append_assoc] at same
  obtain ⟨heads, rfl⟩ := Text.span_unique (front free word blank) (front free' word' blank')
    (back ends) (back ends') same
  obtain ⟨names, rfl⟩ := Text.span_unique_right blank blank' (last word) (last word') heads
  obtain ⟨rfl, rfl⟩ := last_word_unique outside outside' word word' names
  exact ⟨rfl, rfl, rfl⟩

theorem Reads.unique {piece front gap name tail front' gap' name' tail' : Text}
    (reads : Reads piece front gap name tail) (free : '=' ∉ front)
    (reads' : Reads piece front' gap' name' tail') (free' : '=' ∉ front') :
    front ++ gap = front' ++ gap' ∧ name = name' ∧ tail = tail' := by
  have before {front gap : Text} (free : '=' ∉ front) (apart : ∀ c ∈ gap, nameGap.accepts c) :
      '=' ∉ front ++ gap := by
    rw [List.mem_append]
    exact not_or.mpr ⟨free, not_mem_of_nameGap apart⟩
  obtain ⟨space, value, rfl, blank, ends⟩ := reads.closes.split
  obtain ⟨space', value', rfl, blank', ends'⟩ := reads'.closes.split
  have same := reads.parts.symm.trans reads'.parts
  rw [← List.append_assoc front, ← List.append_assoc front'] at same
  exact lastWord_unique same (before free reads.gap.2) (before free' reads'.gap.2)
    reads.endsOutside reads'.endsOutside reads.word reads'.word blank blank' ends ends'

/-- The name that is read in front of the first equals sign is taken. -/
theorem nameIn?_of_reads {piece front gap name tail : Text}
    (reads : Reads piece front gap name tail) (free : '=' ∉ front) : nameIn? piece =
      if endsType (front ++ gap) name then none else some (Identifier.sanitize name) := by
  obtain ⟨front', gap', name', tail', reads', shorter, taken⟩ := exists_reading reads
  have nearer : '=' ∉ front' := by
    have start : front' <+: front := List.prefix_of_prefix_length_le
      ⟨_, reads'.parts.symm⟩ ⟨_, reads.parts.symm⟩ shorter
    exact fun member => free (start.subset member)
  obtain ⟨before, rfl, -⟩ := reads.unique free reads' nearer
  rw [taken, before]

end Apidoc.ArgumentList
