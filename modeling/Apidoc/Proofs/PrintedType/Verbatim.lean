import Apidoc.Proofs.PrintedType.Plain

/-!
A type outside of the grammar is documented as it is written, up to white space and brackets for
pointers. If it has a comma or a closing parenthesis, a text that starts with it goes on at one
place only.
-/
namespace Apidoc.PrintedType

open Computability Pattern

/-- The texts are the same up to white space at their ends. -/
def BlankApart (u v : Text) : Prop :=
  ∃ core s t, u = core ++ s ∧ v = core ++ t ∧ (∀ c ∈ s, Text.isBlank c) ∧ ∀ c ∈ t, Text.isBlank c

theorem BlankApart.prepend {u v : Text} (apart : BlankApart u v) (front : Text) :
    BlankApart (front ++ u) (front ++ v) := by
  obtain ⟨core, s, t, rfl, rfl, blank⟩ := apart
  exact ⟨front ++ core, s, t, by simp, by simp, blank⟩

theorem takes_looseChar {d : Char} {before : Option Char} {w rest : Text}
    (taken : (looseChar d).Takes before w rest) :
    ∃ s m t, w = s ++ (m ++ t) ∧ (∀ c ∈ s, Text.isBlank c) ∧ (∀ c ∈ t, Text.isBlank c) ∧
      if Text.isBlank d then m = [] else m = [d] ∨ d = '*' ∧ m = "[]".toList := by
  unfold looseChar at taken
  split at taken
  · rename_i star
    obtain ⟨s, m, rfl, blank, mark⟩ := taken
    refine ⟨s, m, [], by simp, takes_chars_star.mp blank, by simp, ?_⟩
    rw [star, if_neg (by decide)]
    rcases takes_group_one.mp mark with rfl | rfl
    · exact .inl rfl
    · exact .inr ⟨rfl, rfl⟩
  · split at taken
    · rename_i reference
      obtain ⟨s, _, rfl, blank, rfl⟩ := taken
      refine ⟨s, ['&'], [], by simp, takes_chars_star.mp blank, by simp, ?_⟩
      rw [reference, if_neg (by decide)]
      exact .inl rfl
    · split at taken
      · rename_i comma
        obtain ⟨_, t, rfl, rfl, blank⟩ := taken
        refine ⟨[], [','], t, by simp, by simp, takes_chars_star.mp blank, ?_⟩
        rw [comma, if_neg (by decide)]
        exact .inl rfl
      · split at taken
        · rename_i blank
          refine ⟨w, [], [], by simp, takes_chars_star.mp taken, by simp, ?_⟩
          rw [if_pos blank]
        · rename_i solid
          cases taken
          refine ⟨[], [d], [], rfl, by simp, by simp, ?_⟩
          rw [if_neg solid]
          exact .inl rfl

/-- Two readings of the same type at the start of a text end alike. -/
theorem blankApart_of_loose {raw : Text} {before before' : Option Char}
    {s s' w w' x x' rest rest' : Text} (taken : (loosePattern raw).Takes before w rest)
    (taken' : (loosePattern raw).Takes before' w' rest') (blank : ∀ c ∈ s, Text.isBlank c)
    (blank' : ∀ c ∈ s', Text.isBlank c) (same : s ++ (w ++ x) = s' ++ (w' ++ x')) :
    BlankApart (s ++ w) (s' ++ w') := by
  induction raw generalizing before before' s s' w w' rest rest' with
  | nil =>
    cases taken
    cases taken'
    exact ⟨[], s, s', by simp, by simp, blank, blank'⟩
  | cons d raw ih =>
    obtain ⟨u, v, rfl, first, others⟩ := takes_all_cons.mp taken
    obtain ⟨u', v', rfl, first', others'⟩ := takes_all_cons.mp taken'
    obtain ⟨b, m, t, rfl, left, right, mark⟩ := takes_looseChar first
    obtain ⟨b', m', t', rfl, left', right', mark'⟩ := takes_looseChar first'
    have front : ∀ c ∈ s ++ b, Text.isBlank c := List.forall_mem_append.mpr ⟨blank, left⟩
    have front' : ∀ c ∈ s' ++ b', Text.isBlank c := List.forall_mem_append.mpr ⟨blank', left'⟩
    split at mark
    · rename_i space
      rw [if_pos space] at mark'
      subst mark mark'
      have tail : s ++ b ++ t ++ (v ++ x) = s' ++ b' ++ t' ++ (v' ++ x') := by simpa using same
      have rest := ih others others' (List.forall_mem_append.mpr ⟨front, right⟩)
        (List.forall_mem_append.mpr ⟨front', right'⟩) tail
      simpa using rest
    · rename_i solid
      rw [if_neg solid] at mark'
      -- the mark is no white space, so it stands at one place, and its first character tells it
      have heads {k y : Text} (mark : k = [d] ∨ d = '*' ∧ k = "[]".toList) :
          ∀ c, (k ++ y).head? = some c → Text.isBlank c = false := by
        intro c head
        rcases mark with rfl | ⟨-, rfl⟩
        · cases head
          exact eq_false_of_ne_true solid
        · cases head
          decide
      obtain ⟨whole, tail⟩ := Text.span_unique (x := m ++ (t ++ (v ++ x)))
        (y := m' ++ (t' ++ (v' ++ x'))) front front' (heads mark) (heads mark')
        (by simpa using same)
      have marks : m = m' := by
        rcases mark with rfl | ⟨star, rfl⟩ <;> rcases mark' with rfl | ⟨star', rfl⟩
        · rfl
        · rw [star'] at tail
          exact absurd (List.cons.inj tail).1 (by decide)
        · rw [star] at tail
          exact absurd (List.cons.inj tail).1 (by decide)
        · rfl
      rw [marks] at tail
      have rest := (ih others others' right right' (List.append_cancel_left tail)).prepend
        ((s ++ b) ++ m)
      have shape : s' ++ (b' ++ (m' ++ t') ++ v') = (s ++ b) ++ m ++ (t' ++ v') := by
        rw [whole, marks]
        simp
      rw [shape]
      simpa using rest

/-! The marks of a type that has some. -/

def cutMarks : List Char := [',', ')']

theorem solid_cutMarks : ∀ c ∈ cutMarks, Text.isBlank c = false ∧ Text.isWord c = false ∧
    c ∉ "[]".toList := by
  decide

theorem exists_first {marks w : Text} (marked : ∃ c ∈ marks, c ∈ w) :
    ∃ front m back, w = front ++ m :: back ∧ m ∈ marks ∧ ∀ c ∈ front, c ∉ marks := by
  induction w with
  | nil =>
    obtain ⟨c, -, absent⟩ := marked
    cases absent
  | cons d w ih =>
    by_cases mark : d ∈ marks
    · exact ⟨[], d, w, rfl, mark, by simp⟩
    · have later : ∃ c ∈ marks, c ∈ w := by
        obtain ⟨c, listed, member⟩ := marked
        rcases List.mem_cons.mp member with rfl | inside
        · exact absurd listed mark
        · exact ⟨c, listed, inside⟩
      obtain ⟨front, m, back, rfl, listed, free⟩ := ih later
      exact ⟨d :: front, m, back, rfl, listed, List.forall_mem_cons.mpr ⟨mark, free⟩⟩

theorem free_of_blank {w : Text} (blank : ∀ c ∈ w, Text.isBlank c) :
    (∀ c ∈ w, c ∉ cutMarks) ∧ w.countP Text.isWord = 0 := by
  constructor
  · intro c member mark
    have solid := (solid_cutMarks c mark).1
    rw [blank c member] at solid
    cases solid
  · apply List.countP_eq_zero.mpr
    intro c member word
    rw [Text.isWord_of_isBlank (blank c member)] at word
    cases word

theorem takes_before_mark {front back : Text} {m : Char} (mark : m ∈ cutMarks)
    (free : ∀ c ∈ front, c ∉ cutMarks) {before : Option Char} {w rest : Text}
    (taken : (loosePattern (front ++ m :: back)).Takes before w rest) :
    ∃ u v, w = u ++ m :: v ∧ (∀ c ∈ u, c ∉ cutMarks) ∧
      u.countP Text.isWord = front.countP Text.isWord := by
  induction front generalizing before w with
  | nil =>
    obtain ⟨a, v, rfl, first, -⟩ := takes_all_cons.mp taken
    obtain ⟨s, k, t, rfl, blank, -, spelled⟩ := takes_looseChar first
    obtain ⟨solid, -, -⟩ := solid_cutMarks m mark
    rw [if_neg (by simp [solid])] at spelled
    have itself : k = [m] := by
      rcases spelled with itself | ⟨rfl, -⟩
      · exact itself
      · exact absurd mark (by decide)
    obtain ⟨none, count⟩ := free_of_blank blank
    exact ⟨s, t ++ v, by simp [itself], none, count⟩
  | cons d front ih =>
    obtain ⟨a, v, rfl, first, others⟩ := takes_all_cons.mp taken
    obtain ⟨s, k, t, rfl, left, right, spelled⟩ := takes_looseChar first
    obtain ⟨other, later⟩ := List.forall_mem_cons.mp free
    obtain ⟨u, v, rfl, none, count⟩ := ih later others
    obtain ⟨noneLeft, left⟩ := free_of_blank left
    obtain ⟨noneRight, right⟩ := free_of_blank right
    have middle : (∀ c ∈ k, c ∉ cutMarks) ∧
        k.countP Text.isWord = [d].countP Text.isWord := by
      split at spelled
      · rename_i blank
        have outside : Text.isWord d = false := Text.isWord_of_isBlank blank
        rw [spelled]
        exact ⟨by simp, by simp [outside]⟩
      · rcases spelled with rfl | ⟨rfl, rfl⟩
        · exact ⟨by simpa using other, rfl⟩
        · decide
    refine ⟨s ++ (k ++ t) ++ u, v, by simp, ?_, ?_⟩
    · simp only [List.forall_mem_append]
      exact ⟨⟨noneLeft, middle.1, noneRight⟩, none⟩
    · rw [List.countP_append, List.countP_append, List.countP_append, left, middle.2, right,
        count, List.countP_cons, List.countP_cons]
      simp [Nat.add_comm]

theorem count_eq_of_loose {raw : Text} (marked : ∃ c ∈ cutMarks, c ∈ raw)
    {before before' : Option Char} {p p' w w' x x' rest rest' : Text}
    (free : ∀ c ∈ p, c ∉ cutMarks) (free' : ∀ c ∈ p', c ∉ cutMarks)
    (taken : (loosePattern raw).Takes before w rest)
    (taken' : (loosePattern raw).Takes before' w' rest') (same : p ++ (w ++ x) = p' ++ (w' ++ x')) :
    p.countP Text.isWord = p'.countP Text.isWord := by
  obtain ⟨front, m, back, rfl, mark, none⟩ := exists_first marked
  obtain ⟨u, v, rfl, first, count⟩ := takes_before_mark mark none taken
  obtain ⟨u', v', rfl, first', count'⟩ := takes_before_mark mark none taken'
  have heads {y : Text} : ∀ c, (m :: y).head? = some c → decide (c ∉ cutMarks) = false := by
    intro c head
    cases head
    simpa using mark
  have all {y z : Text} (left : ∀ c ∈ y, c ∉ cutMarks) (right : ∀ c ∈ z, c ∉ cutMarks) :
      ∀ c ∈ y ++ z, decide (c ∉ cutMarks) := by
    intro c member
    exact decide_eq_true (List.forall_mem_append.mpr ⟨left, right⟩ c member)
  obtain ⟨split, -⟩ := Text.span_unique (x := m :: (v ++ x)) (y := m :: (v' ++ x'))
    (all free first) (all free' first') heads heads (by simpa using same)
  have counts := congrArg (List.countP Text.isWord) split
  rw [List.countP_append, List.countP_append, count, count'] at counts
  exact Nat.add_right_cancel counts

/-! What may stand in front of the type. -/

theorem free_of_word {w : Text} (word : ∀ c ∈ w, Text.isWord c) : ∀ c ∈ w, c ∉ cutMarks := by
  intro c member mark
  have outside := (solid_cutMarks c mark).2.1
  rw [word c member] at outside
  cases outside

theorem free_of_foreignScope {w : Text} (member : w ∈ foreignScope) : ∀ c ∈ w, c ∉ cutMarks := by
  rcases mem_foreignScope member with rfl | ⟨x, rfl, word⟩
  · simp
  · exact List.forall_mem_append.mpr ⟨free_of_word word.2, by decide⟩

theorem count_pos_of_word {u w v : Text} (word : Text.IsWordRun w) :
    0 < (u ++ (w ++ v)).countP Text.isWord := by
  obtain ⟨c, member⟩ := List.exists_mem_of_ne_nil w word.1
  exact List.countP_pos_iff.mpr ⟨c, by simp [member], word.2 c member⟩

theorem word_unique {s s' w w' y y' : Text} (blank : ∀ c ∈ s, Text.isBlank c)
    (blank' : ∀ c ∈ s', Text.isBlank c) (word : Text.IsWordRun w) (word' : Text.IsWordRun w')
    (ends : ∀ c, y.head? = some c → Text.isWord c = false)
    (ends' : ∀ c, y'.head? = some c → Text.isWord c = false)
    (same : s ++ (w ++ y) = s' ++ (w' ++ y')) : s = s' ∧ w = w' ∧ y = y' := by
  have solid {x z : Text} (run : Text.IsWordRun x) :
      ∀ c, (x ++ z).head? = some c → Text.isBlank c = false := by
    intro c head
    cases x with
    | nil => exact absurd rfl run.1
    | cons d x =>
      cases head
      exact Text.isBlank_of_isWord (run.2 c (.head _))
  obtain ⟨front, rest⟩ := Text.span_unique blank blank' (solid word) (solid word') same
  obtain ⟨run, left⟩ := Text.span_unique word.2 word'.2 ends ends' rest
  exact ⟨front, run, left⟩

theorem head_of_colons (z : Text) :
    ∀ c, ("::".toList ++ z).head? = some c → Text.isWord c = false := by
  intro c head
  cases head
  exact Text.isWord_colon

theorem head_of_gap {g : Text} (some : g ≠ []) (gap : ∀ c ∈ g, Text.isBlank c) (z : Text) :
    ∀ c, (g ++ z).head? = .some c → Text.isWord c = false := by
  intro c head
  cases g with
  | nil => exact absurd rfl some
  | cons d g =>
    cases head
    exact Text.isWord_of_isBlank (gap c (.head _))

section

variable {raw : Text} (marked : ∃ c ∈ cutMarks, c ∈ raw)
include marked

theorem scope_absurd {s s' e w w' x x' : Text} (blank : ∀ c ∈ s, Text.isBlank c)
    (blank' : ∀ c ∈ s', Text.isBlank c) (word : Text.IsWordRun e)
    (taken : (loosePattern raw).Takes none w []) (taken' : (loosePattern raw).Takes none w' [])
    (same : s ++ (e ++ "::".toList ++ (w ++ x)) = s' ++ (w' ++ x')) : False := by
  obtain ⟨none, count⟩ := free_of_blank blank'
  have free : ∀ c ∈ s ++ (e ++ "::".toList), c ∉ cutMarks :=
    List.forall_mem_append.mpr ⟨(free_of_blank blank).1,
      List.forall_mem_append.mpr ⟨free_of_word word.2, by decide⟩⟩
  have counts := count_eq_of_loose marked free none taken taken' (by simpa using same)
  have some : 0 < (s ++ (e ++ "::".toList)).countP Text.isWord := count_pos_of_word word
  omega

theorem blankApart_of_scoped {s s' e e' w w' x x' : Text} (blank : ∀ c ∈ s, Text.isBlank c)
    (blank' : ∀ c ∈ s', Text.isBlank c) (scope : e ∈ foreignScope) (scope' : e' ∈ foreignScope)
    (taken : (loosePattern raw).Takes none w []) (taken' : (loosePattern raw).Takes none w' [])
    (same : s ++ (e ++ (w ++ x)) = s' ++ (e' ++ (w' ++ x'))) :
    BlankApart (s ++ (e ++ w)) (s' ++ (e' ++ w')) := by
  rcases mem_foreignScope scope with rfl | ⟨y, rfl, word⟩ <;>
    rcases mem_foreignScope scope' with rfl | ⟨y', rfl, word'⟩
  · exact blankApart_of_loose taken taken' blank blank' same
  · exact (scope_absurd marked blank' blank word' taken' taken same.symm).elim
  · exact (scope_absurd marked blank blank' word taken taken' same).elim
  · have parts : s ++ (y ++ ("::".toList ++ (w ++ x))) =
        s' ++ (y' ++ ("::".toList ++ (w' ++ x'))) := by simpa using same
    obtain ⟨rfl, rfl, rest⟩ :=
      word_unique blank blank' word word' (head_of_colons _) (head_of_colons _) parts
    have tail : [] ++ (w ++ x) = [] ++ (w' ++ x') := List.append_cancel_left rest
    have apart := blankApart_of_loose taken taken' (by simp) (by simp) tail
    simpa using apart.prepend (s ++ (y ++ "::".toList))

theorem const_absurd {s s' g e e' w w' x x' : Text} (blank : ∀ c ∈ s, Text.isBlank c)
    (blank' : ∀ c ∈ s', Text.isBlank c) (some : g ≠ []) (gap : ∀ c ∈ g, Text.isBlank c)
    (scope : e ∈ foreignScope) (scope' : e' ∈ foreignScope)
    (taken : (loosePattern raw).Takes none w []) (taken' : (loosePattern raw).Takes none w' [])
    (same : s ++ (constWord ++ g ++ (e ++ (w ++ x))) = s' ++ (e' ++ (w' ++ x'))) : False := by
  rcases mem_foreignScope scope' with rfl | ⟨y, rfl, word⟩
  · obtain ⟨none, count⟩ := free_of_blank blank'
    have free : ∀ c ∈ s ++ (constWord ++ (g ++ e)), c ∉ cutMarks :=
      List.forall_mem_append.mpr ⟨(free_of_blank blank).1,
        List.forall_mem_append.mpr ⟨by decide,
          List.forall_mem_append.mpr ⟨(free_of_blank gap).1, free_of_foreignScope scope⟩⟩⟩
    have counts := count_eq_of_loose marked free none taken taken' (by simpa using same)
    have some : 0 < (s ++ (constWord ++ (g ++ e))).countP Text.isWord :=
      count_pos_of_word isWordRun_constWord
    omega
  · have parts : s ++ (constWord ++ (g ++ (e ++ (w ++ x)))) =
        s' ++ (y ++ ("::".toList ++ (w' ++ x'))) := by simpa using same
    obtain ⟨-, -, rest⟩ := word_unique blank blank' isWordRun_constWord word
      (head_of_gap some gap _) (head_of_colons _) parts
    cases g with
    | nil => exact some rfl
    | cons c g =>
      have space := gap c (.head _)
      rw [(List.cons.inj rest).1] at space
      exact absurd space (by decide)

theorem blankApart_of_qualified {s s' k k' e e' w w' x x' : Text} (blank : ∀ c ∈ s, Text.isBlank c)
    (blank' : ∀ c ∈ s', Text.isBlank c) (const : k ∈ constSpelling) (const' : k' ∈ constSpelling)
    (scope : e ∈ foreignScope) (scope' : e' ∈ foreignScope)
    (taken : (loosePattern raw).Takes none w []) (taken' : (loosePattern raw).Takes none w' [])
    (same : s ++ (k ++ (e ++ (w ++ x))) = s' ++ (k' ++ (e' ++ (w' ++ x')))) :
    BlankApart (s ++ (k ++ (e ++ w))) (s' ++ (k' ++ (e' ++ w'))) := by
  rcases mem_constSpelling const with rfl | ⟨g, rfl, some, gap⟩ <;>
    rcases mem_constSpelling const' with rfl | ⟨g', rfl, some', gap'⟩
  · have apart := blankApart_of_scoped marked blank blank' scope scope' taken taken'
      (by simpa using same)
    exact apart
  · exact (const_absurd marked blank' blank some' gap' scope' scope taken' taken same.symm).elim
  · exact (const_absurd marked blank blank' some gap scope scope' taken taken' same).elim
  · have parts : s ++ (constWord ++ (g ++ (e ++ (w ++ x)))) =
        s' ++ (constWord ++ (g' ++ (e' ++ (w' ++ x')))) := by simpa using same
    obtain ⟨rfl, -, rest⟩ := word_unique blank blank' isWordRun_constWord isWordRun_constWord
      (head_of_gap some gap _) (head_of_gap some' gap' _) parts
    have apart := (blankApart_of_scoped marked gap gap' scope scope' taken taken' rest).prepend
      (s ++ constWord)
    simpa using apart

end

/-- The spellings of a type outside of the grammar without a `const` and a scope in front. -/
def looseSpelling (raw : Text) : Language Char := {w | (loosePattern raw).Takes none w []}

/-- Two spellings of a type outside of the grammar that start one text end alike, if the type has a
mark and no typedef names. -/
theorem blankApart_of_verbatim {table : AliasTable} {type raw : Text} {const complete : Bool}
    (reading : read type = .verbatim const raw) (unnamed : table.names (canonical raw) = [])
    (marked : ∃ c ∈ cutMarks, c ∈ raw) {s s' w w' x x' : Text} (blank : ∀ c ∈ s, Text.isBlank c)
    (blank' : ∀ c ∈ s', Text.isBlank c)
    (taken : (pattern type table complete).Takes none w [])
    (taken' : (pattern type table complete).Takes none w' [])
    (same : s ++ (w ++ x) = s' ++ (w' ++ x')) : BlankApart (s ++ w) (s' ++ w') := by
  have loose : (loosePattern raw).Spells (looseSpelling raw) :=
    (isPlain_loosePattern (List.nil_subset _) fun _ none => nomatch none).spells
  have spelled : (pattern type table complete).Spells
      (constSpelling * (foreignScope * looseSpelling raw + [].sum)) := by
    rw [pattern, reading]
    simp only [Reading.pattern, Reading.spelling, AliasTable.extra, unnamed, List.map_nil]
    exact spells_anySpelling (spells_anyScope.seq loose) .nil
  have parts {u : Text} (taken : (pattern type table complete).Takes none u []) :
      ∃ k e v, u = k ++ (e ++ v) ∧ k ∈ constSpelling ∧ e ∈ foreignScope ∧
        (loosePattern raw).Takes none v [] := by
    obtain ⟨k, qualifier, m, member, rfl⟩ := Language.mem_mul.mp ((spelled _ _ _).mp taken)
    rw [List.sum_nil, add_zero] at member
    obtain ⟨e, scope, v, own, rfl⟩ := Language.mem_mul.mp member
    exact ⟨k, e, v, rfl, qualifier, scope, own⟩
  obtain ⟨k, e, v, rfl, qualifier, scope, own⟩ := parts taken
  obtain ⟨k', e', v', rfl, qualifier', scope', own'⟩ := parts taken'
  exact blankApart_of_qualified marked blank blank' qualifier qualifier' scope scope' own own'
    (by simpa using same)

end Apidoc.PrintedType
