import Apidoc.Proofs.Page.ParameterCut

namespace Apidoc.Page

open Pattern PrintedType

def openMarks : List Char := [',', '=', '(']

/-- Whether the last mark is a closing parenthesis, given whether it was before. -/
def isClosed : Bool → Text → Bool
  | closed, [] => closed
  | closed, c :: cs => isClosed (c = ')' || (closed && c ∉ openMarks)) cs

@[simp] theorem isClosed_append (closed : Bool) (u v : Text) :
    isClosed closed (u ++ v) = isClosed (isClosed closed u) v := by
  induction u generalizing closed with
  | nil => rfl
  | cons c u ih => exact ih _

theorem isClosed_of_not_mem {w : Text} (free : ')' ∉ w) : isClosed false w = false := by
  induction w with
  | nil => rfl
  | cons c w ih =>
    rw [List.mem_cons, not_or] at free
    obtain ⟨other, rest⟩ := free
    have same : decide (c = ')') = false := decide_eq_false (Ne.symm other)
    simp only [isClosed, same, Bool.false_and, Bool.or_false]
    exact ih rest

theorem isClosed_of_plain {w : Text} (plain : ∀ c ∈ w, c ∉ openMarks) : isClosed true w = true := by
  induction w with
  | nil => rfl
  | cons c w ih =>
    obtain ⟨first, others⟩ := List.forall_mem_cons.mp plain
    simp only [isClosed, decide_eq_true first, Bool.and_self, Bool.or_true]
    exact ih others

/-- No line ends behind a closing parenthesis, except in front of something else than a word. -/
def KeepsOpen (closed : Bool) (w : Text) : Prop :=
  ∀ u v, w = u ++ '\n' :: v → v.head?.all Text.isWord → isClosed closed u = false

theorem KeepsOpen.append {closed : Bool} {u v : Text} (first : KeepsOpen closed u)
    (second : KeepsOpen (isClosed closed u) v) : KeepsOpen closed (u ++ v) := by
  intro x y same word
  rcases List.append_eq_append_iff.mp same with ⟨t, rfl, eq⟩ | ⟨t, rfl, eq⟩
  · rw [isClosed_append]
    exact second t y eq word
  · cases t with
    | nil =>
      rw [List.nil_append] at eq
      rw [List.append_nil] at second
      exact second [] y eq.symm word
    | cons c t =>
      obtain ⟨rfl, rfl⟩ := List.cons.inj eq
      apply first x t rfl
      cases t with
      | nil => rfl
      | cons d t => exact word

theorem keepsOpen_of_line {w : Text} (line : '\n' ∉ w) (closed : Bool) : KeepsOpen closed w := by
  intro u v same
  exact absurd (by simp [same]) line

theorem keepsOpen_of_free {w : Text} (free : ')' ∉ w) : KeepsOpen false w := by
  intro u v same _
  apply isClosed_of_not_mem
  intro member
  exact free (by simp [same, member])

theorem keepsOpen_cons {c : Char} (mark : c ∈ openMarks) {w : Text} (free : ')' ∉ w)
    (closed : Bool) : KeepsOpen closed (c :: w) ∧ isClosed closed (c :: w) = false := by
  have other : ∀ c ∈ openMarks, c ≠ '\n' ∧ c ≠ ')' := by decide
  obtain ⟨solid, opening⟩ := other c mark
  have state : isClosed closed [c] = false := by simp [isClosed, opening, mark]
  have first : KeepsOpen closed [c] := keepsOpen_of_line (by simpa using solid.symm) closed
  constructor
  · have rest : KeepsOpen (isClosed closed [c]) w := state ▸ keepsOpen_of_free free
    exact first.append rest
  · rw [← List.singleton_append, isClosed_append, state]
    exact isClosed_of_not_mem free

theorem keepsOpen_blank {s : Text} (blank : ∀ c ∈ s, Text.isBlank c) {c : Char}
    (mark : Text.isWord c = false) (solid : c ≠ '\n') (closed : Bool) :
    KeepsOpen closed (s ++ [c]) := by
  intro u v same word
  have head : ∃ d, v.head? = some d ∧ Text.isWord d = false := by
    rcases List.append_eq_append_iff.mp same with ⟨t, rfl, eq⟩ | ⟨t, rfl, eq⟩
    · cases t with
      | nil => exact absurd (List.cons.inj eq).1 solid
      | cons d t => simp at eq
    · cases t with
      | nil => exact absurd (List.cons.inj eq).1.symm solid
      | cons d t =>
        obtain ⟨rfl, rfl⟩ := List.cons.inj eq
        cases t with
        | nil => exact ⟨c, rfl, mark⟩
        | cons e t => exact ⟨e, rfl, Text.isWord_of_isBlank (blank e (by simp))⟩
  obtain ⟨d, at_head, other⟩ := head
  rw [at_head, Option.all_some, other] at word
  cases word

theorem isBlank_closing : Text.isBlank ')' = false := by decide

theorem closing_not_mem_blank {s : Text} (blank : ∀ c ∈ s, Text.isBlank c) : ')' ∉ s := by
  intro member
  have inside := blank ')' member
  rw [isBlank_closing] at inside
  cases inside

theorem takes_comma {before : Option Char} {w rest : Text} :
    (all [comma, spaces]).Takes before w rest ↔
      ∃ space, w = ',' :: space ∧ ∀ c ∈ space, Text.isBlank c := by
  constructor
  · intro taken
    obtain ⟨_, space, rfl, rfl, blank⟩ := taken
    exact ⟨space, rfl, takes_chars_star.mp blank⟩
  · intro separated
    obtain ⟨space, rfl, blank⟩ := separated
    exact ⟨[','], space, rfl, rfl, takes_chars_star.mpr blank⟩

theorem keepsOpen_of_comma {before : Option Char} {w rest : Text}
    (taken : (all [comma, spaces]).Takes before w rest) (closed : Bool) :
    KeepsOpen closed w ∧ isClosed closed w = false := by
  obtain ⟨space, rfl, blank⟩ := takes_comma.mp taken
  exact keepsOpen_cons (by decide) (closing_not_mem_blank blank) closed

theorem keepsOpen_of_defaultValue {before : Option Char} {w rest : Text}
    (taken : defaultValue.Takes before w rest) (closed : Bool) : KeepsOpen closed w := by
  obtain ⟨front, _, rfl, blank, _, _, rfl, rfl, space, _, rfl, inner, value, call, rfl,
    ⟨solid, -⟩, brackets⟩ := taken
  have equals := keepsOpen_blank (takes_chars_star.mp blank) (c := '=') (by decide)
    (by decide) closed
  have state : isClosed closed (front ++ ['=']) = false := by
    rw [isClosed_append]
    exact (keepsOpen_cons (by decide) List.not_mem_nil _).2
  have behind : KeepsOpen (isClosed closed (front ++ ['='])) space := by
    rw [state]
    exact keepsOpen_of_free (closing_not_mem_blank (takes_chars_star.mp inner))
  have line : '\n' ∉ value := by
    intro member
    exact absurd (solid '\n' member) (by decide)
  have last : ∀ closed, KeepsOpen closed call := by
    intro closed
    rcases takes_group_optional.mp brackets with rfl | ⟨_, _, rfl, rfl, gap, _, rfl, free, rfl⟩
    · exact keepsOpen_of_line List.not_mem_nil closed
    · have opening := keepsOpen_cons (c := '(') (by decide)
        (closing_not_mem_blank (takes_chars_star.mp free)) closed
      exact opening.1.append (keepsOpen_of_line (by decide) _)
  have whole := (equals.append behind).append ((keepsOpen_of_line line _).append (last _))
  simpa using whole

theorem keepsOpen_of_nameAndDefault {before : Option Char} {w rest : Text}
    (taken : nameAndDefault.Takes before w rest) : KeepsOpen false w := by
  rcases takes_group_optional.mp taken with rfl | ⟨space, _, rfl, separator, name, value, rfl,
    word, default⟩
  · exact keepsOpen_of_line List.not_mem_nil false
  · have gap : ')' ∉ space := by
      rcases takes_separator.mp separator with ⟨-, blank⟩ | ⟨rfl, -⟩
      · exact closing_not_mem_blank blank
      · exact List.not_mem_nil
    have run : ')' ∉ name :=
      not_mem_of_word (List.Subset.refl _) (takes_chars_plus.mp word).2 ')' (by decide)
    have behind : KeepsOpen (isClosed (isClosed false space) name) value := by
      rcases takes_group_optional.mp default with rfl | some
      · exact keepsOpen_of_line List.not_mem_nil _
      · exact keepsOpen_of_defaultValue some _
    have named : KeepsOpen (isClosed false space) name := by
      rw [isClosed_of_not_mem gap]
      exact keepsOpen_of_free run
    exact (keepsOpen_of_free gap).append (named.append behind)

theorem keepsOpen_of_unlisted {before : Option Char} {w rest : Text}
    (taken : unlistedParameter.Takes before w rest) (closed : Bool) : KeepsOpen closed w := by
  obtain ⟨type, _, rfl, ⟨plain, -⟩, value, behind, rfl, default, last⟩ := taken
  have line : '\n' ∉ type := by
    intro member
    have allowed := plain '\n' member
    revert allowed
    decide
  have separator : ∀ closed, KeepsOpen closed behind := by
    intro closed
    rcases takes_group_optional.mp last with rfl | comma
    · exact keepsOpen_of_line List.not_mem_nil closed
    · exact (keepsOpen_of_comma comma closed).1
  exact (keepsOpen_of_line line closed).append
    ((keepsOpen_of_defaultValue default _).append (separator _))

theorem keepsOpen_of_star {p : Pattern}
    (each : ∀ before w rest, p.Takes before w rest → ∀ closed, KeepsOpen closed w)
    {before : Option Char} {w rest : Text} (taken : (group p .star).Takes before w rest)
    (closed : Bool) : KeepsOpen closed w := by
  obtain ⟨n, -, taken⟩ := taken
  induction n generalizing before w closed with
  | zero =>
    cases taken
    exact keepsOpen_of_line List.not_mem_nil closed
  | succ n ih =>
    obtain ⟨u, v, rfl, first, others⟩ := taken
    exact (each _ _ _ first closed).append (ih _ others)

section

variable {table : AliasTable} (words : table.OfWords) {complete : Bool}
include words

theorem keepsOpen_of_separated {ps : List Parameter} (spares : ∀ p ∈ ps, table.Spares p.type)
    {before before' : Option Char} {s s' a a' x x' rest rest' : Text}
    (taken : (separated (all [comma, spaces])
      (ps.map (parameterPattern table complete))).Takes before a rest)
    (taken' : (separated (all [comma, spaces])
      (ps.map (parameterPattern table complete))).Takes before' a' rest')
    (blank : ∀ c ∈ s, Text.isBlank c) (blank' : ∀ c ∈ s', Text.isBlank c)
    (same : s ++ (a ++ x) = s' ++ (a' ++ x')) :
    ∃ core t t', s ++ a = core ++ t ∧ s' ++ a' = core ++ t' ∧ KeepsOpen false t := by
  induction ps generalizing before before' s s' a a' rest rest' with
  | nil =>
    cases taken
    cases taken'
    refine ⟨[], s, s', by simp, by simp, ?_⟩
    exact keepsOpen_of_free (closing_not_mem_blank blank)
  | cons p ps ih =>
    obtain ⟨first, others⟩ := List.forall_mem_cons.mp spares
    have whole := isPlain_pattern p.type table complete
    cases ps with
    | nil =>
      obtain ⟨w, n, rfl, type, name⟩ := taken
      obtain ⟨w', n', rfl, type', name'⟩ := taken'
      have parts : s ++ (w ++ (n ++ x)) = s' ++ (w' ++ (n' ++ x')) := by simpa using same
      obtain ⟨core, t, t', eq, eq', free⟩ := exists_core words first blank blank'
        (takes_anywhere whole type none []) (takes_anywhere whole type' none []) parts
      refine ⟨core, t ++ n, t' ++ n', by simp [← List.append_assoc, eq],
        by simp [← List.append_assoc, eq'], ?_⟩
      have behind : KeepsOpen (isClosed false t) n := by
        rw [isClosed_of_not_mem free]
        exact keepsOpen_of_nameAndDefault name
      exact (keepsOpen_of_free free).append behind
    | cons q ps =>
      obtain ⟨_, _, rfl, ⟨w, n, rfl, type, name⟩, m, b, rfl, mark, more⟩ := taken
      obtain ⟨_, _, rfl, ⟨w', n', rfl, type', name'⟩, m', b', rfl, mark', more'⟩ := taken'
      obtain ⟨space, rfl, free⟩ := takes_comma.mp mark
      obtain ⟨space', rfl, free'⟩ := takes_comma.mp mark'
      have parts : s ++ (w ++ n) ++ ',' :: (space ++ (b ++ x)) =
          s' ++ (w' ++ n') ++ ',' :: (space' ++ (b' ++ x')) := by simpa using same
      obtain ⟨item, tail⟩ :=
        parameter_unique words first blank blank' type type' name name' parts
      obtain ⟨core, t, t', eq, eq', opened⟩ := ih others more more' free free' tail
      refine ⟨s ++ (w ++ n) ++ ',' :: core, t, t', ?_, ?_, opened⟩
      · simp [← eq]
      · rw [item]
        simp [← eq']

theorem keepsOpen_of_parameters {ps : List Parameter} (spares : ∀ p ∈ ps, table.Spares p.type)
    {before before' : Option Char} {s s' a a' x x' rest rest' : Text}
    (taken : (parametersPattern table complete ps).Takes before a rest)
    (taken' : (parametersPattern table complete ps).Takes before' a' rest')
    (blank : ∀ c ∈ s, Text.isBlank c) (blank' : ∀ c ∈ s', Text.isBlank c)
    (same : s ++ (a ++ x) = s' ++ (a' ++ x')) :
    ∃ core t t', s ++ a = core ++ t ∧ s' ++ a' = core ++ t' ∧ KeepsOpen false t := by
  cases ps with
  | nil =>
    refine ⟨[], s ++ a, s' ++ a', rfl, rfl, ?_⟩
    exact (keepsOpen_of_free (closing_not_mem_blank blank)).append
      (keepsOpen_of_star (fun _ _ _ => keepsOpen_of_unlisted) taken _)
  | cons p ps =>
    obtain ⟨u, v, rfl, listed, extra⟩ := taken
    obtain ⟨u', v', rfl, listed', -⟩ := taken'
    have parts : s ++ (u ++ (v ++ x)) = s' ++ (u' ++ (v' ++ x')) := by simpa using same
    obtain ⟨core, t, t', eq, eq', opened⟩ :=
      keepsOpen_of_separated words spares listed listed' blank blank' parts
    refine ⟨core, t ++ v, t' ++ v', by simp [← List.append_assoc, eq],
      by simp [← List.append_assoc, eq'], ?_⟩
    have more : KeepsOpen (isClosed false t) v := by
      apply keepsOpen_of_star _ extra
      intro _ _ _ one closed
      obtain ⟨mark, _, rfl, comma, space, x, rfl, blank, unlisted⟩ := one
      have separator := keepsOpen_of_comma (w := mark ++ space) ⟨mark, space, rfl, comma, blank⟩
        closed
      have whole := separator.1.append (keepsOpen_of_unlisted unlisted _)
      rwa [List.append_assoc] at whole
    exact opened.append more

end

theorem line_of_append {r z h y : Text} (line : '\n' ∉ r) (ends : '\n' ∈ h)
    (same : r ++ '\n' :: z = h ++ y) : ∃ t, h = r ++ t := by
  rcases List.append_eq_append_iff.mp same with ⟨t, eq, -⟩ | ⟨t, eq, -⟩
  · exact ⟨t, eq⟩
  · exact absurd (by simp [eq, ends]) line

/-- A text that keeps its lines open does not reach over the end of a line that is closed. -/
theorem KeepsOpen.within {w v z y : Text} (keeps : KeepsOpen false w)
    (closed : isClosed false v = true) (word : z.head?.any Text.isWord)
    (same : v ++ '\n' :: z = w ++ y) : ∃ r, v = w ++ r ∧ y = r ++ '\n' :: z := by
  rcases List.append_eq_append_iff.mp same with ⟨x, eq, rest⟩ | ⟨x, eq, rest⟩
  · cases x with
    | nil => exact ⟨[], by rw [eq]; simp, rest.symm⟩
    | cons c x =>
      obtain ⟨rfl, next⟩ := List.cons.inj rest
      have head : x.head?.all Text.isWord := by
        cases x with
        | nil => rfl
        | cons d x =>
          rw [next] at word
          exact word
      have still := keeps v x eq head
      rw [closed] at still
      cases still
  · exact ⟨x, eq, rest⟩

/-- The parameters that a declarator takes are those up to the last closing parenthesis of the
line, if it keeps the line open behind the text that both have. -/
theorem arguments_unique {l q z s a b h y core t t' : Text} (line : '\n' ∉ l)
    (trimmed : IsTrimmed l) (unmarked : ∀ c ∈ q, c ≠ '\n' ∧ c ≠ ')' ∧ c ∉ openMarks)
    (word : z.head?.any Text.isWord) (front : ∀ c ∈ s, Text.isBlank c)
    (back : ∀ c ∈ b, Text.isBlank c) (taken : s ++ a = core ++ t) (listed : l = core ++ t')
    (opened : KeepsOpen false t) (ends : '\n' ∈ h) (free : ')' ∉ h)
    (same : l ++ ')' :: (q ++ '\n' :: z) = s ++ (a ++ (b ++ ')' :: (h ++ y)))) :
    a = l ∧ h ++ y = q ++ '\n' :: z := by
  have mark : Text.isWord ')' = false := isWord_endMarks ')' (by decide)
  have whole : KeepsOpen false (t ++ (b ++ [')'])) :=
    opened.append (keepsOpen_blank back mark (by decide) _)
  have closed : isClosed false (t' ++ ')' :: q) = true := by
    have last : isClosed (isClosed false t') [')'] = true := by simp [isClosed]
    rw [← List.singleton_append, isClosed_append, isClosed_append, last]
    exact isClosed_of_plain fun c member => (unmarked c member).2.2
  have short : ')' ∉ q := fun member => (unmarked ')' member).2.1 rfl
  have single : '\n' ∉ l ++ ')' :: q := by
    have none : '\n' ∉ q := fun member => (unmarked '\n' member).1 rfl
    simp [line, none]
  have parts : (t' ++ ')' :: q) ++ '\n' :: z = (t ++ (b ++ [')'])) ++ (h ++ y) := by
    have cut : core ++ (t' ++ (')' :: (q ++ '\n' :: z))) =
        core ++ (t ++ (b ++ ')' :: (h ++ y))) := by
      rw [← List.append_assoc, ← List.append_assoc core t, ← listed, ← taken, same,
        List.append_assoc]
    simpa using List.append_cancel_left cut
  -- the declarator cannot take the end of the line, so what it takes is a part of the line
  obtain ⟨r, eq, rest⟩ := whole.within closed word parts
  have whole_line : l ++ ')' :: q = (s ++ (a ++ (b ++ [')']))) ++ r := by
    rw [listed, List.append_assoc, eq, ← List.append_assoc s, taken]
    simp
  have inside : '\n' ∉ r := by
    intro member
    exact single (by rw [whole_line]; simp [member])
  obtain ⟨x, rfl⟩ := line_of_append inside ends rest.symm
  have last : ')' ∉ r := fun member => free (List.mem_append_left x member)
  have cut : l ++ ')' :: q = (s ++ (a ++ b)) ++ ')' :: r := by simpa using whole_line
  obtain ⟨list, rfl⟩ := Text.last_unique short last cut
  have first : s = [] := by
    cases s with
    | nil => rfl
    | cons c s =>
      have solid := trimmed.first c _ list
      rw [front c (.head _)] at solid
      cases solid
  subst first
  have none : b = [] := trimmed.eq_nil (w := a) back list
  rw [none, List.append_nil, List.nil_append] at list
  exact ⟨list.symm, rest⟩

end Apidoc.Page
