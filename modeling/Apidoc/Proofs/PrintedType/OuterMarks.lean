import Apidoc.Proofs.PrintedType.Brackets

namespace Apidoc.PrintedType

open Computability

def decorationMarks : List Char := ['*', '&', ']']

/-- How many template brackets open outside of all others, and how many decorations stand there, in
a text that is read at a depth. -/
def outerMarks : Nat → Text → Nat
  | _, [] => 0
  | depth, c :: cs =>
    if c = '<' then (if depth = 0 then 1 else 0) + outerMarks (depth + 1) cs
    else if c = '>' then outerMarks (depth - 1) cs
    else (if depth = 0 ∧ c ∈ decorationMarks then 1 else 0) + outerMarks depth cs

theorem depthAfter_cons {depth after : Nat} {c : Char} {w : Text}
    (read : depthAfter depth (c :: w) = some after) :
    (c = '<' ∧ depthAfter (depth + 1) w = some after) ∨
      (c = '>' ∧ ∃ outer, depth = outer + 1 ∧ depthAfter outer w = some after) ∨
        (c ≠ '<' ∧ c ≠ '>' ∧ depthAfter depth w = some after) := by
  simp only [depthAfter] at read
  by_cases opening : c = '<'
  · rw [if_pos opening] at read
    exact .inl ⟨opening, read⟩
  rw [if_neg opening] at read
  by_cases closing : c = '>'
  · rw [if_pos closing] at read
    cases depth with
    | zero => cases read
    | succ outer => exact .inr (.inl ⟨closing, outer, rfl, read⟩)
  rw [if_neg closing] at read
  split at read
  · cases read
  · exact .inr (.inr ⟨opening, closing, read⟩)

theorem outerMarks_append {depth after : Nat} {u : Text} (read : depthAfter depth u = some after)
    (v : Text) : outerMarks depth (u ++ v) = outerMarks depth u + outerMarks after v := by
  induction u generalizing depth with
  | nil =>
    cases read
    simp [outerMarks]
  | cons c u ih =>
    obtain ⟨rfl, inner⟩ | ⟨rfl, outer, rfl, behind⟩ | ⟨opening, closing, others⟩ :=
      depthAfter_cons read
    · simp [outerMarks, ih inner, Nat.add_assoc]
    · simp [outerMarks, ih behind]
    · simp [outerMarks, opening, closing, ih others, Nat.add_assoc]

theorem outerMarks_inside {depth after : Nat} {w : Text} (read : depthAfter depth w = some after) :
    outerMarks (depth + 1) w = 0 := by
  induction w generalizing depth with
  | nil => rfl
  | cons c w ih =>
    obtain ⟨rfl, inner⟩ | ⟨rfl, outer, rfl, behind⟩ | ⟨opening, closing, others⟩ :=
      depthAfter_cons read
    · simp [outerMarks, ih inner]
    · simp [outerMarks, ih behind]
    · simp [outerMarks, opening, closing, ih others]

theorem not_mem_of_outerMarks {after : Nat} {w : Text} (read : depthAfter 0 w = some after)
    (none : outerMarks 0 w = 0) : '<' ∉ w ∧ '>' ∉ w ∧ ∀ c ∈ decorationMarks, c ∉ w := by
  induction w with
  | nil => simp
  | cons c w ih =>
    obtain ⟨rfl, -⟩ | ⟨-, _, absurd, -⟩ | ⟨opening, closing, others⟩ := depthAfter_cons read
    · simp [outerMarks] at none
    · cases absurd
    · simp only [outerMarks, opening, closing, if_false] at none
      obtain ⟨first, rest⟩ := Nat.add_eq_zero_iff.mp none
      have plain : c ∉ decorationMarks := by
        intro mark
        simp [mark] at first
      obtain ⟨noOpening, noClosing, marks⟩ := ih others rest
      refine ⟨?_, ?_, ?_⟩
      · simp [noOpening, Ne.symm opening]
      · simp [noClosing, Ne.symm closing]
      · intro d mark
        simp [marks d mark, ne_of_mem_of_not_mem mark plain]

def IsNeutral (w : Text) : Prop := ∀ c ∈ w, Text.isWord c ∨ Text.isBlank c ∨ c = ':'

theorem IsNeutral.not_mem {w : Text} (neutral : IsNeutral w) {c : Char}
    (outside : Text.isWord c = false ∧ Text.isBlank c = false ∧ c ≠ ':') : c ∉ w := by
  intro member
  obtain ⟨word, blank, colon⟩ := outside
  rcases neutral c member with isWord | isBlank | isColon
  · rw [word] at isWord
    cases isWord
  · rw [blank] at isBlank
    cases isBlank
  · exact colon isColon

theorem IsNeutral.unmarked {w : Text} (neutral : IsNeutral w) : ∀ c ∈ decorationMarks, c ∉ w := by
  have outside : ∀ c ∈ decorationMarks,
      Text.isWord c = false ∧ Text.isBlank c = false ∧ c ≠ ':' := by decide
  exact fun c mark => neutral.not_mem (outside c mark)

theorem IsNeutral.isFlat {w : Text} (neutral : IsNeutral w) : IsFlat w :=
  ⟨neutral.not_mem (by decide), neutral.not_mem (by decide), neutral.not_mem (by decide)⟩

theorem IsNeutral.append {u v : Text} (first : IsNeutral u) (second : IsNeutral v) :
    IsNeutral (u ++ v) :=
  List.forall_mem_append.mpr ⟨first, second⟩

theorem neutral_of_word {w : Text} (word : ∀ c ∈ w, Text.isWord c) : IsNeutral w :=
  fun c member => .inl (word c member)

theorem neutral_of_blank {w : Text} (blank : ∀ c ∈ w, Text.isBlank c) : IsNeutral w :=
  fun c member => .inr (.inl (blank c member))

theorem IsNeutral.outerMarks_eq {w : Text} (neutral : IsNeutral w) (depth : Nat) :
    outerMarks depth w = 0 := by
  induction w with
  | nil => rfl
  | cons c w ih =>
    have opening : c ≠ '<' := fun same => neutral.not_mem (c := c) (by rw [same]; decide) (.head _)
    have closing : c ≠ '>' := fun same => neutral.not_mem (c := c) (by rw [same]; decide) (.head _)
    have plain : c ∉ decorationMarks := fun mark => neutral.unmarked c mark (.head _)
    rw [outerMarks, if_neg opening, if_neg closing, ih fun d member => neutral d (.tail _ member)]
    simp [plain]

def Counts (n : Nat) (L : Language Char) : Prop := ∀ w ∈ L, IsLevel 0 w ∧ outerMarks 0 w = n

theorem counts_neutral {L : Language Char} (neutral : ∀ w ∈ L, IsNeutral w) : Counts 0 L :=
  fun w member => ⟨(neutral w member).isFlat.level 0, (neutral w member).outerMarks_eq 0⟩

theorem counts_one : Counts 0 1 := by
  apply counts_neutral
  intro w member
  cases member
  simp [IsNeutral]

theorem Counts.mul {m n : Nat} {L M : Language Char} (first : Counts m L) (second : Counts n M) :
    Counts (m + n) (L * M) := by
  intro w member
  obtain ⟨u, left, v, right, rfl⟩ := Language.mem_mul.mp member
  obtain ⟨level, count⟩ := first u left
  obtain ⟨level', count'⟩ := second v right
  refine ⟨level.append level', ?_⟩
  rw [outerMarks_append (level 0 (Nat.le_refl 0)), count, count']

theorem Counts.maybe {L : Language Char} (counts : Counts 0 L) : Counts 0 (maybe L) := by
  intro w member
  rcases member with none | some
  · exact counts_one w none
  · exact counts w some

theorem neutral_foreignScope : ∀ w ∈ foreignScope, IsNeutral w := by
  intro w member
  rcases mem_foreignScope member with rfl | ⟨u, rfl, word⟩
  · simp [IsNeutral]
  · exact (neutral_of_word word.2).append (by simp [IsNeutral])

theorem neutral_signSpelling (sign : Option Sign) : ∀ w ∈ signSpelling sign, IsNeutral w := by
  intro w member
  rcases mem_signSpelling member with rfl | ⟨s, g, -, rfl, -, blank⟩
  · simp [IsNeutral]
  · exact (neutral_of_word (isWordRun_sign s).2).append (neutral_of_blank blank)

theorem neutral_wordsSpelling {words : List Text} (all : ∀ w ∈ words, Text.IsWordRun w) :
    ∀ w ∈ wordsSpelling words, IsNeutral w :=
  fun w member c inside => (chars_wordsSpelling all w member c inside).imp_right .inl

section

variable {names : Text → List Text} (words : ∀ key, ∀ w ∈ names key, Text.IsWordRun w)
include words

theorem Arguments.outerMarks_documented : (arguments : Arguments) → arguments.Named →
    ∀ w ∈ arguments.documented freeSpace names, outerMarks 1 w = 0
  | .one t, named, w, member =>
    outerMarks_inside (t.levels words 0 named w member 0 (Nat.le_refl 0))
  | .cons t rest, named, w, member => by
    obtain ⟨u, first, _, behind, rfl⟩ := Language.mem_mul.mp member
    obtain ⟨_, rfl, _, others, rfl⟩ := Language.mem_mul.mp behind
    obtain ⟨g, blank, v, inner, rfl⟩ := Language.mem_mul.mp others
    have level := t.levels words 0 named.1 u first
    have space := neutral_of_blank blank
    rw [outerMarks_append (level 1 (Nat.zero_le 1)), outerMarks_inside (level 0 (Nat.le_refl 0)),
      outerMarks_append (level_comma 1 (Nat.le_refl 1)),
      outerMarks_append (space.isFlat.level 0 1 (Nat.zero_le 1)), space.outerMarks_eq,
      rest.outerMarks_documented named.2 v inner]
    rfl

theorem Segment.exists_counts (s : Segment) (named : s.Named) :
    ∃ n, Counts n (s.documented freeSpace names) ∧ (s.arguments? = none → n = 0) := by
  cases s with
  | plain run => exact ⟨0, counts_neutral (neutral_wordsSpelling named.1), fun _ => rfl⟩
  | template run arguments =>
    refine ⟨1, ?_, nofun⟩
    intro w member
    have level := (Segment.template run arguments).levels words 0 named w member
    refine ⟨level, ?_⟩
    obtain ⟨u, front, _, behind, rfl⟩ := Language.mem_mul.mp member
    obtain ⟨before, blank, _, bracket, rfl⟩ := Language.mem_mul.mp behind
    obtain ⟨_, rfl, _, within, rfl⟩ := Language.mem_mul.mp bracket
    obtain ⟨opened, space, _, list, rfl⟩ := Language.mem_mul.mp within
    obtain ⟨a, inner, _, tail, rfl⟩ := Language.mem_mul.mp list
    obtain ⟨closed, last, _, rfl, rfl⟩ := Language.mem_mul.mp tail
    have one := Nat.le_refl 1
    have outer := (neutral_wordsSpelling named.1.1 u front).append (neutral_of_blank blank)
    have deep := arguments.levels words 0 named.2 a inner 1 one
    have levelSpace {g : Text} (blank : g ∈ freeSpace) := levels_freeSpace 1 g blank 1 one
    have marks {g : Text} (blank : g ∈ freeSpace) := (neutral_of_blank blank).outerMarks_eq 1
    rw [← List.append_assoc, outerMarks_append (outer.isFlat.level 0 0 (Nat.le_refl 0)),
      outer.outerMarks_eq]
    have body : outerMarks 1 (opened ++ (a ++ (closed ++ ['>']))) = 0 := by
      rw [outerMarks_append (levelSpace space), marks space, outerMarks_append deep,
        arguments.outerMarks_documented words named.2 a inner, outerMarks_append (levelSpace last),
        marks last]
      rfl
    simp [outerMarks, body]

theorem Path.exists_counts_scopes (path : Path) (named : path.Named) :
    ∃ n, Counts n (path.scopesDocumented freeSpace names) ∧
      (path.hasTemplateScope = false → n = 0) := by
  cases path with
  | base s => exact ⟨0, counts_one, fun _ => rfl⟩
  | inside s path =>
    obtain ⟨m, first, plain⟩ := s.exists_counts words named.1
    obtain ⟨n, others, none⟩ := path.exists_counts_scopes named.2
    have colons : Counts 0 (exact [':', ':']) := by
      apply counts_neutral
      intro w same
      cases same
      simp [IsNeutral]
    refine ⟨m + (0 + n), first.mul (colons.mul others), fun free => ?_⟩
    obtain ⟨outer, inner⟩ : s.arguments?.isSome = false ∧ path.hasTemplateScope = false := by
      simpa [hasTemplateScope, scopes] using free
    rw [plain (by simpa using outer), none inner]

theorem Path.exists_counts_name (path : Path) (named : path.Named) (sign : Option Sign) :
    ∃ n, Counts n (path.ownName names sign) := by
  obtain ⟨m, outer, plain⟩ := path.exists_counts_scopes words named
  obtain ⟨n, inner, -⟩ := path.last.exists_counts words (path.named_last named)
  rw [← path.baseDocumented_eq] at inner
  have scopes : Counts m (path.scopesSpelling (path.scopesDocumented freeSpace names)) := by
    cases path with
    | base s =>
      obtain rfl := plain rfl
      exact counts_one
    | inside s path =>
      rw [scopesSpelling]
      split
      · exact outer
      · rename_i free
        obtain rfl := plain (by simpa using free)
        exact outer.maybe
  exact ⟨_, (counts_neutral neutral_foreignScope).mul
    ((counts_neutral (neutral_signSpelling sign)).mul (scopes.mul inner))⟩

end

theorem decoration_cases {form : Form} {w : Text} (member : w ∈ form.decorationSpelling) :
    w = [] ∨ ∃ c ∈ decorationMarks, c ∈ w := by
  unfold Form.decorationSpelling at member
  split at member
  · obtain ⟨a, -, _, rest, rfl⟩ := Language.mem_mul.mp member
    obtain ⟨_, rfl, b, -, rfl⟩ := Language.mem_mul.mp rest
    exact .inr ⟨'&', by decide, by simp⟩
  · split at member
    · obtain ⟨a, -, _, rest, rfl⟩ := Language.mem_mul.mp member
      obtain ⟨_, pointers, b, -, rfl⟩ := Language.mem_mul.mp rest
      obtain ⟨x, first, y, -, rfl⟩ := Language.mem_mul.mp pointers
      rcases first with star | brackets
      · cases star
        exact .inr ⟨'*', by decide, by simp⟩
      · cases brackets
        exact .inr ⟨']', by decide, by simp⟩
    · exact .inl member

end Apidoc.PrintedType
