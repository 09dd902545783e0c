import Apidoc.Proofs.PrintedType.Accepted
import Apidoc.Proofs.PrintedType.Verbatim
import Apidoc.Proofs.Text.Brackets

namespace Apidoc.PrintedType

open Pattern Text

/-- Whatever the pattern takes is enclosed behind so many open brackets. -/
def TakesEnclosed (opened : Nat) (p : Pattern) : Prop :=
  ∀ before w rest, p.Takes before w rest → IsEnclosed opened w

section

variable {opened : Nat} {p q : Pattern}

theorem takesEnclosed_of_isPlain (plain : p.IsPlain listMarks) (opened : Nat) :
    TakesEnclosed opened p :=
  fun _ _ _ taken => IsUnmarked.enclosed (fun _ mark => not_mem_of_takes plain taken mark) opened

theorem takesEnclosed_empty (opened : Nat) : TakesEnclosed opened .empty :=
  takesEnclosed_of_isPlain (p := .empty) trivial opened

theorem TakesEnclosed.seq (first : TakesEnclosed opened p) (second : TakesEnclosed opened q) :
    TakesEnclosed opened (.seq p q) := by
  intro before w rest taken
  obtain ⟨u, v, rfl, left, right⟩ := taken
  exact (first _ _ _ left).append (second _ _ _ right)

theorem TakesEnclosed.group (body : TakesEnclosed opened p) (times : Times) :
    TakesEnclosed opened (.group p times) :=
  fun _ _ _ taken => forall_of_group (takesEnclosed_empty opened none [] [] rfl)
    (fun _ _ first second => first.append second) body taken

theorem takesEnclosed_oneOf {ps : List Pattern} (choices : ∀ p ∈ ps, TakesEnclosed opened p) :
    TakesEnclosed opened (oneOf ps) := by
  cases ps with
  | nil => exact takesEnclosed_empty opened
  | cons p ps =>
    intro before w rest taken
    obtain ⟨q, member, taken⟩ := (takes_oneOf (List.cons_ne_nil p ps)).mp taken
    exact choices q member _ _ _ taken

theorem takesEnclosed_anySpelling {choices : List Pattern}
    (enclosed : ∀ p ∈ choices, TakesEnclosed opened p) :
    TakesEnclosed opened (anySpelling choices) := by
  have const : TakesEnclosed opened optionalConst := takesEnclosed_of_isPlain (by decide) opened
  refine const.seq (TakesEnclosed.group (takesEnclosed_oneOf ?_) .one)
  intro p member
  obtain ⟨q, choice, rfl⟩ := List.mem_map.mp member
  exact (enclosed q choice).group .one

theorem unmarked_of_word {w : Text} (word : ∀ c ∈ w, isWord c) : IsUnmarked w :=
  isUnmarked_of_forall word (by decide)

theorem unmarked_of_blank {w : Text} (blank : ∀ c ∈ w, isBlank c) : IsUnmarked w :=
  isUnmarked_of_forall blank (by decide)

theorem takesEnclosed_wordsPattern {words : List Text} (all : ∀ w ∈ words, IsWordRun w)
    (opened : Nat) : TakesEnclosed opened (wordsPattern words) := by
  have between : someSpaces.IsPlain listMarks := by decide
  refine takesEnclosed_of_isPlain (isPlain_separated between ?_) opened
  intro p member
  obtain ⟨w, inside, rfl⟩ := List.mem_map.mp member
  exact unmarked_of_word (all w inside).2

theorem takesEnclosed_namePattern {scopes base : Pattern} (sign : Option Sign)
    (outer : TakesEnclosed opened scopes) (inner : TakesEnclosed opened base) :
    TakesEnclosed opened (namePattern sign scopes base) := by
  have scope : anyScope.IsPlain listMarks := by decide
  have signed : (signPattern sign).IsPlain listMarks := by
    rcases sign with _ | _ | _ <;> decide
  exact (takesEnclosed_of_isPlain scope opened).seq
    ((takesEnclosed_of_isPlain signed opened).seq (outer.seq inner))

theorem takesEnclosed_scopesPattern (path : Path) {scopes : Pattern}
    (outer : TakesEnclosed opened scopes) : TakesEnclosed opened (path.scopesPattern scopes) := by
  cases path with
  | base s => exact takesEnclosed_empty opened
  | inside s path =>
    rw [Path.scopesPattern]
    split
    · exact outer
    · exact outer.group .optional

theorem takesEnclosed_legacyPatterns (opened : Nat) (form : Form) :
    ∀ p ∈ form.legacyPatterns, TakesEnclosed opened p := by
  intro p member
  obtain ⟨legacy, listed, rfl⟩ := form.mem_legacyPatterns member
  have word : (Pattern.quoted legacy.word).IsPlain listMarks :=
    unmarked_of_word (legacyNames_words legacy listed).2
  exact takesEnclosed_namePattern _ (takesEnclosed_empty opened)
    (takesEnclosed_of_isPlain word opened)

theorem takesEnclosed_decoration (opened : Nat) (form : Form) :
    TakesEnclosed opened form.decoration := by
  apply takesEnclosed_of_isPlain
  unfold Form.decoration
  split
  · decide
  · split
    · decide
    · exact trivial

theorem takesEnclosed_looseDecoration (opened : Nat) : TakesEnclosed opened looseDecoration :=
  takesEnclosed_of_isPlain (by decide) opened

end

/-- More choices that take enclosed texts. -/
def EnclosedExtra (extra : Extra) : Prop :=
  ∀ key, ∀ p ∈ extra key, ∀ opened, TakesEnclosed opened p

section

variable {extra : Extra}

mutual

theorem Tree.takesEnclosed (added : EnclosedExtra extra) (opened : Nat) :
    (t : Tree) → t.Named → TakesEnclosed opened (t.pattern extra)
  | .mk form path, named => by
    have own := takesEnclosed_namePattern form.sign
      (takesEnclosed_scopesPattern path (path.takesEnclosed_allScopes added opened named))
      (path.takesEnclosed_lastPattern added opened named)
    refine (takesEnclosed_anySpelling ?_).seq (takesEnclosed_decoration opened form)
    intro p member
    rcases List.mem_append.mp member with listed | legacy
    · rcases List.mem_cons.mp listed with rfl | other
      · exact own
      · exact added form.spelling p other opened
    · exact takesEnclosed_legacyPatterns opened form p legacy

theorem Path.takesEnclosed_allScopes (added : EnclosedExtra extra) (opened : Nat) :
    (path : Path) → path.Named → TakesEnclosed opened (path.allScopes extra)
  | .base _, _ => takesEnclosed_empty opened
  | .inside s path, ⟨first, others⟩ =>
    have colons : TakesEnclosed opened (.fixed "::".toList) :=
      takesEnclosed_of_isPlain (by decide) opened
    (s.takesEnclosed added opened first).seq (colons.seq (path.takesEnclosed_allScopes added opened others))

theorem Path.takesEnclosed_lastPattern (added : EnclosedExtra extra) (opened : Nat) :
    (path : Path) → path.Named → TakesEnclosed opened (path.lastPattern extra)
  | .base s, named => s.takesEnclosed added opened named
  | .inside _ path, named => path.takesEnclosed_lastPattern added opened named.2

theorem Segment.takesEnclosed (added : EnclosedExtra extra) (opened : Nat) :
    (s : Segment) → s.Named → TakesEnclosed opened (s.pattern extra)
  | .plain words, named => takesEnclosed_wordsPattern named.1 opened
  | .template words arguments, ⟨name, named⟩ => by
    intro before w rest taken
    obtain ⟨u, _, rfl, front, gap, _, rfl, blank, _, _, rfl, rfl, space, _, rfl, blank', inner, _,
      rfl, listed, last, _, rfl, blank'', rfl⟩ := taken
    have free {s : Text} (blank : ∀ c ∈ s, isBlank c) (opened : Nat) : IsEnclosed opened s :=
      (unmarked_of_blank blank).enclosed opened
    have body := ((free (takes_chars_star.mp blank') (opened + 1)).append
      (arguments.takesEnclosed added opened named _ _ _ listed)).append
        (free (takes_chars_star.mp blank'') (opened + 1))
    have whole := ((takesEnclosed_wordsPattern name.1 opened _ _ _ front).append
      (free (takes_chars_star.mp blank) opened)).append body.bracketed
    simpa using whole

theorem Arguments.takesEnclosed (added : EnclosedExtra extra) (opened : Nat) :
    (arguments : Arguments) → arguments.Named →
      TakesEnclosed (opened + 1) (arguments.pattern extra)
  | .one t, named => t.takesEnclosed added (opened + 1) named
  | .cons t rest, ⟨first, others⟩ => by
    have comma : TakesEnclosed (opened + 1) (.fixed [',']) := by
      intro _ _ _ taken
      cases taken
      exact isEnclosed_comma opened
    have free : TakesEnclosed (opened + 1) spaces := takesEnclosed_of_isPlain (by decide) _
    exact (t.takesEnclosed added (opened + 1) first).seq
      (comma.seq (free.seq (rest.takesEnclosed added opened others)))

end

theorem Tree.takesEnclosed_bareName (added : EnclosedExtra extra) (opened : Nat) {t : Tree} (named : t.Named) :
    TakesEnclosed opened (t.bareName extra) := by
  cases t with
  | mk form path =>
    exact takesEnclosed_namePattern form.sign
      (takesEnclosed_scopesPattern path (path.takesEnclosed_allScopes added opened named))
      (path.takesEnclosed_lastPattern added opened named)

end

theorem depth_of_looseChar {d : Char} {before : Option Char} {w rest : Text}
    (taken : (looseChar d).Takes before w rest) :
    bracketDepth w = bracketWeight d ∧ ∀ u v, w = u ++ ',' :: v → d = ',' ∧ bracketDepth u = 0 := by
  obtain ⟨s, m, t, rfl, blank, blank', mark⟩ := takes_looseChar taken
  have front := unmarked_of_blank blank
  have back := unmarked_of_blank blank'
  have inert (unmarked : IsUnmarked m) (weight : bracketWeight d = 0) :
      bracketDepth (s ++ (m ++ t)) = bracketWeight d ∧
        ∀ u v, s ++ (m ++ t) = u ++ ',' :: v → d = ',' ∧ bracketDepth u = 0 := by
    have whole := front.append (unmarked.append back)
    refine ⟨by rw [whole.bracketDepth, weight], ?_⟩
    intro u v eq
    exact absurd (by simp [eq]) (whole ',' (by decide))
  split at mark
  · rename_i space
    have other : d ∉ listMarks := by
      intro inside
      have solid : ∀ c ∈ listMarks, isBlank c = false := by decide
      rw [solid d inside] at space
      cases space
    rw [mark] at inert ⊢
    exact inert (fun _ _ => List.not_mem_nil) (bracketWeight_of_not_mem other)
  · rcases mark with rfl | ⟨rfl, rfl⟩
    · refine ⟨by simp [front.bracketDepth, back.bracketDepth], ?_⟩
      intro u v eq
      have first : ',' ∉ s := front ',' (by decide)
      have last : ',' ∉ t := back ',' (by decide)
      rcases List.append_eq_append_iff.mp eq with ⟨z, rfl, tail⟩ | ⟨z, rfl, tail⟩
      · cases z with
        | nil => exact ⟨(List.cons.inj tail).1, by rw [List.append_nil, front.bracketDepth]⟩
        | cons c z =>
          obtain rfl : t = z ++ ',' :: v := (List.cons.inj tail).2
          exact absurd (by simp) last
      · cases z with
        | nil =>
          rw [List.append_nil] at front
          exact ⟨(List.cons.inj tail).1.symm, front.bracketDepth⟩
        | cons c z =>
          obtain ⟨rfl, -⟩ := List.cons.inj tail
          exact absurd (by simp) first
    · exact inert (by unfold IsUnmarked; decide) rfl

theorem depth_of_loosePattern {raw : Text} {before : Option Char} {w rest : Text}
    (taken : (loosePattern raw).Takes before w rest) :
    bracketDepth w = bracketDepth raw ∧ ∀ u v, w = u ++ ',' :: v →
      ∃ x y, raw = x ++ ',' :: y ∧ bracketDepth u = bracketDepth x := by
  induction raw generalizing before w with
  | nil =>
    cases taken
    exact ⟨rfl, fun u v eq => by simp at eq⟩
  | cons d raw ih =>
    obtain ⟨a, b, rfl, first, others⟩ := takes_all_cons.mp taken
    obtain ⟨weight, own⟩ := depth_of_looseChar first
    obtain ⟨depth, commas⟩ := ih others
    refine ⟨by rw [bracketDepth_append, bracketDepth_cons, weight, depth], ?_⟩
    intro u v eq
    rcases List.append_eq_append_iff.mp eq with ⟨z, rfl, tail⟩ | ⟨z, rfl, tail⟩
    · obtain ⟨x, y, rfl, same⟩ := commas z v tail
      exact ⟨d :: x, y, rfl, by rw [bracketDepth_append, bracketDepth_cons, weight, same]⟩
    · cases z with
      | nil =>
        obtain ⟨x, y, rfl, same⟩ := commas [] v tail.symm
        rw [List.append_nil] at weight
        exact ⟨d :: x, y, rfl, by rw [bracketDepth_cons, ← same, weight, bracketDepth_nil,
          Int.add_zero]⟩
      | cons c z =>
        obtain ⟨rfl, -⟩ := List.cons.inj tail
        obtain ⟨rfl, level⟩ := own u z rfl
        exact ⟨[], raw, rfl, level⟩

theorem takesEnclosed_loosePattern {opened : Nat} {raw : Text} (enclosed : IsEnclosed opened raw) :
    TakesEnclosed opened (loosePattern raw) := by
  intro before w rest taken
  obtain ⟨depth, commas⟩ := depth_of_loosePattern taken
  refine ⟨depth.trans enclosed.closed, ?_⟩
  intro u v eq
  obtain ⟨x, y, parts, same⟩ := commas u v eq
  rw [same]
  exact enclosed.inside x y parts

theorem bracketDepth_of_depthAfter {s : Text} (opening : '(' ∉ s) (closing : ')' ∉ s) {depth n : Nat}
    (read : depthAfter depth s = some n) : bracketDepth s = n - depth := by
  induction s generalizing depth with
  | nil =>
    cases read
    simp
  | cons c s ih =>
    have left : c ≠ '(' := (List.ne_of_not_mem_cons opening).symm
    have right : c ≠ ')' := (List.ne_of_not_mem_cons closing).symm
    have others {k : Nat} := @ih (List.not_mem_of_not_mem_cons opening)
      (List.not_mem_of_not_mem_cons closing) k
    rw [depthAfter.eq_def] at read
    rw [bracketDepth_cons, bracketWeight]
    simp only at read
    split at read
    · rename_i opens
      rw [if_pos (.inl opens), others read]
      omega
    · rename_i same
      split at read
      · rename_i closes
        rw [if_neg (by simp [same, left]), if_pos (.inl closes)]
        cases depth with
        | zero => cases read
        | succ depth =>
          rw [others read]
          omega
      · rename_i same'
        rw [if_neg (by simp [same, left]), if_neg (by simp [same', right])]
        split at read
        · cases read
        · rw [others read]
          omega

theorem enclosed_of_parse {s : Text} {tree : Tree} (parsed : parse s = .ok tree) :
    IsEnclosed 0 s := by
  have opening : '(' ∉ s := not_mem_of_parse parsed (by decide)
  have closing : ')' ∉ s := not_mem_of_parse parsed (by decide)
  have level := level_of_parse parsed 0 0 (Nat.le_refl 0)
  refine ⟨bracketDepth_of_depthAfter opening closing level, ?_⟩
  rintro u v rfl
  rw [depthAfter_append] at level
  obtain ⟨n, front, behind⟩ := Option.bind_eq_some_iff.mp level
  have depth := bracketDepth_of_depthAfter (fun member => opening (List.mem_append_left _ member))
    (fun member => closing (List.mem_append_left _ member)) front
  cases n with
  | zero => cases behind
  | succ n =>
    rw [depth]
    omega

/-- A type is one of the grammar, or it closes its brackets and has its commas inside of them. -/
def Encloses (type : Text) : Prop :=
  ∀ const raw, read type = .verbatim const raw → IsEnclosed 0 raw

theorem encloses_of_parse {type : Text} {tree : Tree} (parsed : parse type = .ok tree) :
    Encloses type := by
  intro const raw reading
  rw [read, parsed] at reading
  cases reading

section

variable {table : AliasTable} (names : ∀ type, ∀ name ∈ table.names type, Encloses name)
include names

theorem enclosedExtra : EnclosedExtra table.extra := by
  intro key p member opened
  obtain ⟨name, listed, rfl⟩ := List.mem_map.mp member
  cases reading : read name with
  | tree t =>
    have added : EnclosedExtra fun _ => [] := fun _ _ none => nomatch none
    exact Tree.takesEnclosed_bareName added opened (named_of_read reading)
  | verbatim const raw =>
    have scope : anyScope.IsPlain listMarks := by decide
    have enclosed := (names key name listed const raw reading).mono (Nat.zero_le opened)
    exact (takesEnclosed_of_isPlain scope opened).seq (takesEnclosed_loosePattern enclosed)

theorem takesEnclosed_pattern {type : Text} (encloses : Encloses type) (complete : Bool) :
    TakesEnclosed 0 (pattern type table complete) := by
  have added := enclosedExtra names
  rw [pattern]
  cases reading : read type with
  | tree t =>
    have own := Tree.takesEnclosed_bareName added 0 (named_of_read reading)
    refine TakesEnclosed.seq (takesEnclosed_anySpelling ?_) ?_
    · intro p member
      rcases List.mem_append.mp member with listed | legacy
      · rcases List.mem_cons.mp listed with rfl | other
        · exact own
        · exact added _ p other 0
      · exact takesEnclosed_legacyPatterns 0 t.form p legacy
    · split
      · exact takesEnclosed_decoration 0 t.form
      · exact takesEnclosed_looseDecoration 0
  | verbatim const raw =>
    have scope : anyScope.IsPlain listMarks := by decide
    have own := (takesEnclosed_of_isPlain scope 0).seq
      (takesEnclosed_loosePattern (encloses const raw reading))
    apply takesEnclosed_anySpelling
    intro p member
    rcases List.mem_cons.mp member with rfl | other
    · exact own
    · exact added _ p other 0

end

end Apidoc.PrintedType
