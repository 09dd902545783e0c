import Apidoc.Proofs.Page.TypeEnding
import Apidoc.Proofs.PrintedType.OwnSpelling

/-!
Names with a break. What stands in front of white space in a spelling of a name is no spelling of the
same name, unless one of its scopes has several words.
-/
namespace Apidoc.Page

open Computability PrintedType

theorem past_solid {f y w x : Text} {c : Char} (solid : ∀ d ∈ f, Text.isBlank d = false)
    (blank : Text.isBlank c) (same : f ++ y = w ++ c :: x) :
    ∃ v, w = f ++ v ∧ y = v ++ c :: x := by
  rcases List.append_eq_append_iff.mp same with ⟨v, rfl, rest⟩ | ⟨v, rfl, rest⟩
  · exact ⟨v, rfl, rest⟩
  · cases v with
    | nil => exact ⟨[], by simp, rest.symm⟩
    | cons d v =>
      obtain ⟨rfl, -⟩ := List.cons.inj rest
      have other := solid c (by simp)
      rw [blank] at other
      cases other

theorem solid_of_word {w : Text} (word : ∀ c ∈ w, Text.isWord c) :
    ∀ c ∈ w, Text.isBlank c = false :=
  fun c member => Text.isBlank_of_isWord (word c member)

theorem solid_foreignScope {f : Text} (member : f ∈ foreignScope) :
    ∀ c ∈ f, Text.isBlank c = false := by
  rcases mem_foreignScope member with rfl | ⟨w, rfl, word⟩
  · simp
  · exact List.forall_mem_append.mpr ⟨solid_of_word word.2, by decide⟩

def EndsSolid (w : Text) : Prop := ∀ front c, w = front ++ [c] → Text.isBlank c = false

theorem endsSolid_append {c : Char} (solid : Text.isBlank c = false) (u : Text) :
    EndsSolid (u ++ [c]) := by
  intro front d same
  rwa [← (List.cons.inj (List.append_inj' same rfl).2).1]

theorem EndsSolid.right {u v : Text} (ends : EndsSolid (u ++ v)) : EndsSolid v :=
  fun front c same => ends (u ++ front) c (by simp [same])

theorem EndsSolid.eq_nil {w : Text} (ends : EndsSolid w) (blank : ∀ c ∈ w, Text.isBlank c) :
    w = [] := by
  by_contra some
  obtain ⟨front, c, rfl⟩ := (List.eq_nil_or_concat' w).resolve_left some
  have solid := ends front c rfl
  rw [blank c (by simp)] at solid
  cases solid

theorem past_sign {k g y w x : Text} {c : Char} (word : ∀ d ∈ k, Text.isWord d)
    (space : ∀ d ∈ g, Text.isBlank d) (ends : EndsSolid w) (blank : Text.isBlank c)
    (same : k ++ g ++ y = w ++ c :: x) : w = k ∨ ∃ v, w = k ++ g ++ v ∧ y = v ++ c :: x := by
  rw [List.append_assoc] at same
  obtain ⟨v, rfl, rest⟩ := past_solid (solid_of_word word) blank same
  rcases List.append_eq_append_iff.mp rest with ⟨r, rfl, more⟩ | ⟨r, rfl, -⟩
  · exact .inr ⟨r, by simp, more⟩
  · have none := ends.right.eq_nil fun d member => space d (List.mem_append_left r member)
    rw [none, List.append_nil]
    exact .inl rfl

theorem eq_of_signed {f g v u x : Text} {c : Char} {sign : Sign} (foreign : f ∈ foreignScope)
    (space : ∀ d ∈ g, Text.isBlank d) (word : Text.IsWordRun v) (ends : EndsSolid u)
    (blank : Text.isBlank c) (same : f ++ (sign.text ++ g ++ v) = u ++ c :: x) :
    u = f ++ sign.text := by
  obtain ⟨r, rfl, rest⟩ := past_solid (solid_foreignScope foreign) blank same
  rcases past_sign (isWordRun_sign sign).2 space ends.right blank rest with rfl | ⟨y, -, behind⟩
  · rfl
  · have inner := solid_of_word word.2 c (by simp [behind])
    rw [blank] at inner
    cases inner

section

variable {names : Text → List Text}

theorem exists_closing {run : List Text} {arguments : Arguments} {w : Text}
    (member : w ∈ (Segment.template run arguments).documented freeSpace names) :
    ∃ front, w = front ++ ['>'] := by
  obtain ⟨a, -, _, behind, rfl⟩ := Language.mem_mul.mp member
  obtain ⟨b, -, _, bracket, rfl⟩ := Language.mem_mul.mp behind
  obtain ⟨d, -, _, within, rfl⟩ := Language.mem_mul.mp bracket
  obtain ⟨e, -, _, list, rfl⟩ := Language.mem_mul.mp within
  obtain ⟨f, -, _, tail, rfl⟩ := Language.mem_mul.mp list
  obtain ⟨g, -, _, rfl, rfl⟩ := Language.mem_mul.mp tail
  exact ⟨a ++ (b ++ (d ++ (e ++ (f ++ g)))), by simp⟩

/-- No scope without template arguments has several words. -/
def HasPlainScopes (path : Path) : Prop :=
  ∀ s ∈ path.scopes, s.arguments? = none → s.words.length = 1

theorem closing_mem_of_scopes : (path : Path) → path.Named → HasPlainScopes path →
    ∀ {p w x : Text} {c : Char}, p ∈ path.scopesDocumented freeSpace names → Text.isBlank c →
      p = w ++ c :: x → '>' ∈ x
  | .base _, _, _, p, w, x, c, member, _, same => by
    cases member
    simp at same
  | .inside s path, named, single, p, w, x, c, member, blank, same => by
    obtain ⟨first, others⟩ := List.forall_mem_cons.mp single
    obtain ⟨u, scope, _, rest, rfl⟩ := Language.mem_mul.mp member
    obtain ⟨_, rfl, v, inner, rfl⟩ := Language.mem_mul.mp rest
    have further {y : Text} (here : v = y ++ c :: x) : '>' ∈ x :=
      closing_mem_of_scopes path named.2 others inner blank here
    have colons : ∀ d ∈ [':', ':'], Text.isBlank d = false := by decide
    cases s with
    | plain words =>
      obtain ⟨word, rfl⟩ := List.length_eq_one_iff.mp (first rfl)
      cases scope
      have solid := solid_of_word (named.1.1 _ (.head _)).2
      obtain ⟨y, -, tail⟩ := past_solid solid blank same
      obtain ⟨y, -, here⟩ := past_solid colons blank tail
      exact further here
    | template words arguments =>
      obtain ⟨front, rfl⟩ := exists_closing scope
      rw [List.append_assoc] at same
      rcases List.append_eq_append_iff.mp same with ⟨y, rfl, tail⟩ | ⟨y, rfl, tail⟩
      · have bracket : ∀ d ∈ ['>'], Text.isBlank d = false := by decide
        obtain ⟨y, -, tail⟩ := past_solid bracket blank tail
        obtain ⟨y, -, here⟩ := past_solid colons blank tail
        exact further here
      · cases y with
        | nil =>
          obtain ⟨rfl, -⟩ := List.cons.inj tail
          exact absurd blank (by decide)
        | cons d y =>
          obtain ⟨-, rfl⟩ := List.cons.inj tail
          simp

theorem countP_blank {g : Text} (blank : ∀ c ∈ g, Text.isBlank c) : g.countP Text.isWord = 0 :=
  List.countP_eq_zero.mpr fun c member => by simp [Text.isWord_of_isBlank (blank c member)]

theorem countP_wordsSpelling {words : List Text} {b b' : Text} (member : b ∈ wordsSpelling words)
    (member' : b' ∈ wordsSpelling words) : b.countP Text.isWord = b'.countP Text.isWord := by
  induction words generalizing b b' with
  | nil =>
    cases member
    cases member'
    rfl
  | cons w words ih =>
    cases words with
    | nil =>
      cases member
      cases member'
      rfl
    | cons v words =>
      obtain ⟨_, rfl, _, rest, rfl⟩ := Language.mem_mul.mp member
      obtain ⟨g, space, u, inner, rfl⟩ := Language.mem_mul.mp rest
      obtain ⟨_, rfl, _, rest', rfl⟩ := Language.mem_mul.mp member'
      obtain ⟨g', space', u', inner', rfl⟩ := Language.mem_mul.mp rest'
      simp only [List.countP_append, countP_blank space.2, countP_blank space'.2, ih inner inner']

theorem past_scopes {path : Path} (named : path.Named) (single : HasPlainScopes path)
    {p y w x : Text} {c : Char}
    (scopes : p ∈ path.scopesSpelling (path.scopesDocumented freeSpace names))
    (blank : Text.isBlank c) (free : '>' ∉ x) (same : p ++ y = w ++ c :: x) :
    ∃ v, w = p ++ v ∧ y = v ++ c :: x := by
  rcases List.append_eq_append_iff.mp same with ⟨v, rfl, rest⟩ | ⟨v, rfl, rest⟩
  · exact ⟨v, rfl, rest⟩
  · cases v with
    | nil => exact ⟨[], by simp, rest.symm⟩
    | cons d v =>
      obtain ⟨rfl, rfl⟩ := List.cons.inj rest
      have inside : w ++ c :: v ∈ path.scopesDocumented freeSpace names :=
        (Path.mem_scopesSpelling scopes).resolve_left (by simp)
      have closing := closing_mem_of_scopes path named single inside blank rfl
      exact absurd (List.mem_append_left y closing) free

theorem IsScope.eq_colon {u : Text} {c : Char} (scope : IsScope (u ++ [c])) : c = ':' := by
  rcases scope with none | ⟨front, same⟩
  · simp at none
  · exact (List.cons.inj (List.append_inj' same rfl).2).1

theorem front_absurd {scopes : Language Char} (outer : ∀ p ∈ scopes, IsScope p)
    {sign : Option Sign} {words : List Text} (name : IsNameText words)
    {f s p f' s' p' q r : Text} (foreign : f ∈ foreignScope) (signed : s ∈ signSpelling sign)
    (scope : p ∈ scopes) (signed' : s' ∈ signSpelling sign)
    (follows : s ≠ [] → f' = f ∧ s' ≠ []) (base : q ++ r ∈ wordsSpelling words)
    (same : f ++ (s ++ p) = f' ++ (s' ++ (p' ++ q))) : q = [] := by
  by_contra some
  have colon : ':' ∉ q := by
    intro member
    have chars := chars_wordsSpelling name.1 _ base ':' (List.mem_append_left r member)
    revert chars
    decide
  -- no scope ends where the part does
  have apart {u v : Text} (nested : IsScope v) : v ≠ u ++ q := by
    obtain ⟨front, d, rfl⟩ := (List.eq_nil_or_concat' q).resolve_left some
    intro same
    rw [same, ← List.append_assoc] at nested
    exact colon (by simp [nested.eq_colon])
  have leading := isScope_of_foreignScope foreign
  by_cases unsigned : s = []
  · subst unsigned
    exact apart (leading.append (outer p scope)) (u := f' ++ (s' ++ p')) (by simpa using same)
  · obtain ⟨rfl, some'⟩ := follows unsigned
    have rest := List.append_cancel_left same
    rcases outer p scope with rfl | ⟨front, rfl⟩
    · obtain ⟨sign, g, rfl, rfl, -, space⟩ := (mem_signSpelling signed).resolve_left unsigned
      obtain ⟨_, g', ⟨⟩, rfl, -⟩ := (mem_signSpelling signed').resolve_left some'
      rw [List.append_nil, List.append_assoc] at rest
      have inside := List.append_cancel_left rest
      obtain ⟨d, q, rfl⟩ := List.exists_cons_of_ne_nil some
      have word : Text.isWord d := by simpa using startsWithWord_wordsSpelling name _ base
      have other := Text.isWord_of_isBlank (space d (by simp [inside]))
      rw [word] at other
      cases other
    · apply apart (.inr ⟨s ++ front, rfl⟩) (u := s' ++ p')
      simpa using rest

theorem endsSolid_base {s : Segment} (named : s.Named) {b : Text}
    (base : b ∈ s.documented freeSpace names) (u : Text) : EndsSolid (u ++ b) := by
  cases s with
  | plain words =>
    obtain ⟨front, w, rfl, -, word, -⟩ := IsNameText.ends named base
    obtain ⟨w, c, rfl⟩ := (List.eq_nil_or_concat' w).resolve_left word.1
    rw [← List.append_assoc, ← List.append_assoc]
    exact endsSolid_append (Text.isBlank_of_isWord (word.2 c (by simp))) _
  | template words arguments =>
    obtain ⟨front, rfl⟩ := exists_closing base
    rw [← List.append_assoc]
    exact endsSolid_append (by decide) _

theorem countP_lt {s : Segment} (named : s.Named) {b b' r x : Text} {c : Char}
    (base : b ∈ s.documented freeSpace names) (base' : b' ∈ s.documented freeSpace names)
    (blank : Text.isBlank c) (free : '>' ∉ x) (same : b = r ++ c :: x) :
    ∃ words, s = .plain words ∧ r.countP Text.isWord < b'.countP Text.isWord := by
  cases s with
  | plain words =>
    refine ⟨words, rfl, ?_⟩
    rw [← countP_wordsSpelling base base', same, List.countP_append]
    apply Nat.lt_add_of_pos_right
    rw [List.countP_pos_iff]
    by_contra none
    obtain ⟨front, w, text, -, word, -⟩ := IsNameText.ends named base
    have outside : EndsOutside (c :: x) := by
      apply endsOutside_of_forall
      intro d member
      exact eq_false_of_ne_true fun isWord => none ⟨d, member, isWord⟩
    exact absurd (outside.eq_nil_of_append word (text.symm.trans same)) (List.cons_ne_nil c x)
  | template words arguments =>
    obtain ⟨front, rfl⟩ := exists_closing base
    rcases List.eq_nil_or_concat' x with rfl | ⟨y, d, rfl⟩
    · obtain ⟨-, last⟩ := List.append_inj' same rfl
      cases last
      exact absurd blank (by decide)
    · rw [← List.cons_append, ← List.append_assoc] at same
      obtain ⟨-, last⟩ := List.append_inj' same rfl
      cases last
      exact absurd (by simp) free

/-- No spelling of a name has another in front of white space that no bracket closes behind, unless
the other drops the sign or the scope in front of it. -/
theorem ownName_unbroken {path : Path} (named : path.Named) (single : HasPlainScopes path)
    {sign : Option Sign} {f s p b f' s' p' b' x : Text} {c : Char}
    (foreign : f ∈ foreignScope) (signed : s ∈ signSpelling sign)
    (scope : p ∈ path.scopesSpelling (path.scopesDocumented freeSpace names))
    (base : b ∈ path.baseDocumented freeSpace names)
    (signed' : s' ∈ signSpelling sign) (base' : b' ∈ path.baseDocumented freeSpace names)
    (follows : s ≠ [] → f' = f ∧ s' ≠ []) (blank : Text.isBlank c) (free : '>' ∉ x) :
    f ++ (s ++ (p ++ b)) ≠ f' ++ (s' ++ (p' ++ b')) ++ c :: x := by
  intro same
  have last := path.named_last named
  rw [path.baseDocumented_eq] at base base'
  have ends : EndsSolid (f' ++ (s' ++ (p' ++ b'))) := by
    simpa using endsSolid_base last base' (f' ++ (s' ++ p'))
  obtain ⟨v, whole, behind⟩ := past_solid (solid_foreignScope foreign) blank same
  rw [whole] at ends
  -- the white space stands behind the sign
  obtain ⟨v, rfl, further⟩ : ∃ u, v = s ++ u ∧ p ++ b = u ++ c :: x := by
    by_cases unsigned : s = []
    · subst unsigned
      exact ⟨v, rfl, behind⟩
    · obtain ⟨sign, g, rfl, rfl, -, space⟩ := (mem_signSpelling signed).resolve_left unsigned
      rcases past_sign (isWordRun_sign sign).2 space ends.right blank behind with rfl | further
      · obtain ⟨rfl, some⟩ := follows unsigned
        obtain ⟨_, g', ⟨⟩, rfl, nonempty, -⟩ := (mem_signSpelling signed').resolve_left some
        have rest := List.append_cancel_left whole
        simp [nonempty] at rest
      · exact further
  -- and behind the scopes, in the base
  obtain ⟨r, rfl, inner⟩ := past_scopes named single scope blank free further
  obtain ⟨words, plain, fewer⟩ := countP_lt last base base' blank free inner
  rw [plain] at base' last
  have split : (f ++ (s ++ p)) ++ r = (f' ++ (s' ++ p')) ++ b' := by simpa using whole.symm
  rcases List.append_eq_append_iff.mp split with ⟨q, -, rfl⟩ | ⟨q, front, rfl⟩
  · rw [List.countP_append] at fewer
    omega
  · have none := front_absurd (isScope_scopesSpelling freeSpace names path) last foreign signed
      scope signed' follows base' (by simpa using front)
    rw [none, List.nil_append] at fewer
    omega

end

end Apidoc.Page
