import Apidoc.Proofs.PrintedType.Words

namespace Apidoc.PrintedType

open Computability

def Wordless (w : Text) : Prop :=
  ∀ c, (w.dropWhile Text.isBlank).head? = some c → Text.isWord c = false

theorem wordless_nil : Wordless [] := fun _ none => nomatch none

theorem wordless_cons {c : Char} (solid : Text.isBlank c = false) (outside : Text.isWord c = false)
    (w : Text) : Wordless (c :: w) := by
  intro d head
  rw [List.dropWhile_cons_of_neg (by simp [solid])] at head
  cases head
  exact outside

theorem Wordless.prepend {g w : Text} (blank : ∀ c ∈ g, Text.isBlank c) (wordless : Wordless w) :
    Wordless (g ++ w) := by
  rw [Wordless, List.dropWhile_append_of_pos blank]
  exact wordless

theorem Wordless.right {g w : Text} (blank : ∀ c ∈ g, Text.isBlank c)
    (wordless : Wordless (g ++ w)) : ∀ c, w.head? = some c → Text.isWord c = false := by
  rw [Wordless, List.dropWhile_append_of_pos blank] at wordless
  intro c head
  obtain ⟨w, rfl⟩ := List.head?_eq_some_iff.mp head
  by_contra word
  have word := eq_true_of_ne_false word
  have solid := Text.isBlank_of_isWord word
  have outside := wordless c (by simp [solid])
  rw [word] at outside
  cases outside

theorem Wordless.head {w : Text} (wordless : Wordless w) :
    ∀ c, w.head? = some c → Text.isWord c = false :=
  Wordless.right (g := []) (fun _ none => nomatch none) wordless

theorem head_of_blank {g : Text} (space : g ∈ gap) (w : Text) :
    ∀ c, (g ++ w).head? = some c → Text.isWord c = false := by
  intro c head
  obtain ⟨d, g, rfl⟩ := List.exists_cons_of_ne_nil space.1
  cases head
  exact Text.isWord_of_isBlank (space.2 _ (.head g))

/-- The text has no `const` in front of another word. -/
def Unqualified (w : Text) : Prop :=
  ∀ g ∈ gap, ∀ x, w = constWord ++ (g ++ x) → ∀ c, x.head? = some c → Text.isWord c = false

theorem unqualified_of_word {w rest : Text} (word : Text.IsWordRun w)
    (ends : ∀ c, rest.head? = some c → Text.isWord c = false)
    (alone : w = constWord → Wordless rest) : Unqualified (w ++ rest) := by
  intro g space x same
  obtain ⟨const, behind⟩ := Text.span_unique word.2 isWordRun_constWord.2 ends
    (head_of_blank space x) same
  have wordless := alone const
  rw [behind] at wordless
  exact wordless.right space.2

theorem unqualified_scoped {f w : Text} (foreign : f ∈ foreignScope) (free : Unqualified w) :
    Unqualified (f ++ w) := by
  rcases mem_foreignScope foreign with rfl | ⟨v, rfl, word⟩
  · exact free
  · have wordless : Wordless (':' :: ':' :: w) := wordless_cons (by decide) (by decide) _
    rw [List.append_assoc]
    exact unqualified_of_word word wordless.head fun _ => wordless

theorem unqualified_signed {sign : Option Sign} {s w : Text} (signed : s ∈ signSpelling sign)
    (free : Unqualified w) : Unqualified (s ++ w) := by
  rcases mem_signSpelling signed with rfl | ⟨sign, g, -, rfl, space⟩
  · exact free
  · rw [List.append_assoc]
    have other : sign.text ≠ constWord := by cases sign <;> decide
    exact unqualified_of_word (isWordRun_sign sign) (head_of_blank space w) fun same =>
      absurd same other

theorem unqualified_words {words : List Text} (name : IsNameText words) {w rest : Text}
    (member : w ∈ wordsSpelling words) (wordless : Wordless rest) : Unqualified (w ++ rest) := by
  obtain ⟨all, shape⟩ := name
  cases words with
  | nil => simp at shape
  | cons v words =>
    cases words with
    | nil =>
      cases member
      exact unqualified_of_word (all _ (.head _)) wordless.head fun _ => wordless
    | cons u words =>
      obtain ⟨_, rfl, _, others, rfl⟩ := Language.mem_mul.mp member
      obtain ⟨g, space, x, -, rfl⟩ := Language.mem_mul.mp others
      rcases shape with ⟨w, single, -⟩ | ⟨-, run⟩
      · simp at single
      · rw [List.append_assoc, List.append_assoc]
        refine unqualified_of_word (all _ (.head _)) (head_of_blank space _) ?_
        rintro rfl
        exact absurd (run constWord (.head _)) (by decide)

section

variable {names : Text → List Text}

theorem unqualified_segment {s : Segment} (named : s.Named) {w rest : Text}
    (member : w ∈ s.documented freeSpace names) (wordless : Wordless rest) :
    Unqualified (w ++ rest) := by
  cases s with
  | plain words => exact unqualified_words named member wordless
  | template words arguments =>
    obtain ⟨v, front, _, behind, rfl⟩ := Language.mem_mul.mp member
    obtain ⟨g, blank, _, bracket, rfl⟩ := Language.mem_mul.mp behind
    obtain ⟨_, rfl, x, -, rfl⟩ := Language.mem_mul.mp bracket
    rw [List.append_assoc]
    refine unqualified_words named.1 front ?_
    rw [List.append_assoc]
    exact (wordless_cons (by decide) (by decide) _).prepend blank

theorem unqualified_path {path : Path} (named : path.Named) {p b rest : Text}
    (scope : p ∈ path.scopesSpelling (path.scopesDocumented freeSpace names))
    (base : b ∈ path.baseDocumented freeSpace names) (wordless : Wordless rest) :
    Unqualified (p ++ (b ++ rest)) := by
  rw [path.baseDocumented_eq] at base
  have last := unqualified_segment (path.named_last named) base wordless
  rcases Path.mem_scopesSpelling scope with rfl | some
  · exact last
  · cases path with
    | base s =>
      cases some
      exact last
    | inside s inner =>
      obtain ⟨u, first, _, others, rfl⟩ := Language.mem_mul.mp some
      obtain ⟨_, rfl, v, -, rfl⟩ := Language.mem_mul.mp others
      rw [List.append_assoc]
      exact unqualified_segment named.1 first (wordless_cons (by decide) (by decide) _)

theorem wordless_decoration {form : Form} {w : Text} (member : w ∈ form.decorationSpelling) :
    Wordless w := by
  have space : Text.isBlank ' ' := by decide
  have front {g : Text} (blank : g ∈ plainSpace) : ∀ c ∈ g, Text.isBlank c :=
    fun c inside => blank c inside ▸ space
  unfold Form.decorationSpelling at member
  split at member
  · obtain ⟨a, blank, _, rest, rfl⟩ := Language.mem_mul.mp member
    obtain ⟨_, rfl, b, -, rfl⟩ := Language.mem_mul.mp rest
    exact (wordless_cons (by decide) (by decide) _).prepend (front blank)
  · split at member
    · obtain ⟨a, blank, _, rest, rfl⟩ := Language.mem_mul.mp member
      obtain ⟨_, pointers, b, -, rfl⟩ := Language.mem_mul.mp rest
      obtain ⟨x, first, y, -, rfl⟩ := Language.mem_mul.mp pointers
      rcases first with star | brackets
      · cases star
        exact (wordless_cons (by decide) (by decide) _).prepend (front blank)
      · cases brackets
        exact (wordless_cons (by decide) (by decide) _).prepend (front blank)
    · cases member
      exact wordless_nil

theorem unqualified_name (words : ∀ key, ∀ w ∈ names key, Text.IsWordRun w) {form : Form}
    {path : Path} (named : path.Named) {n d : Text}
    (choice : n ∈ path.ownName names form.sign + form.otherNames names)
    (decorated : d ∈ form.decorationSpelling) : Unqualified (n ++ d) := by
  have wordless := wordless_decoration decorated
  have single {w : Text} (word : Text.IsWordRun w) : Unqualified (w ++ d) :=
    unqualified_of_word word wordless.head fun _ => wordless
  rcases choice with own | others
  · obtain ⟨f, foreign, _, rest, rfl⟩ := Language.mem_mul.mp own
    obtain ⟨s, sign, _, inner, rfl⟩ := Language.mem_mul.mp rest
    obtain ⟨p, scope, b, base, rfl⟩ := Language.mem_mul.mp inner
    simp only [List.append_assoc]
    exact unqualified_scoped foreign (unqualified_signed sign
      (unqualified_path named scope base wordless))
  · obtain ⟨f, foreign, ⟨name, present, rfl⟩ | ⟨legacy, present, s, sign, rfl⟩⟩ :=
      Form.mem_others others
    · rw [List.append_assoc]
      exact unqualified_scoped foreign (single (words _ _ present))
    · rw [List.append_assoc, List.append_assoc]
      exact unqualified_scoped foreign
        (unqualified_signed sign (single (legacyNames_words _ (List.mem_map_of_mem present))))

end

end Apidoc.PrintedType
