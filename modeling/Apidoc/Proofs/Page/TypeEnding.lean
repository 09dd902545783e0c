import Apidoc.Proofs.Page.ParameterList

/-!
No documented spelling of a type is another type with a name behind it, so the name of a documented
parameter is never read as the end of its type.
-/
namespace Apidoc.Page

open Computability Pattern PrintedType

/-- A type with a sign whose base name is one word has a builtin word there. -/
def SignedBuiltin (t : Tree) : Prop :=
  t.form.sign.isSome → ∀ w, t.path.last = .plain [w] → isCombining w

/-- A documented parameter with a name: its type is one of the grammar, and its name is no builtin
word. -/
structure IsDocumented (n : NamedType) : Prop extends n.WellFormed where
  accepted : ∃ tree, parse n.type = .ok tree
  trimmed : IsTrimmed n.type
  free : isCombining n.name = false

def Outside (L : Language Char) : Prop := ∀ w ∈ L, EndsOutside w

theorem outside_one : Outside 1 := by
  intro w member
  cases member
  exact endsOutside_nil

theorem Outside.mul {L M : Language Char} (first : Outside L) (second : Outside M) :
    Outside (L * M) := by
  intro w member
  obtain ⟨u, left, v, right, rfl⟩ := Language.mem_mul.mp member
  exact (first u left).append (second v right)

theorem Outside.maybe {L : Language Char} (outside : Outside L) : Outside (maybe L) := by
  intro w member
  rcases member with member | member
  · exact outside_one w member
  · exact outside w member

theorem outside_mul_of_last {L M : Language Char}
    (last : ∀ w ∈ M, ∃ front c, w = front ++ [c] ∧ Text.isWord c = false) : Outside (L * M) := by
  intro w member
  obtain ⟨u, -, v, right, rfl⟩ := Language.mem_mul.mp member
  obtain ⟨front, c, rfl, outside⟩ := last v right
  rw [← List.append_assoc]
  exact endsOutside_concat outside

theorem last_gap : ∀ w ∈ gap, ∃ front c, w = front ++ [c] ∧ Text.isWord c = false := by
  intro w member
  obtain ⟨front, c, rfl⟩ := (List.eq_nil_or_concat' w).resolve_left member.1
  exact ⟨front, c, rfl, Text.isWord_of_isBlank (member.2 c (by simp))⟩

theorem outside_constSpelling : Outside constSpelling := (outside_mul_of_last last_gap).maybe

theorem outside_signSpelling (sign : Option Sign) : Outside (signSpelling sign) := by
  cases sign with
  | none => exact outside_one
  | some sign => exact (outside_mul_of_last last_gap).maybe

def IsScope (w : Text) : Prop := w = [] ∨ ∃ front, w = front ++ [':']

theorem IsScope.append {u v : Text} (first : IsScope u) (second : IsScope v) :
    IsScope (u ++ v) := by
  rcases second with rfl | ⟨front, rfl⟩
  · rwa [List.append_nil]
  · exact .inr ⟨u ++ front, (List.append_assoc ..).symm⟩

theorem IsScope.endsOutside {w : Text} (scope : IsScope w) : EndsOutside w := by
  rcases scope with rfl | ⟨front, rfl⟩
  · exact endsOutside_nil
  · exact endsOutside_concat Text.isWord_colon

theorem isScope_of_foreignScope {w : Text} (member : w ∈ foreignScope) : IsScope w := by
  rcases mem_foreignScope member with none | ⟨u, rfl, -⟩
  · exact .inl none
  · exact .inr ⟨u ++ [':'], by simp⟩

theorem isScope_scopesDocumented (opened : Language Char) (names : Text → List Text) :
    (path : Path) → ∀ w ∈ path.scopesDocumented opened names, IsScope w
  | .base _, w, member => .inl member
  | .inside s path, w, member => by
    obtain ⟨u, -, _, rest, rfl⟩ := Language.mem_mul.mp member
    obtain ⟨_, rfl, v, inner, rfl⟩ := Language.mem_mul.mp rest
    have colons : IsScope (u ++ [':', ':']) := .inr ⟨u ++ [':'], by simp⟩
    rw [← List.append_assoc]
    exact colons.append (isScope_scopesDocumented opened names path v inner)

theorem isScope_scopesSpelling (opened : Language Char) (names : Text → List Text) (path : Path) :
    ∀ w ∈ path.scopesSpelling (path.scopesDocumented opened names), IsScope w := by
  intro w member
  cases path with
  | base s => exact .inl member
  | inside s path =>
    rw [Path.scopesSpelling] at member
    split at member
    · exact isScope_scopesDocumented opened names _ w member
    · rcases member with none | some
      · exact .inl none
      · exact isScope_scopesDocumented opened names _ w some

theorem Outside.kstar {L : Language Char} (outside : Outside L) : Outside (L∗) := by
  intro w member
  obtain ⟨parts, rfl, all⟩ := Language.mem_kstar.mp member
  clear member
  induction parts with
  | nil => exact endsOutside_nil
  | cons u parts ih =>
    obtain ⟨first, others⟩ := List.forall_mem_cons.mp all
    rw [List.flatten_cons]
    exact (outside u first).append (ih others)

theorem outside_exact {w : Text} (outside : ∀ c ∈ w, Text.isWord c = false) :
    Outside (exact w) := by
  intro v same
  cases same
  exact endsOutside_of_forall outside

theorem outside_decorationSpelling (form : Form) : Outside form.decorationSpelling := by
  have space : Text.isWord ' ' = false := by decide
  have spaces : Outside plainSpace := by
    intro w all
    apply endsOutside_of_forall
    intro c member
    rw [all c member]
    exact space
  have reference : Outside (exact ['&']) := outside_exact (by decide)
  have mark : Outside (exact ['*'] + exact "[]".toList) := by
    intro w member
    rcases member with member | member
    · exact outside_exact (by decide) w member
    · exact outside_exact (by decide) w member
  unfold Form.decorationSpelling
  split
  · exact spaces.mul (reference.mul spaces)
  · split
    · exact spaces.mul ((mark.mul mark.kstar).mul spaces)
    · exact outside_one

theorem mem_wordsSpelling {words : List Text} (nonempty : words ≠ []) {w : Text}
    (member : w ∈ wordsSpelling words) :
    ∃ front, w = front ++ words.getLast nonempty ∧ EndsOutside front ∧
      (∀ v, words = [v] → front = []) := by
  induction words generalizing w with
  | nil => exact absurd rfl nonempty
  | cons v words ih =>
    cases words with
    | nil =>
      cases member
      exact ⟨[], rfl, endsOutside_nil, fun _ _ => rfl⟩
    | cons u words =>
      obtain ⟨lead, -, _, rest, rfl⟩ := Language.mem_mul.mp member
      obtain ⟨space, blank, _, inner, rfl⟩ := Language.mem_mul.mp rest
      obtain ⟨front, rfl, outside, -⟩ := ih (List.cons_ne_nil u words) inner
      refine ⟨lead ++ (space ++ front), by simp, ?_, fun x single => by simp at single⟩
      obtain ⟨start, c, rfl, other⟩ := last_gap space blank
      rw [← List.append_assoc, ← List.append_assoc]
      exact (endsOutside_concat other).append outside

section

variable {n : NamedType}

theorem IsDocumented.front_ne (documented : IsDocumented n) {c scope : Text}
    (qualifier : c ∈ constSpelling) (nested : IsScope scope) :
    n.type ++ n.separator ≠ c ++ scope := by
  intro same
  obtain ⟨tree, accepted⟩ := documented.accepted
  unfold NamedType.separator at same
  rcases nested with rfl | ⟨front, rfl⟩
  · rw [List.append_nil] at same
    rcases mem_constSpelling qualifier with rfl | ⟨g, rfl, nonempty, blank⟩
    · obtain ⟨empty, -⟩ := List.append_eq_nil_iff.mp same
      rw [empty] at accepted
      exact parse_nil_ne tree accepted
    · split at same
      · obtain ⟨start, d, rfl⟩ := (List.eq_nil_or_concat' g).resolve_left nonempty
        rw [← List.append_assoc] at same
        obtain ⟨type, -⟩ := List.append_inj' same rfl
        have none := documented.trimmed.eq_nil (fun e member => blank e (by simp [member])) type
        rw [none, List.append_nil] at type
        rw [type] at accepted
        exact parse_const_ne tree accepted
      · rw [List.append_nil] at same
        exact nonempty (documented.trimmed.eq_nil blank same)
  · rw [← List.append_assoc] at same
    split at same
    · obtain ⟨-, last⟩ := List.append_inj' same rfl
      exact absurd last (by decide)
    · rename_i direct
      obtain ⟨start, d, type, close⟩ := documented.separated (eq_false_of_ne_true direct)
      rw [List.append_nil, type] at same
      obtain ⟨-, last⟩ := List.append_inj' same rfl
      rw [(List.cons.inj last).1] at close
      exact absurd close (by decide)

theorem IsDocumented.ne_scoped (documented : IsDocumented n) {c scope w : Text}
    (qualifier : c ∈ constSpelling) (nested : IsScope scope) (word : Text.IsWordRun w) :
    n.text ≠ c ++ (scope ++ w) := by
  intro same
  rw [NamedType.text, ← List.append_assoc, ← List.append_assoc] at same
  have outside := (outside_constSpelling c qualifier).append nested.endsOutside
  obtain ⟨front, -⟩ := last_word_unique documented.endsOutside outside documented.word word same
  exact documented.front_ne qualifier nested front

theorem IsDocumented.ne_builtin (documented : IsDocumented n) {u w : Text}
    (outside : EndsOutside u) (word : Text.IsWordRun w) (builtin : isCombining w) :
    n.text ≠ u ++ w := by
  intro same
  rw [NamedType.text, ← List.append_assoc] at same
  obtain ⟨-, name⟩ := last_word_unique documented.endsOutside outside documented.word word same
  have free := documented.free
  rw [name, builtin] at free
  cases free

theorem IsDocumented.not_mem_alias (documented : IsDocumented n) {c m name : Text}
    (qualifier : c ∈ constSpelling) (member : m ∈ foreignScope * exact name)
    (word : Text.IsWordRun name) : n.text ≠ c ++ m := by
  obtain ⟨scope, nested, _, rfl, rfl⟩ := Language.mem_mul.mp member
  exact documented.ne_scoped qualifier (isScope_of_foreignScope nested) word

theorem IsDocumented.not_mem_name (documented : IsDocumented n) {c m : Text}
    {sign : Option Sign} {scopes base : Language Char} (qualifier : c ∈ constSpelling)
    (member : m ∈ nameSpelling sign scopes base) (outer : ∀ s ∈ scopes, IsScope s)
    (ends : ∀ b ∈ base, ∃ front w, b = front ++ w ∧ EndsOutside front ∧ Text.IsWordRun w ∧
      (isCombining w = false → sign = none ∧ front = [])) : n.text ≠ c ++ m := by
  obtain ⟨foreign, first, _, rest, rfl⟩ := Language.mem_mul.mp member
  obtain ⟨signed, second, _, last, rfl⟩ := Language.mem_mul.mp rest
  obtain ⟨scope, third, _, name, rfl⟩ := Language.mem_mul.mp last
  obtain ⟨front, w, rfl, outside, word, plain⟩ := ends _ name
  have before := isScope_of_foreignScope first
  cases builtin : isCombining w with
  | false =>
    obtain ⟨rfl, rfl⟩ := plain builtin
    cases second
    have apart := documented.ne_scoped qualifier (before.append (outer scope third)) word
    simpa using apart
  | true =>
    have qualified := (outside_constSpelling c qualifier).append before.endsOutside
    have inner := ((outer scope third).endsOutside).append outside
    have whole := (qualified.append (outside_signSpelling sign signed second)).append inner
    have apart := documented.ne_builtin whole word builtin
    simpa using apart

end

theorem legacyNames_plain : ∀ legacy ∈ legacyNames.map Prod.snd,
    isCombining legacy.word = false → legacy.sign = none := by
  simp only [legacyNames, List.map_cons, List.map_nil, List.forall_mem_cons]
  decide

theorem IsNameText.ends {words : List Text} (name : IsNameText words) {b : Text}
    (member : b ∈ wordsSpelling words) : ∃ front w, b = front ++ w ∧ EndsOutside front ∧
      Text.IsWordRun w ∧ (isCombining w = false → words = [w] ∧ front = []) := by
  obtain ⟨all, shape⟩ := name
  rcases shape with ⟨w, rfl, single⟩ | ⟨nonempty, run⟩
  · have same : b = w := member
    exact ⟨[], w, same, endsOutside_nil, all w (.head _), fun _ => ⟨rfl, rfl⟩⟩
  · obtain ⟨front, rfl, outside, -⟩ := mem_wordsSpelling nonempty member
    have last := List.getLast_mem nonempty
    refine ⟨front, _, rfl, outside, all _ last, ?_⟩
    intro free
    rw [run _ last] at free
    cases free

theorem IsDocumented.not_endsOutside {n : NamedType} (documented : IsDocumented n) :
    ¬ EndsOutside n.text := by
  intro outside
  have none : n.text = [] := outside.eq_nil_of_append documented.word
    (show n.type ++ n.separator ++ n.name = [] ++ n.text by simp [NamedType.text])
  have name := (List.append_eq_nil_iff.mp (List.append_eq_nil_iff.mp none).2).2
  exact documented.word.1 name

theorem outside_template {names : Text → List Text} (run : List Text) (arguments : Arguments) :
    Outside ((Segment.template run arguments).documented freeSpace names) := by
  intro w member
  obtain ⟨u, -, _, behind, rfl⟩ := Language.mem_mul.mp member
  obtain ⟨a, -, _, bracket, rfl⟩ := Language.mem_mul.mp behind
  obtain ⟨b, -, _, within, rfl⟩ := Language.mem_mul.mp bracket
  obtain ⟨d, -, _, list, rfl⟩ := Language.mem_mul.mp within
  obtain ⟨e, -, _, tail, rfl⟩ := Language.mem_mul.mp list
  obtain ⟨g, -, _, rfl, rfl⟩ := Language.mem_mul.mp tail
  have closing : EndsOutside (u ++ (a ++ (b ++ (d ++ (e ++ g)))) ++ ['>']) :=
    endsOutside_concat (by decide)
  simpa using closing

/-- No documented spelling of a type is a documented type with a name. -/
theorem IsDocumented.not_mem {n : NamedType} (documented : IsDocumented n) {t : Tree}
    (named : t.Named) (signed : SignedBuiltin t) {names : Text → List Text}
    (words : ∀ key, ∀ w ∈ names key, Text.IsWordRun w) :
    n.text ∉ t.documented freeSpace names := by
  intro member
  cases t with
  | mk form path =>
    obtain ⟨x, body, deco, decoration, same⟩ := Language.mem_mul.mp member
    -- a documented name ends in a word, and a decoration does not
    have bare : deco = [] := by
      have ends := outside_decorationSpelling form deco decoration
      rw [NamedType.text, ← List.append_assoc] at same
      exact ends.eq_nil_of_append documented.word same.symm
    obtain ⟨c, qualifier, m, choice, rfl⟩ := Language.mem_mul.mp body
    subst bare
    rw [List.append_nil] at same
    rcases choice with own | other
    · rw [path.baseDocumented_eq] at own
      have outer := isScope_scopesSpelling freeSpace names path
      have last := path.named_last named
      cases base : path.last with
      | plain run =>
        rw [base] at own last
        refine documented.not_mem_name qualifier own outer ?_ same.symm
        intro b inner
        obtain ⟨front, w, eq, outside, word, plain⟩ := IsNameText.ends last inner
        refine ⟨front, w, eq, outside, word, ?_⟩
        intro free
        obtain ⟨rfl, bare⟩ := plain free
        refine ⟨?_, bare⟩
        cases sign : form.sign with
        | none => rfl
        | some s =>
          have builtin := signed (by rw [Tree.form, sign]; rfl) w base
          rw [free] at builtin
          cases builtin
      | template run arguments =>
        rw [base] at own
        apply documented.not_endsOutside
        rw [← same]
        apply (outside_constSpelling c qualifier).append
        obtain ⟨foreign, first, _, rest, rfl⟩ := Language.mem_mul.mp own
        obtain ⟨sign, second, _, tail, rfl⟩ := Language.mem_mul.mp rest
        obtain ⟨scope, third, b, name, rfl⟩ := Language.mem_mul.mp tail
        have before := (isScope_of_foreignScope first).endsOutside
        exact before.append ((outside_signSpelling _ sign second).append
          ((outer scope third).endsOutside.append (outside_template run arguments b name)))
    · obtain ⟨L, listed, inside⟩ := mem_sum other
      rcases List.mem_append.mp listed with alternative | legacy
      · obtain ⟨name, present, rfl⟩ := List.mem_map.mp alternative
        exact documented.not_mem_alias qualifier inside (words _ name present) same.symm
      · obtain ⟨synonym, present, rfl⟩ := form.mem_legacySpellings legacy
        refine documented.not_mem_name qualifier inside (fun _ none => .inl none) ?_ same.symm
        intro b name
        exact ⟨[], b, rfl, endsOutside_nil, name ▸ legacyNames_words synonym present,
          fun free => ⟨legacyNames_plain synonym present (name ▸ free), rfl⟩⟩

end Apidoc.Page
