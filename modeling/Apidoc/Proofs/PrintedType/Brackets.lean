import Apidoc.Proofs.PrintedType.Words

namespace Apidoc.PrintedType

open Computability

/-- The depth behind a text that is read at a depth. There is none if a bracket closes that was
not opened, or a comma stands outside of all brackets. -/
def depthAfter : Nat → Text → Option Nat
  | depth, [] => some depth
  | depth, c :: cs =>
    if c = '<' then depthAfter (depth + 1) cs
    else if c = '>' then
      match depth with
      | 0 => none
      | depth + 1 => depthAfter depth cs
    else if c = ',' ∧ depth = 0 then none
    else depthAfter depth cs

/-- Reading the text at this depth or deeper leaves the depth as it was. -/
def IsLevel (low : Nat) (w : Text) : Prop := ∀ depth, low ≤ depth → depthAfter depth w = some depth

theorem depthAfter_append (depth : Nat) (u v : Text) :
    depthAfter depth (u ++ v) = (depthAfter depth u).bind (depthAfter · v) := by
  induction u generalizing depth with
  | nil => rfl
  | cons c u ih =>
    simp only [List.cons_append, depthAfter]
    split
    · exact ih _
    · split
      · cases depth with
        | zero => rfl
        | succ depth => exact ih _
      · split
        · rfl
        · exact ih _

theorem level_nil (low : Nat) : IsLevel low [] := fun _ _ => rfl

theorem IsLevel.append {low : Nat} {u v : Text} (first : IsLevel low u) (second : IsLevel low v) :
    IsLevel low (u ++ v) := by
  intro depth enough
  rw [depthAfter_append, first depth enough]
  exact second depth enough

theorem IsLevel.mono {low high : Nat} {w : Text} (level : IsLevel low w) (le : low ≤ high) :
    IsLevel high w :=
  fun depth enough => level depth (Nat.le_trans le enough)

def IsFlat (w : Text) : Prop := '<' ∉ w ∧ '>' ∉ w ∧ ',' ∉ w

theorem IsFlat.level {w : Text} (flat : IsFlat w) (low : Nat) : IsLevel low w := by
  intro depth _
  induction w with
  | nil => rfl
  | cons c w ih =>
    obtain ⟨opening, closing, comma⟩ := flat
    have notOpening : c ≠ '<' := (List.ne_of_not_mem_cons opening).symm
    have notClosing : c ≠ '>' := (List.ne_of_not_mem_cons closing).symm
    have notComma : c ≠ ',' := (List.ne_of_not_mem_cons comma).symm
    simp only [depthAfter, notOpening, notClosing, notComma, if_false, false_and]
    exact ih ⟨List.not_mem_of_not_mem_cons opening, List.not_mem_of_not_mem_cons closing,
      List.not_mem_of_not_mem_cons comma⟩

theorem isFlat_of_forall {p : Char → Bool} {w : Text} (all : ∀ c ∈ w, p c)
    (opening : p '<' = false) (closing : p '>' = false) (comma : p ',' = false) : IsFlat w := by
  have absent {c : Char} (refused : p c = false) : c ∉ w := by
    intro member
    rw [all c member] at refused
    cases refused
  exact ⟨absent opening, absent closing, absent comma⟩

theorem isFlat_of_blank {w : Text} (blank : ∀ c ∈ w, Text.isBlank c) : IsFlat w :=
  isFlat_of_forall blank (by decide) (by decide) (by decide)

theorem isFlat_of_word {w : Text} (word : ∀ c ∈ w, Text.isWord c) : IsFlat w :=
  isFlat_of_forall word (by decide) (by decide) (by decide)

theorem level_comma : IsLevel 1 [','] := by
  intro depth enough
  have some : depth ≠ 0 := by omega
  simp [depthAfter, some]

theorem IsLevel.bracketed {low : Nat} {w : Text} (level : IsLevel (low + 1) w) :
    IsLevel low ('<' :: (w ++ ['>'])) := by
  intro depth enough
  have inner := level (depth + 1) (by omega)
  simp only [depthAfter, if_true, depthAfter_append, inner, Option.bind_some]
  simp

theorem depthAfter_comma {u : Text} (level : IsLevel 0 u) (v : Text) :
    depthAfter 0 (u ++ ',' :: v) = none := by
  rw [depthAfter_append, level 0 (Nat.le_refl 0)]
  rfl

theorem IsLevel.ne_append_comma {u v w : Text} (first : IsLevel 0 u) (second : IsLevel 0 w) :
    w ≠ u ++ ',' :: v := by
  intro same
  have none := depthAfter_comma first v
  rw [← same, second 0 (Nat.le_refl 0)] at none
  cases none

theorem IsLevel.cut_unique {u v rest left : Text} (first : IsLevel 0 u) (second : IsLevel 0 v)
    (same : u ++ ',' :: rest = v ++ ',' :: left) : u = v ∧ rest = left := by
  rcases List.append_eq_append_iff.mp same with ⟨t, eq, tail⟩ | ⟨t, eq, tail⟩
  · cases t with
    | nil => exact ⟨by simpa using eq.symm, by simpa using tail⟩
    | cons c t =>
      obtain ⟨rfl, -⟩ := List.cons.inj tail
      exact absurd eq (first.ne_append_comma second)
  · cases t with
    | nil => exact ⟨by simpa using eq, by simpa using tail.symm⟩
    | cons c t =>
      obtain ⟨rfl, -⟩ := List.cons.inj tail
      exact absurd eq (second.ne_append_comma first)

def Levels (low : Nat) (L : Language Char) : Prop := ∀ w ∈ L, IsLevel low w

theorem levels_one (low : Nat) : Levels low 1 := by
  intro w member
  cases member
  exact level_nil low

theorem levels_exact {low : Nat} {w : Text} (level : IsLevel low w) : Levels low (exact w) := by
  intro v same
  cases same
  exact level

theorem Levels.mul {low : Nat} {L M : Language Char} (first : Levels low L)
    (second : Levels low M) : Levels low (L * M) := by
  intro w member
  obtain ⟨u, left, v, right, rfl⟩ := Language.mem_mul.mp member
  exact (first u left).append (second v right)

theorem Levels.add {low : Nat} {L M : Language Char} (first : Levels low L)
    (second : Levels low M) : Levels low (L + M) := by
  intro w member
  rcases member with member | member
  · exact first w member
  · exact second w member

theorem Levels.maybe {low : Nat} {L : Language Char} (levels : Levels low L) :
    Levels low (maybe L) :=
  (levels_one low).add levels

theorem Levels.sum {low : Nat} {Ls : List (Language Char)} (all : ∀ L ∈ Ls, Levels low L) :
    Levels low Ls.sum := by
  induction Ls with
  | nil => exact fun _ none => nomatch none
  | cons L Ls ih =>
    obtain ⟨first, others⟩ := List.forall_mem_cons.mp all
    rw [List.sum_cons]
    exact first.add (ih others)

theorem Levels.kstar {low : Nat} {L : Language Char} (levels : Levels low L) :
    Levels low (L∗) := by
  intro w member
  obtain ⟨parts, rfl, all⟩ := Language.mem_kstar.mp member
  clear member
  induction parts with
  | nil => exact level_nil low
  | cons u parts ih =>
    obtain ⟨first, others⟩ := List.forall_mem_cons.mp all
    rw [List.flatten_cons]
    exact (levels u first).append (ih others)

theorem levels_freeSpace (low : Nat) : Levels low freeSpace :=
  fun _ blank => (isFlat_of_blank blank).level low

theorem levels_gap (low : Nat) : Levels low gap :=
  fun _ blank => (isFlat_of_blank blank.2).level low

theorem levels_plainSpace (low : Nat) : Levels low plainSpace := by
  intro w spaces
  apply IsFlat.level
  apply isFlat_of_forall (p := (· == ' ')) (fun c member => by simpa using spaces c member) <;> rfl

theorem levels_word {low : Nat} {w : Text} (word : Text.IsWordRun w) : Levels low (exact w) :=
  levels_exact ((isFlat_of_word word.2).level low)

theorem levels_foreignScope (low : Nat) : Levels low foreignScope := by
  have run : Levels low wordRun := fun w word => (isFlat_of_word word.2).level low
  have colons : IsLevel low [':', ':'] := IsFlat.level ⟨by decide, by decide, by decide⟩ low
  exact (run.mul (levels_exact colons)).maybe

theorem levels_signSpelling (low : Nat) (sign : Option Sign) : Levels low (signSpelling sign) := by
  cases sign with
  | none => exact levels_one low
  | some sign => exact ((levels_word (isWordRun_sign sign)).mul (levels_gap low)).maybe

theorem levels_constSpelling (low : Nat) : Levels low constSpelling :=
  ((levels_word isWordRun_constWord).mul (levels_gap low)).maybe

theorem levels_nameSpelling {low : Nat} {scopes base : Language Char} (sign : Option Sign)
    (outer : Levels low scopes) (inner : Levels low base) :
    Levels low (nameSpelling sign scopes base) :=
  (levels_foreignScope low).mul ((levels_signSpelling low sign).mul (outer.mul inner))

theorem levels_wordsSpelling {words : List Text} (low : Nat)
    (all : ∀ w ∈ words, Text.IsWordRun w) : Levels low (wordsSpelling words) := by
  induction words with
  | nil => exact levels_one low
  | cons w words ih =>
    obtain ⟨first, others⟩ := List.forall_mem_cons.mp all
    cases words with
    | nil => exact levels_word first
    | cons v words => exact (levels_word first).mul ((levels_gap low).mul (ih others))

theorem levels_decorationSpelling (low : Nat) (form : Form) :
    Levels low form.decorationSpelling := by
  have spaces := levels_plainSpace low
  have reference : IsLevel low ['&'] := IsFlat.level ⟨by decide, by decide, by decide⟩ low
  have star : IsLevel low ['*'] := IsFlat.level ⟨by decide, by decide, by decide⟩ low
  have brackets : IsLevel low "[]".toList := IsFlat.level ⟨by decide, by decide, by decide⟩ low
  have mark := (levels_exact star).add (levels_exact brackets)
  unfold Form.decorationSpelling
  split
  · exact spaces.mul ((levels_exact reference).mul spaces)
  · split
    · exact spaces.mul ((mark.mul mark.kstar).mul spaces)
    · exact levels_one low

theorem levels_aliasSpellings {names : List Text} (low : Nat)
    (words : ∀ w ∈ names, Text.IsWordRun w) : ∀ L ∈ aliasSpellings names, Levels low L := by
  intro L member
  obtain ⟨name, inside, rfl⟩ := List.mem_map.mp member
  exact (levels_foreignScope low).mul (levels_word (words name inside))

theorem levels_legacySpellings (low : Nat) (form : Form) :
    ∀ L ∈ form.legacySpellings, Levels low L := by
  intro L member
  obtain ⟨legacy, listed, rfl⟩ := form.mem_legacySpellings member
  exact levels_nameSpelling _ (levels_one low) (levels_word (legacyNames_words legacy listed))

theorem levels_scopesSpelling {low : Nat} {scopes : Language Char} (path : Path)
    (outer : Levels low scopes) : Levels low (path.scopesSpelling scopes) := by
  cases path with
  | base s => exact levels_one low
  | inside s path =>
    rw [Path.scopesSpelling]
    split
    · exact outer
    · exact outer.maybe

theorem levels_undecorated {low : Nat} {own : Language Char} {names : List Text} (form : Form)
    (words : ∀ w ∈ names, Text.IsWordRun w) (levels : Levels low own) :
    Levels low (constSpelling * (own + (aliasSpellings names ++ form.legacySpellings).sum)) := by
  have others : Levels low (aliasSpellings names ++ form.legacySpellings).sum := by
    apply Levels.sum
    intro L member
    rcases List.mem_append.mp member with member | member
    · exact levels_aliasSpellings low words L member
    · exact levels_legacySpellings low form L member
  exact (levels_constSpelling low).mul (levels.add others)

section

variable {names : Text → List Text}

mutual

theorem Tree.levels (words : ∀ key, ∀ w ∈ names key, Text.IsWordRun w) (low : Nat) :
    (t : Tree) → t.Named → Levels low (t.documented freeSpace names)
  | .mk form path, named => by
    have own := levels_nameSpelling form.sign
      (levels_scopesSpelling path (path.levels_scopes words low named))
      (path.levels_base words low named)
    exact (levels_undecorated form (words form.spelling) own).mul
      (levels_decorationSpelling low form)

theorem Path.levels_scopes (words : ∀ key, ∀ w ∈ names key, Text.IsWordRun w) (low : Nat) :
    (path : Path) → path.Named → Levels low (path.scopesDocumented freeSpace names)
  | .base _, _ => levels_one low
  | .inside s path, named => by
    have colons : IsLevel low [':', ':'] := IsFlat.level ⟨by decide, by decide, by decide⟩ low
    exact (s.levels words low named.1).mul
      ((levels_exact colons).mul (path.levels_scopes words low named.2))

theorem Path.levels_base (words : ∀ key, ∀ w ∈ names key, Text.IsWordRun w) (low : Nat) :
    (path : Path) → path.Named → Levels low (path.baseDocumented freeSpace names)
  | .base s, named => s.levels words low named
  | .inside _ path, named => path.levels_base words low named.2

theorem Segment.levels (words : ∀ key, ∀ w ∈ names key, Text.IsWordRun w) (low : Nat) :
    (s : Segment) → s.Named → Levels low (s.documented freeSpace names)
  | .plain run, named => levels_wordsSpelling low named.1
  | .template run arguments, named => by
    intro w member
    obtain ⟨u, front, _, behind, rfl⟩ := Language.mem_mul.mp member
    obtain ⟨before, blank, _, bracket, rfl⟩ := Language.mem_mul.mp behind
    obtain ⟨_, rfl, _, within, rfl⟩ := Language.mem_mul.mp bracket
    obtain ⟨opened, space, _, list, rfl⟩ := Language.mem_mul.mp within
    obtain ⟨a, inner, _, tail, rfl⟩ := Language.mem_mul.mp list
    obtain ⟨closed, last, _, rfl, rfl⟩ := Language.mem_mul.mp tail
    have deep := IsLevel.mono (arguments.levels words low named.2 a inner) (Nat.le_refl (low + 1))
    have body := ((levels_freeSpace (low + 1) opened space).append deep).append
      (levels_freeSpace (low + 1) closed last)
    have whole := ((levels_wordsSpelling low named.1.1 u front).append
      (levels_freeSpace low before blank)).append body.bracketed
    simpa using whole

theorem Arguments.levels (words : ∀ key, ∀ w ∈ names key, Text.IsWordRun w) (low : Nat) :
    (arguments : Arguments) → arguments.Named →
      Levels (low + 1) (arguments.documented freeSpace names)
  | .one t, named => t.levels words (low + 1) named
  | .cons t rest, named => by
    have comma := IsLevel.mono level_comma (Nat.le_add_left 1 low)
    exact (t.levels words (low + 1) named.1).mul
      ((levels_exact comma).mul ((levels_freeSpace _).mul (rest.levels words low named.2)))

end

end

end Apidoc.PrintedType
