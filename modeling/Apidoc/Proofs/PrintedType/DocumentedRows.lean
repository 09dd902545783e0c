import Apidoc.Proofs.PrintedType.Nesting
import Apidoc.Proofs.PrintedType.Row

/-!
The tokens of the documented spellings of a type, as a language of rows that follows its tree.
-/
namespace Apidoc.PrintedType

open Computability

/-! The rows of the texts of a language. -/

/-- Each text of the language, behind any blanks, spells one of the rows up to the blanks at its
end. -/
def Rows (L : Language Char) (R : Language Token) : Prop :=
  ∀ w ∈ L, ∀ b, (∀ c ∈ b, Text.isBlank c) → ∃ ts ∈ R, ∃ tail, (∀ c ∈ tail, Text.isBlank c) ∧
    b ++ w = rowText ts ++ tail ∧ Formed ts ∧ Spaced ts

def StartsApart (L : Language Char) : Prop := ∀ w ∈ L, ∀ c, w.head? = some c → Text.isWord c = false

def EndsApart (L : Language Char) : Prop :=
  ∀ w ∈ L, ∀ c, w.getLast? = some c → Text.isWord c = false

section

variable {L M : Language Char} {R S : Language Token}

theorem Rows.mono (rows : Rows L R) (le : ∀ ts ∈ R, Formed ts → ts ∈ S) : Rows L S := by
  intro w member b blank
  obtain ⟨ts, inside, tail, space, eq, formed, spaced⟩ := rows w member b blank
  exact ⟨ts, le ts inside formed, tail, space, eq, formed, spaced⟩

theorem rows_blank (blank : ∀ w ∈ L, ∀ c ∈ w, Text.isBlank c) : Rows L 1 := by
  intro w member b front
  have none : Formed [] := by simp [Formed]
  have spaced : Spaced [] := .nil
  exact ⟨[], rfl, b ++ w, List.forall_mem_append.mpr ⟨front, blank w member⟩, rfl, none, spaced⟩

theorem rows_one : Rows 1 1 := by
  apply rows_blank
  intro w none
  cases none
  simp

theorem rows_of_lexemes (lexemes : ∀ w ∈ L, ∃ kind, IsLexeme kind w ∧ ∀ gap, [⟨kind, gap, w⟩] ∈ R) :
    Rows L R := by
  intro w member b blank
  obtain ⟨kind, lexeme, row⟩ := lexemes w member
  have formed : Formed [⟨kind, b, w⟩] := by simpa [Formed] using ⟨blank, lexeme⟩
  exact ⟨_, row b, [], by simp, by simp [rowText, Token.source], formed, .singleton _⟩

theorem Rows.add (first : Rows L R) (second : Rows M S) : Rows (L + M) (R + S) := by
  intro w member
  rcases member with member | member
  · exact first.mono (fun _ row _ => Or.inl row) w member
  · exact second.mono (fun _ row _ => Or.inr row) w member

theorem Rows.sum {Ls : List (Language Char)} (all : ∀ L ∈ Ls, Rows L R) : Rows Ls.sum R := by
  induction Ls with
  | nil => exact fun _ none => nomatch none
  | cons L Ls ih =>
    obtain ⟨first, others⟩ := List.forall_mem_cons.mp all
    rw [List.sum_cons]
    exact (first.add (ih others)).mono fun _ row _ => Or.elim row id id

theorem apart_of_seam {ts us : List Token} {b u v tail tail' : Text} (blank : ∀ c ∈ b, Text.isBlank c)
    (blank' : ∀ c ∈ tail, Text.isBlank c) (formed : Formed ts) (formed' : Formed us)
    (front : b ++ u = rowText ts ++ tail) (back : tail ++ v = rowText us ++ tail')
    (apart : (∀ c, u.getLast? = some c → Text.isWord c = false) ∨
      ∀ c, v.head? = some c → Text.isWord c = false) :
    ∀ t ∈ ts.getLast?, ∀ s ∈ us.head?, t.Apart s := by
  intro t last s first word word' gap
  obtain ⟨us, rfl⟩ := List.head?_eq_some_iff.mp first
  obtain ⟨xs, rfl⟩ := List.getLast?_eq_some_iff.mp last
  obtain ⟨c, cs, text, -, starts⟩ := formed'.cons.1.lexeme.head
  have inside : Text.isWord c := starts.mpr word'
  rw [rowText_cons, Token.source, gap, text] at back
  cases tail with
  | cons d tail =>
    obtain ⟨rfl, -⟩ := List.cons.inj back
    have space := blank' d (.head _)
    rw [Text.isWord_of_isBlank space] at inside
    cases inside
  | nil =>
    have run := (formed t (by simp)).isWordRun word
    obtain ⟨d, end_⟩ : ∃ d, t.text.getLast? = some d :=
      Option.isSome_iff_exists.mp (by simpa using run.1)
    have inside' : Text.isWord d := run.2 d (List.mem_of_getLast? end_)
    have row : (rowText (xs ++ [t]) ++ []).getLast? = some d := by
      rw [List.append_nil, rowText_append, rowText, rowText, List.flatMap_singleton, Token.source,
        ← List.append_assoc, List.getLast?_append_of_ne_nil _ run.1, end_]
    rcases apart with outside | outside
    · cases u with
      | nil =>
        rw [← front, List.append_nil] at row
        have space := blank d (List.mem_of_getLast? row)
        rw [Text.isWord_of_isBlank space] at inside'
        cases inside'
      | cons a u =>
        rw [← front, List.getLast?_append_of_ne_nil _ (List.cons_ne_nil a u)] at row
        rw [outside d row] at inside'
        cases inside'
    · rw [List.nil_append] at back
      rw [outside c (by rw [back]; rfl)] at inside
      cases inside

theorem Rows.mul (first : Rows L R) (second : Rows M S) (apart : EndsApart L ∨ StartsApart M) :
    Rows (L * M) (R * S) := by
  intro w member b blank
  obtain ⟨u, left, v, right, rfl⟩ := Language.mem_mul.mp member
  obtain ⟨ts, inside, tail, space, eq, formed, spaced⟩ := first u left b blank
  obtain ⟨us, inside', tail', space', eq', formed', spaced'⟩ := second v right tail space
  have seam := apart_of_seam blank space formed formed' eq eq'
    (apart.imp (fun ends => ends u left) fun starts => starts v right)
  have row : b ++ (u ++ v) = rowText (ts ++ us) ++ tail' := by
    rw [← List.append_assoc, eq, List.append_assoc, eq', rowText_append, List.append_assoc]
  exact ⟨ts ++ us, Language.append_mem_mul inside inside', tail', space', row,
    List.forall_mem_append.mpr ⟨formed, formed'⟩, List.isChain_append.mpr ⟨spaced, spaced', seam⟩⟩

theorem startsApart_mul (first : StartsApart L) (second : StartsApart M) : StartsApart (L * M) := by
  intro w member c head
  obtain ⟨u, left, v, right, rfl⟩ := Language.mem_mul.mp member
  cases u with
  | nil => exact second v right c head
  | cons d u => exact first _ left c head

theorem startsApart_mul_of_ne_nil (first : StartsApart L) (some : ∀ u ∈ L, u ≠ [])
    (M : Language Char) : StartsApart (L * M) := by
  intro w member c head
  obtain ⟨u, left, v, -, rfl⟩ := Language.mem_mul.mp member
  rw [List.head?_append_of_ne_nil _ (some u left)] at head
  exact first u left c head

theorem endsApart_mul (first : EndsApart L) (second : EndsApart M) : EndsApart (L * M) := by
  intro w member c last
  obtain ⟨u, left, v, right, rfl⟩ := Language.mem_mul.mp member
  cases v with
  | nil =>
    rw [List.append_nil] at last
    exact first u left c last
  | cons d v =>
    rw [List.getLast?_append_of_ne_nil _ (List.cons_ne_nil d v)] at last
    exact second _ right c last

theorem endsApart_mul_of_ne_nil (second : EndsApart M) (some : ∀ v ∈ M, v ≠ [])
    (L : Language Char) : EndsApart (L * M) := by
  intro w member c last
  obtain ⟨u, -, v, right, rfl⟩ := Language.mem_mul.mp member
  rw [List.getLast?_append_of_ne_nil _ (some v right)] at last
  exact second v right c last

theorem EndsApart.maybe (ends : EndsApart L) : EndsApart (maybe L) := by
  intro w member c last
  rcases member with none | member
  · cases none
    cases last
  · exact ends w member c last

theorem startsApart_of_blank (blank : ∀ w ∈ L, ∀ c ∈ w, Text.isBlank c) : StartsApart L :=
  fun w member c head => Text.isWord_of_isBlank (blank w member c (List.mem_of_mem_head? head))

theorem endsApart_of_blank (blank : ∀ w ∈ L, ∀ c ∈ w, Text.isBlank c) : EndsApart L :=
  fun w member c last => Text.isWord_of_isBlank (blank w member c (List.mem_of_getLast? last))

theorem apart_exact {w : Text} (other : ∀ c ∈ w, Text.isWord c = false) :
    StartsApart (exact w) ∧ EndsApart (exact w) := by
  constructor
  · intro v same c head
    cases same
    exact other c (List.mem_of_mem_head? head)
  · intro v same c last
    cases same
    exact other c (List.mem_of_getLast? last)

end

theorem blank_freeSpace : ∀ w ∈ freeSpace, ∀ c ∈ w, Text.isBlank c := fun _ blank => blank

theorem blank_gap : ∀ w ∈ gap, ∀ c ∈ w, Text.isBlank c := fun _ blank => blank.2

theorem blank_plainSpace : ∀ w ∈ plainSpace, ∀ c ∈ w, Text.isBlank c := by
  intro w spaces c member
  rw [spaces c member]
  decide

theorem apart_colons : StartsApart (exact [':', ':']) ∧ EndsApart (exact [':', ':']) :=
  apart_exact (by simp [Text.isWord_colon])

theorem endsApart_constSpelling : EndsApart constSpelling :=
  (endsApart_mul_of_ne_nil (endsApart_of_blank blank_gap) (fun _ some => some.1) _).maybe

theorem endsApart_one : EndsApart 1 := by
  intro w none c last
  cases none
  cases last

theorem endsApart_signSpelling (sign : Option Sign) : EndsApart (signSpelling sign) := by
  cases sign with
  | none => exact endsApart_one
  | some sign =>
    exact (endsApart_mul_of_ne_nil (endsApart_of_blank blank_gap) (fun _ some => some.1) _).maybe

theorem endsApart_foreignScope : EndsApart foreignScope := by
  apply EndsApart.maybe
  apply endsApart_mul_of_ne_nil apart_colons.2
  intro v same
  cases same
  simp

/-! The rows of the parts of a type. -/

def lone (text : Text) : Language Token := {ts | ∃ t, ts = [t] ∧ t.text = text}

theorem rows_lone {kind : Kind} {w : Text} (lexeme : IsLexeme kind w) : Rows (exact w) (lone w) := by
  apply rows_of_lexemes
  intro v same
  cases same
  exact ⟨kind, lexeme, fun gap => ⟨_, rfl, rfl⟩⟩

theorem rows_word {w : Text} (word : Text.IsWordRun w) : Rows (exact w) (lone w) :=
  rows_lone (.word word.1 word.2)

def leadRows : Language Token := 1 + lone constWord

def signRows : Option Sign → Language Token
  | none => 1
  | some sign => 1 + lone sign.text

theorem rows_maybe {L : Language Char} {R : Language Token} (rows : Rows L R) :
    Rows (maybe L) (1 + R) :=
  rows_one.add rows

theorem rows_word_gap {w : Text} (word : Text.IsWordRun w) : Rows (exact w * gap) (lone w) := by
  have parts := (rows_word word).mul (rows_blank blank_gap) (.inr (startsApart_of_blank blank_gap))
  rwa [mul_one] at parts

theorem rows_lead : Rows constSpelling leadRows := rows_maybe (rows_word_gap isWordRun_constWord)

theorem rows_sign (sign : Option Sign) : Rows (signSpelling sign) (signRows sign) := by
  cases sign with
  | none => exact rows_one
  | some sign => exact rows_maybe (rows_word_gap (isWordRun_sign sign))

/-- Scopes: nothing, or tokens up to a double colon. Their brackets are balanced, and their commas
stand inside of these. -/
structure IsScopes (ts : List Token) : Prop where
  balanced : Balanced ts
  sealed : Sealed [','] ts
  ends : ts = [] ∨ ∃ us c, ts = us ++ [c] ∧ c.text = [':', ':']

theorem isScopes_nil : IsScopes [] :=
  ⟨balanced_nil, sealed_of_inert (by simp), .inl rfl⟩

theorem IsScopes.append {ts us : List Token} (balanced : Balanced ts) (free : Sealed [','] ts)
    (scopes : IsScopes us) (some : us ≠ []) : IsScopes (ts ++ us) := by
  obtain ⟨vs, c, rfl, colons⟩ := scopes.ends.resolve_left some
  exact ⟨balanced.append scopes.balanced, free.append balanced scopes.sealed,
    .inr ⟨ts ++ vs, c, by simp, colons⟩⟩

theorem isScopes_colons {t : Token} (colons : t.text = [':', ':']) : IsScopes [t] := by
  refine ⟨balanced_of_inert (by simpa using inert_colons colons), sealed_of_inert ?_,
    .inr ⟨[], t, rfl, colons⟩⟩
  simp [colons]

def scopeRows : Language Token := {ts | IsScopes ts}

def prefixRows (sign : Option Sign) : Language Token := scopeRows * signRows sign

def pointerRows : Language Token := {ts | ts ≠ [] ∧ ∀ t ∈ ts, t.isPointer}

def Form.decorationRows (form : Form) : Language Token :=
  if form.reference then lone ['&'] else if form.pointers ≠ 0 then pointerRows else 1

def wordRows (words : List Text) : Language Token := {ts | ts.map Token.text = words}

/-- A word stands for a type of this form, with this sign in front: a typedef name has none, the
legacy name its own. -/
def Form.StandsFor (form : Form) (names : List Text) (sign : Option Sign) (word : Text) : Prop :=
  (sign = none ∧ word ∈ names) ∨ legacyNames.lookup form.fullSpelling = some ⟨sign, word⟩

def Form.otherRows (form : Form) (names : List Text) : Language Token :=
  {ts | ∃ sign word, form.StandsFor names sign word ∧ ts ∈ prefixRows sign * wordRows [word]}

section

variable (names : Text → List Text)

mutual

/-- The rows of a type: a `const`, scopes, a sign, a base, and decorations. -/
def Tree.rows : Tree → Language Token
  | .mk form path =>
    leadRows * (prefixRows form.sign * path.baseRows + form.otherRows (names form.spelling)) *
      form.decorationRows

def Path.baseRows : Path → Language Token
  | .base s => s.rows
  | .inside _ path => path.baseRows

def Segment.rows : Segment → Language Token
  | .plain words => wordRows words
  | .template words arguments =>
    wordRows words * (lone ['<'] * (arguments.rows * lone ['>']))

def Arguments.rows : Arguments → Language Token
  | .one t => t.rows
  | .cons t rest => t.rows * (lone [','] * rest.rows)

end

theorem Path.baseRows_eq (path : Path) : path.baseRows names = path.last.rows names := by
  cases path with
  | base s => rfl
  | inside s path => exact path.baseRows_eq

end

/-! Brackets and commas in the rows. -/

theorem inert_of_word {t : Token} (word : Text.IsWordRun t.text) : t.IsInert := by
  constructor
  · intro same
    rw [same] at word
    exact absurd word (by decide)
  · intro same
    rw [same] at word
    exact absurd word (by decide)

theorem text_ne_of_word {t : Token} (word : Text.IsWordRun t.text) {mark : Text}
    (solid : ¬ Text.IsWordRun mark) : t.text ≠ mark := by
  intro same
  rw [same] at word
  exact solid word

theorem word_of_wordRows {words : List Text} (run : ∀ w ∈ words, Text.IsWordRun w)
    {ts : List Token} (row : ts ∈ wordRows words) : ∀ t ∈ ts, Text.IsWordRun t.text := by
  intro t member
  apply run
  rw [← show ts.map Token.text = words from row]
  exact List.mem_map_of_mem member

theorem word_of_lead {ts : List Token} (row : ts ∈ leadRows) : ∀ t ∈ ts, Text.IsWordRun t.text := by
  rcases row with none | ⟨t, rfl, same⟩
  · cases none
    simp
  · simpa [same] using isWordRun_constWord

theorem word_of_sign {sign : Option Sign} {ts : List Token} (row : ts ∈ signRows sign) :
    ∀ t ∈ ts, Text.IsWordRun t.text := by
  cases sign with
  | none =>
    cases row
    simp
  | some sign =>
    rcases row with none | ⟨t, rfl, same⟩
    · cases none
      simp
    · simpa [same] using isWordRun_sign sign

theorem balanced_of_words {ts : List Token} (words : ∀ t ∈ ts, Text.IsWordRun t.text) :
    Balanced ts :=
  balanced_of_inert fun t member => inert_of_word (words t member)

theorem sealed_of_words {ts : List Token} (words : ∀ t ∈ ts, Text.IsWordRun t.text) {mark : Text}
    (solid : ¬ Text.IsWordRun mark) : Sealed mark ts :=
  sealed_of_inert fun t member => text_ne_of_word (words t member) solid

theorem decorationRows_plain {form : Form} {ts : List Token} (row : ts ∈ form.decorationRows)
    (formed : Formed ts) : ∀ t ∈ ts, t.isDecoration ∧ t.kind ≠ .word ∧ t.text ≠ [':', ':'] := by
  have pointer {t : Token} (formed : t.WellFormed) (pointer : t.isPointer) :
      t.isDecoration ∧ t.kind ≠ .word ∧ t.text ≠ [':', ':'] := by
    have cases : t.kind = .array ∨ t.text = ['*'] := by simpa [Token.isPointer] using pointer
    refine ⟨by simp [Token.isDecoration, pointer], ?_⟩
    rcases cases with array | star
    · refine ⟨by simp [array], ?_⟩
      intro same
      rw [formed.kind_of_text same .scope] at array
      cases array
    · rw [formed.kind_of_text star (.mark (by decide)), star]
      simp
  intro t member
  by_cases reference : form.reference
  · rw [Form.decorationRows, if_pos reference] at row
    obtain ⟨u, rfl, same⟩ := row
    rw [List.mem_singleton] at member
    subst member
    rw [(formed t (.head _)).kind_of_text same (.mark (by decide)), same]
    simp [Token.isDecoration, Token.isReference, same]
  · by_cases pointed : form.pointers ≠ 0
    · rw [Form.decorationRows, if_neg reference, if_pos pointed] at row
      exact pointer (formed t member) (row.2 t member)
    · rw [Form.decorationRows, if_neg reference, if_neg pointed] at row
      cases row
      cases member

section

variable {names : Text → List Text}

theorem Form.StandsFor.isWordRun {form : Form} {names : List Text}
    (words : ∀ w ∈ names, Text.IsWordRun w) {sign : Option Sign} {word : Text}
    (stands : form.StandsFor names sign word) : Text.IsWordRun word := by
  rcases stands with ⟨-, listed⟩ | found
  · exact words word listed
  · obtain ⟨before, behind, eq, -⟩ := List.lookup_eq_some_iff.mp found
    exact legacyNames_words ⟨sign, word⟩ (by rw [eq]; simp)

theorem balanced_prefixRows {sign : Option Sign} {ts : List Token} (row : ts ∈ prefixRows sign) :
    Balanced ts ∧ Sealed [','] ts := by
  obtain ⟨front, scopes, s, sign, rfl⟩ := Language.mem_mul.mp row
  have run := word_of_sign sign
  have comma : ¬ Text.IsWordRun [','] := by decide
  exact ⟨scopes.balanced.append (balanced_of_words run),
    scopes.sealed.append scopes.balanced (sealed_of_words run comma)⟩

mutual

theorem Tree.balanced_rows (words : ∀ key, ∀ w ∈ names key, Text.IsWordRun w) :
    (t : Tree) → t.Named → ∀ ts ∈ t.rows names, Formed ts → Balanced ts
  | .mk form path, named => by
    intro ts row formed
    obtain ⟨_, front, decorations, marks, rfl⟩ := Language.mem_mul.mp row
    obtain ⟨lead, const, core, name, rfl⟩ := Language.mem_mul.mp front
    have back : Balanced decorations := balanced_of_inert fun t member =>
      ((formed.append.2 t member).isPlain_of_decoration
        (decorationRows_plain marks formed.append.2 t member).1).inert
    have middle : Balanced core := by
      rcases name with own | ⟨sign, word, stands, other⟩
      · obtain ⟨first, scopes, base, last, rfl⟩ := Language.mem_mul.mp own
        exact (balanced_prefixRows scopes).1.append
          (path.balanced_rows words named base last formed.append.1.append.2.append.2)
      · obtain ⟨first, scopes, base, last, rfl⟩ := Language.mem_mul.mp other
        have run := stands.isWordRun (words form.spelling)
        exact (balanced_prefixRows scopes).1.append
          (balanced_of_words (word_of_wordRows (by simpa using run) last))
    exact ((balanced_of_words (word_of_lead const)).append middle).append back

theorem Path.balanced_rows (words : ∀ key, ∀ w ∈ names key, Text.IsWordRun w) :
    (path : Path) → path.Named → ∀ ts ∈ path.baseRows names, Formed ts → Balanced ts
  | .base s, named => s.balanced_rows words named
  | .inside _ path, named => path.balanced_rows words named.2

theorem Segment.balanced_rows (words : ∀ key, ∀ w ∈ names key, Text.IsWordRun w) :
    (s : Segment) → s.Named → ∀ ts ∈ s.rows names, Formed ts → Balanced ts
  | .plain _, named => fun _ row _ => balanced_of_words (word_of_wordRows named.1 row)
  | .template _ arguments, named => by
    intro ts row formed
    obtain ⟨run, front, _, behind, rfl⟩ := Language.mem_mul.mp row
    obtain ⟨_, ⟨opening, rfl, opens⟩, _, inside, rfl⟩ := Language.mem_mul.mp behind
    obtain ⟨inner, list, _, ⟨closing, rfl, closes⟩, rfl⟩ := Language.mem_mul.mp inside
    have level := arguments.balanced_rows words named.2 inner list formed.append.2.append.2.append.1
    exact (balanced_of_words (word_of_wordRows named.1.1 front)).append
      (level.bracketed opens closes)

theorem Arguments.balanced_rows (words : ∀ key, ∀ w ∈ names key, Text.IsWordRun w) :
    (arguments : Arguments) → arguments.Named → ∀ ts ∈ arguments.rows names, Formed ts → Balanced ts
  | .one t, named => t.balanced_rows words named
  | .cons t rest, named => by
    intro ts row formed
    obtain ⟨type, first, _, behind, rfl⟩ := Language.mem_mul.mp row
    obtain ⟨_, ⟨comma, rfl, same⟩, others, list, rfl⟩ := Language.mem_mul.mp behind
    have inert : comma.IsInert := by simp [Token.IsInert, same]
    have level := rest.balanced_rows words named.2 others list formed.append.2.cons.2
    rw [Balanced, ← nesting_cons inert] at level
    exact (t.balanced_rows words named.1 type first formed.append.1).append level

end

variable (words : ∀ key, ∀ w ∈ names key, Text.IsWordRun w)
include words

theorem Segment.sealed_rows (s : Segment) (named : s.Named) {mark : Text}
    (solid : ¬ Text.IsWordRun mark) (other : mark ≠ ['<']) (other' : mark ≠ ['>']) :
    ∀ ts ∈ s.rows names, Formed ts → Sealed mark ts := by
  intro ts row formed
  cases s with
  | plain run => exact sealed_of_words (word_of_wordRows named.1 row) solid
  | template run arguments =>
    obtain ⟨ws, front, _, behind, rfl⟩ := Language.mem_mul.mp row
    obtain ⟨_, ⟨opening, rfl, opens⟩, _, inside, rfl⟩ := Language.mem_mul.mp behind
    obtain ⟨inner, list, _, ⟨closing, rfl, closes⟩, rfl⟩ := Language.mem_mul.mp inside
    have level := arguments.balanced_rows words named.2 inner list formed.append.2.append.2.append.1
    have run := word_of_wordRows named.1.1 front
    exact (sealed_of_words run solid).append (balanced_of_words run)
      (level.sealed opens closes other other')

theorem Tree.sealed_rows (t : Tree) (named : t.Named) {ts : List Token} (row : ts ∈ t.rows names)
    (formed : Formed ts) : Sealed [','] ts := by
  have comma : ¬ Text.IsWordRun [','] := by decide
  cases t with
  | mk form path =>
    obtain ⟨_, front, decorations, marks, rfl⟩ := Language.mem_mul.mp row
    obtain ⟨lead, const, core, name, rfl⟩ := Language.mem_mul.mp front
    have back : Sealed [','] decorations := sealed_of_inert fun t member =>
      ((formed.append.2 t member).isPlain_of_decoration
        (decorationRows_plain marks formed.append.2 t member).1).2.2
    have middle : Balanced core ∧ Sealed [','] core := by
      rcases name with own | ⟨sign, word, stands, other⟩
      · obtain ⟨first, scopes, base, last, rfl⟩ := Language.mem_mul.mp own
        have formed := formed.append.1.append.2.append.2
        obtain ⟨level, free⟩ := balanced_prefixRows scopes
        rw [path.baseRows_eq] at last
        have segment := path.named_last named
        exact ⟨level.append (path.last.balanced_rows words segment base last formed),
          free.append level (path.last.sealed_rows words segment comma (by decide) (by decide) base
            last formed)⟩
      · obtain ⟨first, scopes, base, last, rfl⟩ := Language.mem_mul.mp other
        have single := stands.isWordRun (words form.spelling)
        have run := word_of_wordRows (by simpa using single) last
        obtain ⟨level, free⟩ := balanced_prefixRows scopes
        exact ⟨level.append (balanced_of_words run),
          free.append level (sealed_of_words run comma)⟩
    have run := word_of_lead const
    exact ((sealed_of_words run comma).append (balanced_of_words run) middle.2).append
      ((balanced_of_words run).append middle.1) back

end

/-! The spellings of the parts of a type. -/

theorem rows_words {words : List Text} (run : ∀ w ∈ words, Text.IsWordRun w) :
    Rows (wordsSpelling words) (wordRows words) := by
  induction words with
  | nil =>
    apply rows_one.mono
    intro ts none _
    cases none
    rfl
  | cons w words ih =>
    obtain ⟨first, others⟩ := List.forall_mem_cons.mp run
    cases words with
    | nil =>
      apply (rows_word first).mono
      intro ts row _
      obtain ⟨t, rfl, same⟩ := row
      exact congrArg (fun text => [text]) same
    | cons v words =>
      have starts := startsApart_mul_of_ne_nil (startsApart_of_blank blank_gap)
        (fun _ some => some.1) (wordsSpelling (v :: words))
      have rest := (rows_blank blank_gap).mul (ih others) (.inl (endsApart_of_blank blank_gap))
      rw [one_mul] at rest
      apply ((rows_word first).mul rest (.inr starts)).mono
      intro ts row _
      obtain ⟨_, ⟨t, rfl, rfl⟩, us, others, rfl⟩ := Language.mem_mul.mp row
      exact congrArg (t.text :: ·) (show us.map Token.text = v :: words from others)

theorem rows_foreignScope : Rows foreignScope scopeRows := by
  have word : Rows wordRun {ts | ∃ t, ts = [t] ∧ Text.IsWordRun t.text} := by
    apply rows_of_lexemes
    intro w run
    exact ⟨.word, .word run.1 run.2, fun gap => ⟨⟨.word, gap, w⟩, rfl, run⟩⟩
  have colons : Rows (exact [':', ':']) (lone [':', ':']) := rows_lone .scope
  apply (rows_maybe (word.mul colons (.inr apart_colons.1))).mono
  intro ts row _
  rcases row with none | some
  · cases none
    exact isScopes_nil
  · obtain ⟨_, ⟨t, rfl, run⟩, _, ⟨c, rfl, same⟩, rfl⟩ := Language.mem_mul.mp some
    have words : ∀ u ∈ [t], Text.IsWordRun u.text := by simpa using run
    have comma : ¬ Text.IsWordRun [','] := by decide
    exact (isScopes_colons same).append (balanced_of_words words) (sealed_of_words words comma)
      (List.cons_ne_nil _ _)

theorem rows_name {L M : Language Char} {R : Language Token} (sign : Option Sign)
    (scopes : Rows L scopeRows) (ends : EndsApart L) (base : Rows M R) :
    Rows (nameSpelling sign L M) (prefixRows sign * R) := by
  have parts := rows_foreignScope.mul ((rows_sign sign).mul (scopes.mul base (.inl ends))
    (.inl (endsApart_signSpelling sign))) (.inl endsApart_foreignScope)
  apply parts.mono
  intro ts row _
  obtain ⟨front, outer, _, behind, rfl⟩ := Language.mem_mul.mp row
  obtain ⟨signed, mark, _, inner, rfl⟩ := Language.mem_mul.mp behind
  obtain ⟨own, scopes, last, tail, rfl⟩ := Language.mem_mul.mp inner
  by_cases none : own = []
  · subst none
    exact Language.mem_mul.mpr ⟨front ++ signed, Language.append_mem_mul outer mark, last, tail,
      by simp⟩
  · obtain ⟨level, free⟩ := balanced_prefixRows (Language.append_mem_mul outer mark)
    have whole := scopes.append level free none
    have unsigned : [] ∈ signRows sign := by
      cases sign with
      | none => rfl
      | some sign => exact .inl rfl
    exact Language.mem_mul.mpr ⟨front ++ signed ++ own,
      Language.mem_mul.mpr ⟨_, whole, [], unsigned, by simp⟩, last, tail, by simp⟩

theorem rows_plainSpaces {L : Language Char} {R : Language Token} (rows : Rows L R) :
    Rows (plainSpace * (L * plainSpace)) R := by
  have spaces := startsApart_of_blank blank_plainSpace
  have parts := (rows_blank blank_plainSpace).mul
    (rows.mul (rows_blank blank_plainSpace) (.inr spaces))
    (.inl (endsApart_of_blank blank_plainSpace))
  rwa [one_mul, mul_one] at parts

theorem rows_pointers : Rows pointersSpelling pointerRows ∧ StartsApart pointersSpelling := by
  have star : StartsApart (exact ['*']) ∧ EndsApart (exact ['*']) := apart_exact (by decide)
  have brackets : StartsApart (exact "[]".toList) ∧ EndsApart (exact "[]".toList) :=
    apart_exact (by decide)
  have lexemes : Rows (exact ['*'] + exact "[]".toList) {ts | ∃ t, ts = [t] ∧ t.isPointer} := by
    apply rows_of_lexemes
    intro w member
    rcases member with same | same
    · cases same
      exact ⟨.mark, .mark (by decide), fun gap => ⟨_, rfl, by simp [Token.isPointer]⟩⟩
    · cases same
      have array : IsLexeme .array "[]".toList := .array (b := []) (by simp)
      exact ⟨.array, array, fun gap => ⟨_, rfl, by simp [Token.isPointer]⟩⟩
  have ends : EndsApart (exact ['*'] + exact "[]".toList) := by
    intro w member
    rcases member with member | member
    · exact star.2 w member
    · exact brackets.2 w member
  have starts : StartsApart (exact ['*'] + exact "[]".toList) := by
    intro w member
    rcases member with member | member
    · exact star.1 w member
    · exact brackets.1 w member
  have powers (n : Nat) :
      Rows ((exact ['*'] + exact "[]".toList) ^ n) {ts | ∀ t ∈ ts, t.isPointer} := by
    induction n with
    | zero =>
      apply rows_one.mono
      intro ts none _
      cases none
      exact List.forall_mem_nil _
    | succ n ih =>
      rw [pow_succ']
      apply (lexemes.mul ih (.inl ends)).mono
      intro ts row _
      obtain ⟨_, ⟨t, rfl, first⟩, us, others, rfl⟩ := Language.mem_mul.mp row
      exact List.forall_mem_cons.mpr ⟨first, others⟩
  have all : Rows (exact ['*'] + exact "[]".toList)∗ {ts | ∀ t ∈ ts, t.isPointer} := by
    intro w member
    rw [Language.kstar_eq_iSup_pow, Language.mem_iSup] at member
    obtain ⟨n, power⟩ := member
    exact powers n w power
  constructor
  · apply (lexemes.mul all (.inl ends)).mono
    intro ts row _
    obtain ⟨_, ⟨t, rfl, first⟩, us, others, rfl⟩ := Language.mem_mul.mp row
    exact ⟨List.cons_ne_nil _ _, List.forall_mem_cons.mpr ⟨first, others⟩⟩
  · apply startsApart_mul_of_ne_nil starts
    intro w member
    rcases member with same | same <;>
    · cases same
      simp

theorem rows_decoration (form : Form) : Rows form.decorationSpelling form.decorationRows ∧
    StartsApart form.decorationSpelling := by
  have spaces := startsApart_of_blank blank_plainSpace
  have reference : StartsApart (exact ['&']) := (apart_exact (by decide)).1
  have amp : Rows (exact ['&']) (lone ['&']) := rows_lone (.mark (by decide))
  unfold Form.decorationSpelling Form.decorationRows
  split
  · exact ⟨rows_plainSpaces amp,
      startsApart_mul spaces (startsApart_mul reference spaces)⟩
  · split
    · exact ⟨rows_plainSpaces rows_pointers.1,
        startsApart_mul spaces (startsApart_mul rows_pointers.2 spaces)⟩
    · refine ⟨rows_one, ?_⟩
      intro w none c head
      cases none
      cases head

theorem rows_others (form : Form) {names : List Text} (words : ∀ w ∈ names, Text.IsWordRun w) :
    Rows (aliasSpellings names ++ form.legacySpellings).sum (form.otherRows names) := by
  apply Rows.sum
  intro L member
  rcases List.mem_append.mp member with typedef | legacy
  · obtain ⟨name, listed, rfl⟩ := List.mem_map.mp typedef
    have single : ∀ w ∈ [name], Text.IsWordRun w := by simpa using words name listed
    apply (rows_foreignScope.mul (rows_words single) (.inl endsApart_foreignScope)).mono
    intro ts row _
    rw [← mul_one scopeRows] at row
    exact ⟨none, name, .inl ⟨rfl, listed⟩, row⟩
  · obtain ⟨⟨sign, word⟩, found, rfl⟩ := List.mem_map.mp legacy
    have stands : form.StandsFor names sign word := .inr (Option.mem_toList.mp found)
    have single : ∀ w ∈ [word], Text.IsWordRun w := by simpa using stands.isWordRun words
    have nothing : Rows 1 scopeRows := by
      apply rows_one.mono
      intro ts none _
      cases none
      exact isScopes_nil
    apply (rows_name sign nothing endsApart_one (rows_words single)).mono
    intro ts row _
    exact ⟨sign, word, stands, row⟩

section

variable {names : Text → List Text}

theorem Path.endsApart_scopesDocumented (path : Path) :
    EndsApart (path.scopesDocumented freeSpace names) := by
  cases path with
  | base s => exact endsApart_one
  | inside s path =>
    apply endsApart_mul_of_ne_nil (endsApart_mul apart_colons.2 path.endsApart_scopesDocumented)
    intro w member
    obtain ⟨_, rfl, v, -, rfl⟩ := Language.mem_mul.mp member
    simp

theorem Path.endsApart_scopes (path : Path) :
    EndsApart (path.scopesSpelling (path.scopesDocumented freeSpace names)) := by
  cases path with
  | base s => exact endsApart_one
  | inside s path =>
    simp only [Path.scopesSpelling]
    split
    · exact endsApart_scopesDocumented _
    · exact (endsApart_scopesDocumented _).maybe

theorem rows_scopesSpelling (path : Path)
    (scopes : Rows (path.scopesDocumented freeSpace names) scopeRows) :
    Rows (path.scopesSpelling (path.scopesDocumented freeSpace names)) scopeRows := by
  have nothing : ∀ ts ∈ (1 : Language Token), Formed ts → ts ∈ scopeRows := by
    intro ts none _
    cases none
    exact isScopes_nil
  cases path with
  | base s => exact rows_one.mono nothing
  | inside s path =>
    simp only [Path.scopesSpelling]
    split
    · exact scopes
    · exact ((rows_one.mono nothing).add scopes).mono fun _ row _ => Or.elim row id id

mutual

theorem Tree.rows_documented (words : ∀ key, ∀ w ∈ names key, Text.IsWordRun w) :
    (t : Tree) → t.Named → Rows (t.documented freeSpace names) (t.rows names)
  | .mk form path, named => by
    have own := rows_name form.sign (rows_scopesSpelling path (path.rows_scopes words named))
      path.endsApart_scopes (path.rows_base words named)
    have other := rows_others form (words form.spelling)
    obtain ⟨decoration, starts⟩ := rows_decoration form
    exact (rows_lead.mul (own.add other) (.inl endsApart_constSpelling)).mul decoration (.inr starts)

theorem Path.rows_scopes (words : ∀ key, ∀ w ∈ names key, Text.IsWordRun w) :
    (path : Path) → path.Named → Rows (path.scopesDocumented freeSpace names) scopeRows
  | .base _, _ => by
    apply rows_one.mono
    intro ts none _
    cases none
    exact isScopes_nil
  | .inside s path, named => by
    have colons : Rows (exact [':', ':']) (lone [':', ':']) := rows_lone .scope
    have starts : StartsApart (exact [':', ':'] * path.scopesDocumented freeSpace names) := by
      apply startsApart_mul_of_ne_nil apart_colons.1
      intro w same
      cases same
      simp
    have parts := (s.rows_documented words named.1).mul
      (colons.mul (path.rows_scopes words named.2) (.inl apart_colons.2)) (.inr starts)
    apply parts.mono
    intro ts row formed
    obtain ⟨front, scope, _, behind, rfl⟩ := Language.mem_mul.mp row
    obtain ⟨_, ⟨c, rfl, same⟩, back, rest, rfl⟩ := Language.mem_mul.mp behind
    have comma : ¬ Text.IsWordRun [','] := by decide
    have level := s.balanced_rows words named.1 front scope formed.append.1
    have free := s.sealed_rows words named.1 comma (by decide) (by decide) front scope
      formed.append.1
    have inner := isScopes_colons same
    by_cases none : back = []
    · subst none
      exact inner.append level free (List.cons_ne_nil _ _)
    · have tail : IsScopes ([c] ++ back) := rest.append inner.balanced inner.sealed none
      exact tail.append level free (List.cons_ne_nil _ _)

theorem Path.rows_base (words : ∀ key, ∀ w ∈ names key, Text.IsWordRun w) :
    (path : Path) → path.Named → Rows (path.baseDocumented freeSpace names) (path.baseRows names)
  | .base s, named => s.rows_documented words named
  | .inside _ path, named => path.rows_base words named.2

theorem Segment.rows_documented (words : ∀ key, ∀ w ∈ names key, Text.IsWordRun w) :
    (s : Segment) → s.Named → Rows (s.documented freeSpace names) (s.rows names)
  | .plain _, named => rows_words named.1
  | .template run arguments, named => by
    have opening : Rows (exact ['<']) (lone ['<']) := rows_lone (.mark (by decide))
    have closing : Rows (exact ['>']) (lone ['>']) := rows_lone (.mark (by decide))
    have free := rows_blank blank_freeSpace
    have starts := startsApart_of_blank blank_freeSpace
    have ends := endsApart_of_blank blank_freeSpace
    have bracket : StartsApart (exact ['<']) ∧ EndsApart (exact ['<']) :=
      apart_exact (by decide)
    have bracket' : StartsApart (exact ['>']) ∧ EndsApart (exact ['>']) :=
      apart_exact (by decide)
    have some : ∀ w ∈ exact ['<'], w ≠ [] := by
      intro w same
      cases same
      simp
    have last := free.mul closing (.inl ends)
    have list := (arguments.rows_documented words named.2).mul last
      (.inr (startsApart_mul starts bracket'.1))
    have inside := opening.mul (free.mul list (.inl ends)) (.inl bracket.2)
    have parts := (rows_words named.1.1).mul (free.mul inside (.inl ends))
      (.inr (startsApart_mul starts (startsApart_mul_of_ne_nil bracket.1 some _)))
    rw [one_mul, one_mul, one_mul] at parts
    exact parts

theorem Arguments.rows_documented (words : ∀ key, ∀ w ∈ names key, Text.IsWordRun w) :
    (arguments : Arguments) → arguments.Named →
      Rows (arguments.documented freeSpace names) (arguments.rows names)
  | .one t, named => t.rows_documented words named
  | .cons t rest, named => by
    have comma : Rows (exact [',']) (lone [',']) := rows_lone (.mark (by decide))
    have mark : StartsApart (exact [',']) ∧ EndsApart (exact [',']) :=
      apart_exact (by decide)
    have some : ∀ w ∈ exact [','], w ≠ [] := by
      intro w same
      cases same
      simp
    have others := (rows_blank blank_freeSpace).mul (rest.rows_documented words named.2)
      (.inl (endsApart_of_blank blank_freeSpace))
    rw [one_mul] at others
    exact (t.rows_documented words named.1).mul (comma.mul others (.inl mark.2))
      (.inr (startsApart_mul_of_ne_nil mark.1 some _))

end

end

end Apidoc.PrintedType
