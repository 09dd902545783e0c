import Apidoc.Proofs.PrintedType.Accepted
import Mathlib.Data.List.Chain

namespace Apidoc.PrintedType

/-- Two words with nothing between them would be one. -/
def Token.Apart (t u : Token) : Prop := t.kind = .word → u.kind = .word → u.gap ≠ []

def Spaced (ts : List Token) : Prop := ts.IsChain Token.Apart

theorem IsLexeme.head {kind : Kind} {text : Text} (lexeme : IsLexeme kind text) :
    ∃ c cs, text = c :: cs ∧ Text.isBlank c = false ∧ (Text.isWord c ↔ kind = .word) := by
  cases lexeme with
  | @word w some all =>
    obtain ⟨c, cs, rfl⟩ := List.exists_cons_of_ne_nil some
    have first := all c (.head _)
    exact ⟨c, cs, rfl, Text.isBlank_of_isWord first, by simp [first]⟩
  | scope => exact ⟨':', [':'], rfl, by decide, by simp [Text.isWord_colon]⟩
  | @array b _ => exact ⟨'[', b ++ [']'], rfl, by decide, by simp [Text.isWord_opening]⟩
  | @mark c mark =>
    exact ⟨c, [], rfl, isBlank_of_mem_marks mark, by simp [isWord_of_mem_marks mark]⟩

theorem lexeme?_append {kind : Kind} {text rest : Text} (lexeme : IsLexeme kind text)
    (ends : kind = .word → ∀ c, rest.head? = some c → Text.isWord c = false) :
    lexeme? (text ++ rest) = some (kind, text, rest) := by
  cases lexeme with
  | word some all => exact lexeme?_of_word some all (ends rfl)
  | scope => rfl
  | @array b blank =>
    have ends : ∀ c, (']' :: rest).head? = some c → Text.isBlank c = false := by
      intro c head
      cases head
      decide
    obtain ⟨taken, left⟩ := Text.span_append blank ends
    have row : '[' :: b ++ [']'] ++ rest = '[' :: (b ++ ']' :: rest) := by simp
    rw [row, lexeme?]
    simp [taken, left]
  | @mark c mark =>
    have solid := isWord_of_mem_marks mark
    have listed : c = '<' ∨ c = '>' ∨ c = ',' ∨ c = '*' ∨ c = '&' := by simpa [marks] using mark
    rcases listed with rfl | rfl | rfl | rfl | rfl <;> simp [lexeme?, solid, marks]

theorem not_isWord_of_lexeme? {s text rest : Text} (found : lexeme? s = some (.word, text, rest)) :
    ∀ c, rest.head? = some c → Text.isWord c = false := by
  unfold lexeme? at found
  split at found
  · cases found
  · cases found
  · split at found <;> cases found
  · split at found
    · rename_i cs _ _ _
      cases found
      intro c head
      have outside := List.head?_dropWhile_not Text.isWord cs
      rw [head] at outside
      exact outside
    · split at found <;> cases found

theorem head_rowText {ts : List Token} {tail : Text} (formed : Formed ts)
    (blank : ∀ c ∈ tail, Text.isBlank c) {c : Char} (head : (rowText ts ++ tail).head? = some c)
    (word : Text.isWord c) : ∃ t us, ts = t :: us ∧ t.kind = .word ∧ t.gap = [] := by
  cases ts with
  | nil =>
    have space := blank c (List.mem_of_mem_head? head)
    rw [Text.isWord_of_isBlank space] at word
    cases word
  | cons t us =>
    obtain ⟨gap, lexeme⟩ := formed.cons.1
    cases before : t.gap with
    | cons d g =>
      rw [rowText_cons, Token.source, before] at head
      cases head
      have space := gap c (by simp [before])
      rw [Text.isWord_of_isBlank space] at word
      cases word
    | nil =>
      obtain ⟨d, cs, text, -, same⟩ := lexeme.head
      rw [rowText_cons, Token.source, before, text] at head
      cases head
      exact ⟨t, us, rfl, same.mp word, before⟩

theorem tokens_blank {s : Text} (blank : ∀ c ∈ s, Text.isBlank c) : tokens s = .ok [] := by
  cases s with
  | nil => exact tokens_nil
  | cons c cs =>
    have none : lexeme? (Text.trimLeft (c :: cs)) = none := by
      have empty : Text.trimLeft (c :: cs) = [] := List.dropWhile_eq_nil_iff.mpr blank
      rw [empty]
      rfl
    have all : Text.allBlank (c :: cs) := List.all_eq_true.mpr blank
    rw [tokens_of_none none, if_pos all]

theorem spaced_of_tokens {s : Text} {ts : List Token} (read : tokens s = .ok ts) : Spaced ts := by
  induction s using tokens.induct generalizing ts with
  | case1 s kind text rest found ih =>
    rw [tokens_of_lexeme found] at read
    cases inner : tokens rest with
    | error c =>
      rw [inner] at read
      cases read
    | ok us =>
      rw [inner] at read
      cases read
      refine List.isChain_cons.mpr ⟨?_, ih inner⟩
      intro u head first word gap
      obtain ⟨us', rfl⟩ := List.head?_eq_some_iff.mp head
      obtain ⟨formed, tail, -, split⟩ := tokens_spell inner
      obtain ⟨c, cs, eq, -, same⟩ := (formed u (.head _)).lexeme.head
      have starts : rest.head? = some c := by
        rw [split, List.flatMap_cons, Token.source, gap, eq]
        rfl
      cases first
      have outside := not_isWord_of_lexeme? found c starts
      rw [same.mpr word] at outside
      cases outside
  | case2 none =>
    rw [tokens_nil] at read
    cases read
    exact .nil
  | case3 c cs none blank =>
    rw [tokens_of_none none, if_pos blank] at read
    cases read
    exact .nil
  | case4 c cs none solid =>
    rw [tokens_of_none none, if_neg solid] at read
    cases read

theorem tokens_source {t : Token} (formed : t.WellFormed) {s : Text}
    (ends : t.kind = .word → ∀ c, s.head? = some c → Text.isWord c = false) :
    tokens (t.source ++ s) = (t :: ·) <$> tokens s := by
  obtain ⟨c, cs, text, solid, -⟩ := formed.lexeme.head
  have starts : ∀ d, (t.text ++ s).head? = some d → Text.isBlank d = false := by
    intro d head
    rw [text] at head
    cases head
    exact solid
  obtain ⟨taken, left⟩ := Text.span_append formed.gap starts
  have found : lexeme? (Text.trimLeft (t.gap ++ (t.text ++ s))) = some (t.kind, t.text, s) := by
    rw [Text.trimLeft, left]
    exact lexeme?_append formed.lexeme ends
  rw [Token.source, List.append_assoc, tokens_of_lexeme found, taken]

theorem tokens_rowText {ts : List Token} (formed : Formed ts) (spaced : Spaced ts) {tail : Text}
    (blank : ∀ c ∈ tail, Text.isBlank c) : tokens (rowText ts ++ tail) = .ok ts := by
  induction ts with
  | nil => exact tokens_blank blank
  | cons t us ih =>
    obtain ⟨first, others⟩ := formed.cons
    obtain ⟨apart, inner⟩ := List.isChain_cons.mp spaced
    have ends : t.kind = .word → ∀ d, (rowText us ++ tail).head? = some d →
        Text.isWord d = false := by
      intro word d head
      by_contra inside
      obtain ⟨u, vs, rfl, kind, gap⟩ := head_rowText others blank head (by simpa using inside)
      exact apart u rfl word kind gap
    rw [rowText_cons, List.append_assoc, tokens_source first ends, ih others inner]
    rfl

/-- A text has these tokens exactly when they are lexemes with blanks between words that spell the
text up to the blanks at its end. -/
theorem tokens_eq_ok_iff {s : Text} {ts : List Token} : tokens s = .ok ts ↔
    Formed ts ∧ Spaced ts ∧ ∃ tail, (∀ c ∈ tail, Text.isBlank c) ∧ s = rowText ts ++ tail := by
  constructor
  · intro read
    exact ⟨(tokens_spell read).1, spaced_of_tokens read, (tokens_spell read).2⟩
  · intro row
    obtain ⟨formed, spaced, tail, blank, rfl⟩ := row
    exact tokens_rowText formed spaced blank

theorem eq_of_trim {s w : Text} {ts : List Token} (spelled : tokens s = .ok ts)
    (word : Text.IsWordRun w) (same : Text.trim s = w) : ∃ gap, ts = [⟨.word, gap, w⟩] := by
  obtain ⟨g, t, front, back, split⟩ := Text.trim_split s
  have formed : Formed [⟨.word, g, w⟩] := by
    intro u member
    rw [List.mem_singleton.mp member]
    exact ⟨front, .word word.1 word.2⟩
  have padded : s = rowText [⟨.word, g, w⟩] ++ t := by
    rw [split, same, rowText_cons, Token.source]
    simp [rowText]
  rw [padded, tokens_rowText formed (List.isChain_singleton _) back] at spelled
  exact ⟨g, (Except.ok.inj spelled).symm⟩

theorem trim_ne_of_parse {s : Text} {tree : Tree} (parsed : parse s = .ok tree) :
    Text.trim s ≠ constWord := by
  intro const
  obtain ⟨ts, spelled, d, derives, -⟩ := parse_eq_ok_iff.mp parsed
  obtain ⟨gap, rfl⟩ := eq_of_trim spelled isWordRun_constWord const
  obtain rfl := derives.eq_of_single
  have other := derives.1.2.1 rfl _ rfl
  cases other

end Apidoc.PrintedType
