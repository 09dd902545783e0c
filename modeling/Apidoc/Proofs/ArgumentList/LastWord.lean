import Apidoc.Proofs.ArgumentList.NameReading
import Apidoc.Proofs.PrintedType.Canonical

/-!
The last word of a text without equals sign. It is read as a name where it stands behind a blank or
the mark of a pointer or of a reference, and behind something else in front of that. In a row of
tokens this depends on the last token and on the one in front of it.
-/
namespace Apidoc.ArgumentList

open Page PrintedType Text

/-- A name may stand behind the text. -/
def SetsApart (before : Text) : Prop := 2 ≤ before.length ∧ before.getLast?.any nameGap.accepts

theorem setsApart_iff {before : Text} : SetsApart before ↔
    ∃ front gap, before = front ++ gap ∧ front ≠ [] ∧ gap ≠ [] ∧ ∀ c ∈ gap, nameGap.accepts c := by
  constructor
  · rintro ⟨long, last⟩
    obtain ⟨front, c, rfl⟩ : ∃ front c, before = front ++ [c] :=
      (List.eq_nil_or_concat' before).resolve_left fun none => by simp [none] at long
    refine ⟨front, [c], rfl, ?_, by simp, by simpa using last⟩
    rintro rfl
    simp at long
  · rintro ⟨front, gap, rfl, filled, some, apart⟩
    have long := List.length_pos_iff.mpr filled
    obtain ⟨others, c, rfl⟩ := (List.eq_nil_or_concat' gap).resolve_left some
    refine ⟨by simp; omega, ?_⟩
    rw [← List.append_assoc, List.getLast?_concat, Option.any_some]
    exact apart c (by simp)

theorem ClosesPiece.blank {tail : Text} (closes : ClosesPiece tail) (free : '=' ∉ tail) :
    ∀ c ∈ tail, isBlank c := by
  obtain ⟨space, value, rfl, blank, rfl | ⟨default, rfl, -⟩⟩ := closes
  · simpa using blank
  · exact absurd (by simp) free

theorem Reads.eq_of_solid {u space front gap name tail : Text}
    (reads : Reads (u ++ space) front gap name tail) (free : '=' ∉ u ++ space)
    (solid : ∀ c, u.getLast? = some c → isBlank c = false) (blank : ∀ c ∈ space, isBlank c) :
    u = (front ++ gap) ++ name ∧ space = tail := by
  have parts : u ++ space = ((front ++ gap) ++ name) ++ tail := by
    rw [reads.parts]
    simp
  have behind : ∀ c ∈ tail, isBlank c := by
    refine reads.closes.blank fun member => free ?_
    rw [parts]
    exact List.mem_append_right _ member
  refine span_unique_right blank behind solid ?_ parts
  intro c last
  rw [List.getLast?_append_of_ne_nil _ reads.word.1] at last
  exact isBlank_of_isWord (reads.word.2 c (List.mem_of_getLast? last))

section

variable {before name space : Text}

theorem nameIn?_of_setsApart (apart : SetsApart before) (free : '=' ∉ before)
    (word : IsWordRun name) (blank : ∀ c ∈ space, isBlank c) :
    nameIn? (before ++ name ++ space) =
      if endsType before name then none else some (Identifier.sanitize name) := by
  obtain ⟨front, gap, rfl, filled, some, apart⟩ := setsApart_iff.mp apart
  have closes : ClosesPiece space := ⟨space, [], by simp, blank, .inl rfl⟩
  have reads : Reads (front ++ gap ++ name ++ space) front gap name space :=
    ⟨by simp, filled, ⟨some, apart⟩, word, closes⟩
  exact nameIn?_of_reads reads fun member => free (List.mem_append_left _ member)

theorem nameIn?_eq_none_of_last {u : Text} (free : '=' ∉ u ++ space)
    (solid : ∀ c, u.getLast? = some c → isBlank c = false) (blank : ∀ c ∈ space, isBlank c)
    (never : ∀ before name, u = before ++ name → IsWordRun name → EndsOutside before →
      ¬ SetsApart before) : nameIn? (u ++ space) = none := by
  apply nameIn?_eq_none
  intro front gap name tail reads
  obtain ⟨eq, -⟩ := reads.eq_of_solid free solid blank
  exact never _ _ eq reads.word reads.endsOutside
    (setsApart_iff.mpr ⟨front, gap, rfl, reads.front, reads.gap⟩)

end

theorem exists_last_of_lexeme {kind : Kind} {text : Text} (lexeme : IsLexeme kind text) :
    ∃ front c, text = front ++ [c] ∧ (isWord c ↔ kind = .word) ∧
      (nameGap.accepts c ↔ text = ['*'] ∨ text = ['&']) := by
  cases lexeme with
  | word some all =>
    obtain ⟨front, c, rfl⟩ := (List.eq_nil_or_concat' _).resolve_left some
    have inside := all c (by simp)
    refine ⟨front, c, rfl, by simp [inside], ?_⟩
    constructor
    · intro apart
      rw [isWord_of_nameGap apart] at inside
      cases inside
    · rintro (same | same)
      · exact absurd (all '*' (by simp [same])) (by decide)
      · exact absurd (all '&' (by simp [same])) (by decide)
  | scope => exact ⟨[':'], ':', rfl, by decide, by decide⟩
  | @array b _ =>
    refine ⟨'[' :: b, ']', rfl, by decide, ?_⟩
    have other : ¬ nameGap.accepts ']' := by decide
    simp [other]
  | @mark c mark =>
    have all : ∀ c ∈ marks, (isWord c ↔ Kind.mark = .word) ∧
        (nameGap.accepts c ↔ [c] = ['*'] ∨ [c] = ['&']) := by decide
    exact ⟨[], c, rfl, all c mark⟩

def beforeLast (space : Text) (ts : List Token) (t : Token) : Text :=
  space ++ (rowText ts ++ t.gap)

section

variable {space : Text} (blank : ∀ c ∈ space, isBlank c) {ts : List Token} {t : Token}
  (formed : Formed (ts ++ [t]))
include blank formed

theorem endsOutside_beforeLast (spaced : Spaced (ts ++ [t])) (word : t.kind = .word) :
    EndsOutside (beforeLast space ts t) := by
  have gap := (formed.append.2 t (.head _)).gap
  rw [beforeLast]
  rcases List.eq_nil_or_concat' t.gap with none | ⟨others, c, some⟩
  · rw [none, List.append_nil]
    rcases List.eq_nil_or_concat' ts with rfl | ⟨us, u, rfl⟩
    · simpa [rowText] using endsOutside_of_blank blank
    · have apart : u.Apart t := (List.isChain_append.mp spaced).2.2 u (by simp) t (by simp)
      obtain ⟨front, c, text, kind, -⟩ := exists_last_of_lexeme (formed u (by simp)).lexeme
      have outside : isWord c = false := by
        by_contra inside
        exact apart (kind.mp (by simpa using inside)) word none
      have row : space ++ rowText (us ++ [u]) = (space ++ rowText us ++ u.gap ++ front) ++ [c] := by
        simp [rowText, Token.source, text]
      rw [row]
      exact endsOutside_concat outside
  · rw [some, ← List.append_assoc, ← List.append_assoc]
    exact endsOutside_concat (isWord_of_isBlank (gap c (by simp [some])))

theorem setsApart_beforeLast_iff : SetsApart (beforeLast space ts t) ↔
    2 ≤ (beforeLast space ts t).length ∧
      (t.gap = [] → ∀ u ∈ ts.getLast?, u.text = ['*'] ∨ u.text = ['&']) := by
  have gap := (formed.append.2 t (.head _)).gap
  have last {w : Text} {c : Char} :
      (w ++ [c]).getLast?.any nameGap.accepts = nameGap.accepts c := by
    rw [List.getLast?_concat, Option.any_some]
  refine and_congr_right fun long => ?_
  rw [beforeLast] at long ⊢
  rcases List.eq_nil_or_concat' t.gap with none | ⟨others, c, some⟩
  · rw [none, List.append_nil] at long ⊢
    rcases List.eq_nil_or_concat' ts with rfl | ⟨us, u, rfl⟩
    · obtain ⟨front, c, rfl⟩ : ∃ front c, space = front ++ [c] :=
        (List.eq_nil_or_concat' space).resolve_left fun none => by simp [none, rowText] at long
      have apart : nameGap.accepts c := nameGap_accepts.mpr (.inl (blank c (by simp)))
      simp [rowText, apart]
    · obtain ⟨front, c, text, -, mark⟩ := exists_last_of_lexeme (formed u (by simp)).lexeme
      have row : space ++ rowText (us ++ [u]) = (space ++ rowText us ++ u.gap ++ front) ++ [c] := by
        simp [rowText, Token.source, text]
      rw [row, last, mark]
      simp
  · have apart : nameGap.accepts c := nameGap_accepts.mpr (.inl (gap c (by simp [some])))
    rw [some, ← List.append_assoc, ← List.append_assoc, last]
    simp [apart]

theorem trim_beforeLast : trim (beforeLast space ts t) = trim (rowText ts) :=
  trim_pad blank (formed.append.2 t (.head _)).gap _

theorem exists_const_of_trim (spaced : Spaced (ts ++ [t]))
    (qualified : trim (beforeLast space ts t) = "const".toList) : ∃ c, ts = [c] ∧ c.isConst := by
  rw [trim_beforeLast blank formed] at qualified
  have bare : ∀ c ∈ ([] : Text), isBlank c := by decide
  have spelled := tokens_rowText formed.append.1 (spaced.left_of_append) bare
  rw [List.append_nil] at spelled
  obtain ⟨gap, rfl⟩ := eq_of_trim spelled isWordRun_constWord qualified
  exact ⟨_, rfl, rfl⟩

end

/-- The last token of a row is read as a name. -/
structure IsStray (space : Text) (ts : List Token) (t : Token) : Prop where
  word : t.kind = .word
  ordinary : isTypeWord t.text = false
  apart : SetsApart (beforeLast space ts t)
  unqualified : trim (beforeLast space ts t) ≠ "const".toList

theorem length_le_rowText {ts : List Token} (formed : Formed ts) :
    ts.length ≤ (rowText ts).length := by
  induction ts with
  | nil => exact Nat.zero_le _
  | cons t ts ih =>
    obtain ⟨first, others⟩ := formed.cons
    have some := List.length_pos_iff.mpr first.lexeme.ne_nil
    have rest := ih others
    simp only [List.length_cons, rowText_cons, Token.source, List.length_append]
    omega

theorem isStray_of_behind {space : Text} (blank : ∀ c ∈ space, isBlank c) {ts : List Token}
    {t : Token} (formed : Formed (ts ++ [t])) (spaced : Spaced (ts ++ [t])) (word : t.kind = .word)
    (ordinary : isTypeWord t.text = false) (some : ts ≠ [])
    (touching : t.gap = [] → 2 ≤ ts.length ∧ ∀ u ∈ ts.getLast?, u.text = ['*'] ∨ u.text = ['&'])
    (unqualified : ¬ ∃ c, ts = [c] ∧ c.isConst) : IsStray space ts t := by
  have long : 2 ≤ (beforeLast space ts t).length := by
    have row := length_le_rowText formed.append.1
    have first := List.length_pos_iff.mpr some
    simp only [beforeLast, List.length_append]
    by_cases none : t.gap = []
    · have two := (touching none).1
      omega
    · have behind := List.length_pos_iff.mpr none
      omega
  have apart := (setsApart_beforeLast_iff blank formed).mpr ⟨long, fun none => (touching none).2⟩
  exact ⟨word, ordinary, apart,
    fun same => unqualified (exists_const_of_trim blank formed spaced same)⟩

/-- A row gives its last token as a name, or none. -/
theorem nameIn?_row {space tail : Text} (blank : ∀ c ∈ space, isBlank c) {ts : List Token}
    {t : Token} (formed : Formed (ts ++ [t])) (spaced : Spaced (ts ++ [t]))
    (behind : ∀ c ∈ tail, isBlank c) (free : '=' ∉ space ++ (rowText (ts ++ [t]) ++ tail)) :
    (IsStray space ts t → nameIn? (space ++ (rowText (ts ++ [t]) ++ tail)) =
      some (Identifier.sanitize t.text)) ∧
    (¬ IsStray space ts t → nameIn? (space ++ (rowText (ts ++ [t]) ++ tail)) = none) := by
  have row : space ++ (rowText (ts ++ [t]) ++ tail) = beforeLast space ts t ++ t.text ++ tail := by
    simp [beforeLast, rowText, Token.source]
  rw [row] at free ⊢
  have first : '=' ∉ beforeLast space ts t := fun member =>
    free (List.mem_append_left _ (List.mem_append_left _ member))
  have lexeme := (formed.append.2 t (.head _)).lexeme
  have solid : ∀ c, (beforeLast space ts t ++ t.text).getLast? = some c → isBlank c = false := by
    intro c last
    rw [List.getLast?_append_of_ne_nil _ lexeme.ne_nil] at last
    exact lexeme.last c last
  have run (word : t.kind = .word) : IsWordRun t.text := by
    rw [word] at lexeme
    cases lexeme with
    | word some all => exact ⟨some, all⟩
  refine ⟨?_, ?_⟩
  · intro stray
    rw [nameIn?_of_setsApart stray.apart first (run stray.word) behind,
      endsType_eq stray.unqualified, stray.ordinary]
    rfl
  · intro known
    by_cases word : t.kind = .word
    · have outside := endsOutside_beforeLast blank formed spaced word
      by_cases apart : SetsApart (beforeLast space ts t)
      · have ends : endsType (beforeLast space ts t) t.text := by
          by_contra ordinary
          rw [endsType, Bool.or_eq_true, Bool.or_eq_true, not_or, not_or] at ordinary
          refine known ⟨word, ?_, apart, fun same => ordinary.1.2 (beq_iff_eq.mpr same)⟩
          rw [isTypeWord, eq_false_of_ne_true ordinary.1.1, eq_false_of_ne_true ordinary.2]
          rfl
        rw [nameIn?_of_setsApart apart first (run word) behind, if_pos ends]
      · refine nameIn?_eq_none_of_last free solid behind ?_
        intro before name same named outside'
        obtain ⟨rfl, -⟩ := last_word_unique outside outside' (run word) named same
        exact apart
    · refine nameIn?_eq_none_of_last free solid behind ?_
      intro before name same named
      -- a name would have the last character of the token in it
      obtain ⟨front, c, text, kind, -⟩ := exists_last_of_lexeme lexeme
      obtain ⟨others, d, rfl⟩ := (List.eq_nil_or_concat' name).resolve_left named.1
      have last : (beforeLast space ts t ++ front) ++ [c] = (before ++ others) ++ [d] := by
        simpa [text] using same
      obtain ⟨-, rfl⟩ := List.append_singleton_inj.mp last
      exact absurd (kind.mp (named.2 c (by simp))) word

end Apidoc.ArgumentList
