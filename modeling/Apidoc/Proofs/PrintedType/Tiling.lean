import Apidoc.Proofs.PrintedType.Spacing

/-!
Tokens lose nothing of a text: they are the lexemes in it, and only blanks stand between them. A text
without tokens is given up behind the last token of its longest part in front that has them.
-/
namespace Apidoc.PrintedType

/-- A text is a sequence of blanks and of these lexemes. A word goes on as far as it can. -/
inductive Tiled : Text → List (Kind × Text) → Prop
  | nil : Tiled [] []
  | blank {c : Char} {s : Text} {lexemes : List (Kind × Text)} (blank : Text.isBlank c)
      (behind : Tiled s lexemes) : Tiled (c :: s) lexemes
  | lexeme {kind : Kind} {w s : Text} {lexemes : List (Kind × Text)} (lexeme : IsLexeme kind w)
      (ends : kind = .word → ∀ c, s.head? = some c → Text.isWord c = false)
      (behind : Tiled s lexemes) : Tiled (w ++ s) ((kind, w) :: lexemes)

theorem Tiled.blanks {g s : Text} {lexemes : List (Kind × Text)} (blank : ∀ c ∈ g, Text.isBlank c)
    (behind : Tiled s lexemes) : Tiled (g ++ s) lexemes := by
  induction g with
  | nil => exact behind
  | cons c g ih =>
    obtain ⟨first, others⟩ := List.forall_mem_cons.mp blank
    exact .blank first (ih others)

/-- Tokens in front of a text, each read as far as it goes. -/
inductive Scans : Text → List Token → Text → Prop
  | done (r : Text) : Scans r [] r
  | token {t : Token} {s r : Text} {ts : List Token} (formed : t.WellFormed)
      (ends : t.kind = .word → ∀ c, s.head? = some c → Text.isWord c = false)
      (behind : Scans s ts r) : Scans (t.source ++ s) (t :: ts) r

def Blocked (r : Text) : Prop := lexeme? (Text.trimLeft r) = none

namespace Scans

variable {s r : Text} {ts : List Token}

theorem formed (scans : Scans s ts r) : Formed ts := by
  induction scans with
  | done r => simp [Formed]
  | token first _ _ ih => exact List.forall_mem_cons.mpr ⟨first, ih⟩

theorem text (scans : Scans s ts r) : s = rowText ts ++ r := by
  induction scans with
  | done r => rfl
  | token _ _ _ ih => rw [rowText_cons, List.append_assoc, ← ih]

theorem tokens_eq (scans : Scans s ts r) : tokens s = (ts ++ ·) <$> tokens r := by
  induction scans with
  | done r => cases tokens r <;> rfl
  | token formed ends _ ih =>
    rw [tokens_source formed ends, ih]
    cases tokens _ <;> rfl

theorem cut (scans : Scans s ts r) {g : Text} (front : g <+: r) : Scans (rowText ts ++ g) ts g := by
  induction scans with
  | done r => exact .done g
  | @token t s r ts formed ends behind ih =>
    rw [rowText_cons, List.append_assoc]
    refine .token formed ?_ (ih front)
    intro word c head
    obtain ⟨x, rfl⟩ := front
    apply ends word c
    rw [behind.text, ← List.append_assoc, List.head?_append, head]
    rfl

theorem tiled (scans : Scans s ts r) (blank : ∀ c ∈ r, Text.isBlank c) :
    Tiled s (ts.map Token.lexeme) := by
  induction scans with
  | done r => simpa using Tiled.nil.blanks blank
  | token formed ends _ ih =>
    rw [Token.source, List.append_assoc]
    exact (Tiled.lexeme formed.lexeme ends (ih blank)).blanks formed.gap

end Scans

theorem exists_scan (s : Text) : ∃ ts r, Scans s ts r ∧ Blocked r := by
  induction s using tokens.induct with
  | case1 s kind w rest found ih =>
    obtain ⟨ts, r, scans, blocked⟩ := ih
    obtain ⟨lexeme, front⟩ := lexeme_of_lexeme? found
    let t : Token := ⟨kind, s.takeWhile Text.isBlank, w⟩
    have formed : t.WellFormed := ⟨fun c member => List.mem_takeWhile_imp member, lexeme⟩
    have ends : kind = .word → ∀ c, rest.head? = some c → Text.isWord c = false := by
      rintro rfl
      exact not_isWord_of_lexeme? found
    have parts : s.takeWhile Text.isBlank ++ Text.trimLeft s = s :=
      List.takeWhile_append_dropWhile
    have row : t.source ++ rest = s := by rw [Token.source, List.append_assoc, ← front, parts]
    have longer := Scans.token formed ends scans
    rw [row] at longer
    exact ⟨t :: ts, r, longer, blocked⟩
  | case2 none => exact ⟨[], [], .done [], none⟩
  | case3 c cs none | case4 c cs none => exact ⟨[], c :: cs, .done _, none⟩

theorem Blocked.tokens_eq {r : Text} (blocked : Blocked r) :
    (Text.allBlank r ∧ tokens r = .ok []) ∨
      ∃ c cs, r = c :: cs ∧ Text.allBlank r = false ∧ tokens r = .error c := by
  cases r with
  | nil => exact .inl ⟨rfl, tokens_nil⟩
  | cons c cs =>
    rw [tokens_of_none blocked]
    cases blank : Text.allBlank (c :: cs) with
    | true => exact .inl ⟨rfl, rfl⟩
    | false => exact .inr ⟨c, cs, rfl, rfl, rfl⟩

theorem Tiled.scans {s : Text} {lexemes : List (Kind × Text)} (tiled : Tiled s lexemes) :
    ∃ ts r, Scans s ts r ∧ (∀ c ∈ r, Text.isBlank c) ∧ ts.map Token.lexeme = lexemes := by
  induction tiled with
  | nil => exact ⟨[], [], .done [], by simp, rfl⟩
  | @blank c s lexemes first behind ih =>
    obtain ⟨ts, r, scans, blank, rfl⟩ := ih
    cases scans with
    | done => exact ⟨[], c :: s, .done _, List.forall_mem_cons.mpr ⟨first, blank⟩, rfl⟩
    | @token t s r ts formed ends behind =>
      have wider : Token.WellFormed ⟨t.kind, c :: t.gap, t.text⟩ :=
        ⟨List.forall_mem_cons.mpr ⟨first, formed.gap⟩, formed.lexeme⟩
      exact ⟨⟨t.kind, c :: t.gap, t.text⟩ :: ts, r, .token wider ends behind, blank, rfl⟩
  | @lexeme kind w s lexemes lexeme ends behind ih =>
    obtain ⟨ts, r, scans, blank, rfl⟩ := ih
    have bare : Token.WellFormed ⟨kind, [], w⟩ := ⟨by simp, lexeme⟩
    exact ⟨⟨kind, [], w⟩ :: ts, r, .token bare ends scans, blank, rfl⟩

theorem Scans.tokens_of_blank {s r : Text} {ts : List Token} (scans : Scans s ts r)
    (blank : ∀ c ∈ r, Text.isBlank c) : tokens s = .ok ts := by
  rw [scans.tokens_eq, tokens_blank blank]
  exact congrArg Except.ok (List.append_nil ts)

theorem scans_of_tokens {s : Text} {ts : List Token} (read : tokens s = .ok ts) :
    ∃ r, Scans s ts r ∧ ∀ c ∈ r, Text.isBlank c := by
  obtain ⟨us, r, scans, blocked⟩ := exists_scan s
  rcases blocked.tokens_eq with ⟨blank, -⟩ | ⟨c, cs, -, -, stops⟩
  · have all := List.all_eq_true.mp blank
    rw [scans.tokens_of_blank all] at read
    exact Except.ok.inj read ▸ ⟨r, scans, all⟩
  · rw [scans.tokens_eq, stops] at read
    cases read

/-- The lexemes of a text are those of its tokens. -/
theorem tiled_iff {s : Text} {lexemes : List (Kind × Text)} :
    Tiled s lexemes ↔ ∃ ts, tokens s = .ok ts ∧ ts.map Token.lexeme = lexemes := by
  constructor
  · intro tiled
    obtain ⟨ts, r, scans, blank, same⟩ := tiled.scans
    exact ⟨ts, scans.tokens_of_blank blank, same⟩
  · rintro ⟨ts, read, rfl⟩
    obtain ⟨r, scans, blank⟩ := scans_of_tokens read
    exact scans.tiled blank

/-! The spans of tokens. -/

theorem le_of_mem_spansFrom {ts : List Token} {n : Nat} :
    ∀ p ∈ spansFrom n ts, n ≤ p.1 := by
  induction ts generalizing n with
  | nil => simp [spansFrom]
  | cons t ts ih =>
    intro p member
    rcases List.mem_cons.mp member with rfl | member
    · exact Nat.le_add_right _ _
    · have behind := ih p member
      omega

theorem pairwise_spansFrom (n : Nat) (ts : List Token) :
    (spansFrom n ts).Pairwise fun p q => p.2 ≤ q.1 := by
  induction ts generalizing n with
  | nil => exact .nil
  | cons t ts ih => exact .cons le_of_mem_spansFrom (ih _)

theorem end_spansFrom (n : Nat) (ts : List Token) :
    ((spansFrom n ts).getLast?.map Prod.snd).getD n = n + (rowText ts).length := by
  induction ts generalizing n with
  | nil => rfl
  | cons t ts ih =>
    have last (o : Option (Nat × Nat)) (p : Nat × Nat) :
        ((some (o.getD p)).map Prod.snd).getD n = (o.map Prod.snd).getD p.2 := by
      cases o <;> rfl
    rw [spansFrom, List.getLast?_cons, last, ih, rowText_cons, Token.source, List.length_append,
      List.length_append]
    omega

theorem spells_spansFrom (front : Text) {ts : List Token} (formed : Formed ts) {s tail : Text}
    (row : s = front ++ (rowText ts ++ tail)) :
    List.Forall₂ (fun t p => p.1 < p.2 ∧ p.2 ≤ s.length ∧ s.extract p.1 p.2 = t.text) ts
      (spansFrom front.length ts) := by
  induction ts generalizing front with
  | nil => exact .nil
  | cons t ts ih =>
    obtain ⟨first, others⟩ := formed.cons
    have split : s = (front ++ t.gap) ++ (t.text ++ (rowText ts ++ tail)) := by
      rw [row, rowText_cons, Token.source]
      simp
    have start : (front ++ t.gap).length = front.length + t.gap.length := List.length_append
    have some := List.length_pos_iff.mpr first.lexeme.ne_nil
    refine .cons ⟨?_, ?_, ?_⟩ ?_
    · omega
    · rw [split]
      simp only [List.length_append]
      omega
    · rw [split, ← start, List.extract_eq_take_drop, List.drop_left, Nat.add_sub_cancel_left,
        List.take_left]
    · have inner := ih (front ++ t.gap ++ t.text) others (by rw [split]; simp)
      rwa [List.length_append, start] at inner

theorem isBlank_outside (front : Text) {ts : List Token} (formed : Formed ts) {tail : Text}
    (blank : ∀ c ∈ tail, Text.isBlank c) {i : Nat} (behind : front.length ≤ i) {c : Char}
    (here : (front ++ (rowText ts ++ tail))[i]? = some c)
    (outside : ∀ p ∈ spansFrom front.length ts, i < p.1 ∨ p.2 ≤ i) : Text.isBlank c := by
  induction ts generalizing front with
  | nil =>
    rw [List.getElem?_append_right behind] at here
    exact blank c (List.mem_of_getElem? here)
  | cons t ts ih =>
    obtain ⟨first, others⟩ := formed.cons
    rcases outside _ (.head _) with before | after
    · have gap : (t.gap ++ (t.text ++ (rowText ts ++ tail)))[i - front.length]? = some c := by
        rw [List.getElem?_append_right behind, rowText_cons, Token.source] at here
        simpa using here
      rw [List.getElem?_append_left (by omega)] at gap
      exact first.gap c (List.mem_of_getElem? gap)
    · have start : (front ++ t.source).length = front.length + t.gap.length + t.text.length := by
        simp [Token.source, Nat.add_assoc]
      refine ih (front ++ t.source) others (by omega) ?_ ?_
      · rw [← here, rowText_cons]
        simp
      · rw [start]
        exact fun p member => outside p (.tail _ member)

def endOf (ts : List Token) : Nat := ((spans ts).getLast?.map Prod.snd).getD 0

theorem endOf_eq (ts : List Token) : endOf ts = (rowText ts).length := by
  rw [endOf, spans, end_spansFrom, Nat.zero_add]

/-! Where no token starts, none starts in a part of the text that goes on from there. -/

theorem lexeme?_of_isWord {c : Char} (word : Text.isWord c) (s : Text) :
    ∃ w rest, lexeme? (c :: s) = some (.word, w, rest) := by
  have some : (c :: s).takeWhile Text.isWord ≠ [] := by simp [word]
  have ends : ∀ d, ((c :: s).dropWhile Text.isWord).head? = Option.some d →
      Text.isWord d = false := by
    intro d head
    have outside := List.head?_dropWhile_not Text.isWord (c :: s)
    rwa [head] at outside
  have found := lexeme?_of_word some (fun d member => List.mem_takeWhile_imp member) ends
  rw [List.takeWhile_append_dropWhile] at found
  exact ⟨_, _, found⟩

theorem lexeme?_front {x y : Text} (absent : lexeme? (x ++ y) = none) : lexeme? x = none := by
  cases found : lexeme? x with
  | none => rfl
  | some parts =>
    obtain ⟨kind, w, rest⟩ := parts
    obtain ⟨lexeme, rfl⟩ := lexeme_of_lexeme? found
    rw [List.append_assoc] at absent
    by_cases word : kind = .word
    · subst word
      obtain ⟨c, cs, rfl, -, first⟩ := lexeme.head
      obtain ⟨v, tail, longer⟩ := lexeme?_of_isWord (first.mpr rfl) (cs ++ (rest ++ y))
      rw [List.cons_append, longer] at absent
      cases absent
    · rw [lexeme?_append lexeme fun same => absurd same word] at absent
      cases absent

/-- The longest front of a text that is a sequence of blanks and lexemes. -/
structure IsLongestTiled (p s : Text) : Prop where
  front : p <+: s
  tiled : ∃ lexemes, Tiled p lexemes
  longest : ∀ q, q <+: s → (∃ lexemes, Tiled q lexemes) → q <+: p

theorem Scans.isLongestTiled {s r : Text} {ts : List Token} (scans : Scans s ts r)
    (blocked : Blocked r) : IsLongestTiled (rowText ts ++ r.takeWhile Text.isBlank) s := by
  have blank : ∀ c ∈ r.takeWhile Text.isBlank, Text.isBlank c :=
    fun c member => List.mem_takeWhile_imp member
  have parts : r.takeWhile Text.isBlank ++ Text.trimLeft r = r := List.takeWhile_append_dropWhile
  have front : rowText ts ++ r.takeWhile Text.isBlank <+: s := by
    rw [scans.text]
    exact (List.prefix_append_right_inj _).mpr (List.takeWhile_prefix _)
  refine ⟨front, ⟨_, (scans.cut (List.takeWhile_prefix _)).tiled blank⟩, ?_⟩
  rintro q fits ⟨lexemes, tiled⟩
  rcases List.prefix_or_prefix_of_prefix fits front with shorter | ⟨x, rfl⟩
  · exact shorter
  cases x with
  | nil => rw [List.append_nil]
  | cons d e =>
    -- a longer front has the same tokens up to the place where none starts
    rw [List.append_assoc] at fits tiled
    have inside : r.takeWhile Text.isBlank ++ d :: e <+: r := by
      rw [scans.text] at fits
      exact (List.prefix_append_right_inj _).mp fits
    have next : r.takeWhile Text.isBlank ++ d :: e <+:
        r.takeWhile Text.isBlank ++ Text.trimLeft r := parts.symm ▸ inside
    obtain ⟨y, behind⟩ := (List.prefix_append_right_inj _).mp next
    have solid : Text.isBlank d = false := by
      have outside := List.head?_dropWhile_not Text.isBlank r
      rw [show r.dropWhile Text.isBlank = d :: e ++ y from behind.symm] at outside
      exact outside
    have starts : ∀ c, (d :: e).head? = some c → Text.isBlank c = false := by
      intro c head
      cases head
      exact solid
    have still : Blocked (r.takeWhile Text.isBlank ++ d :: e) := by
      rw [Blocked, Text.trimLeft, (Text.span_append blank starts).2]
      rw [Blocked, ← behind] at blocked
      exact lexeme?_front blocked
    obtain ⟨us, read, -⟩ := tiled_iff.mp tiled
    rcases still.tokens_eq with ⟨all, -⟩ | ⟨c, cs, -, -, stops⟩
    · have member := List.all_eq_true.mp all d (by simp)
      rw [solid] at member
      cases member
    · rw [(scans.cut inside).tokens_eq, stops] at read
      cases read

/-! What the tokens of a text are, and what its error is. -/

/-- The lexemes of a text and where they stand. -/
structure IsTiling (s : Text) (ts : List Token) : Prop where
  lexemes : ∀ lexemes, Tiled s lexemes ↔ lexemes = ts.map Token.lexeme
  spelled : List.Forall₂
    (fun t p => p.1 < p.2 ∧ p.2 ≤ s.length ∧ s.extract p.1 p.2 = t.text) ts (spans ts)
  apart : (spans ts).Pairwise fun p q => p.2 ≤ q.1
  outside : ∀ i c, s[i]? = some c → (∀ p ∈ spans ts, i < p.1 ∨ p.2 ≤ i) → Text.isBlank c

/-- The character that a text without tokens is given up at. -/
structure StopsAt (s : Text) (c : Char) : Prop where
  untiled : ∀ lexemes, ¬ Tiled s lexemes
  place : ∃ p ts, IsLongestTiled p s ∧ tokens p = .ok ts ∧ s[endOf ts]? = some c
  report : parse s = .error (.unexpectedCharacter c)

theorem isTiling_of_tokens {s : Text} {ts : List Token} (read : tokens s = .ok ts) : IsTiling s ts := by
  obtain ⟨r, scans, blank⟩ := scans_of_tokens read
  obtain rfl := scans.text
  refine ⟨?_, spells_spansFrom [] scans.formed rfl, pairwise_spansFrom 0 ts, ?_⟩
  · intro lexemes
    rw [tiled_iff]
    constructor
    · rintro ⟨us, again, rfl⟩
      rw [Except.ok.inj (read.symm.trans again)]
    · rintro rfl
      exact ⟨ts, read, rfl⟩
  · intro i c here outside
    exact isBlank_outside [] scans.formed blank (Nat.zero_le i) here outside

theorem stopsAt_of_tokens {s : Text} {c : Char} (stops : tokens s = .error c) : StopsAt s c := by
  obtain ⟨ts, r, scans, blocked⟩ := exists_scan s
  rcases blocked.tokens_eq with ⟨-, read⟩ | ⟨d, cs, rfl, -, fails⟩
  · rw [scans.tokens_eq, read] at stops
    cases stops
  · have same : tokens s = .error d := by
      rw [scans.tokens_eq, fails]
      rfl
    obtain rfl : d = c := Except.error.inj (same.symm.trans stops)
    refine ⟨?_, ⟨_, ts, scans.isLongestTiled blocked, ?_, ?_⟩, ?_⟩
    · intro lexemes tiled
      obtain ⟨us, read, -⟩ := tiled_iff.mp tiled
      rw [stops] at read
      cases read
    · exact (scans.cut (List.takeWhile_prefix _)).tokens_of_blank
        fun c member => List.mem_takeWhile_imp member
    · rw [endOf_eq, scans.text]
      simp
    · rw [parse, stops]

/-- Every text is cut into tokens or given up. It has tokens exactly when it is a sequence of blanks
and lexemes; then the tokens are these lexemes, with their spans, and all else is blank. Otherwise
the error is the character behind the last token of the longest front that has tokens. -/
theorem tokens_tile (s : Text) :
    ((∃ ts, tokens s = .ok ts) ↔ ∃ lexemes, Tiled s lexemes) ∧
      match tokens s with
      | .ok ts => IsTiling s ts
      | .error c => StopsAt s c := by
  refine ⟨?_, ?_⟩
  · constructor
    · rintro ⟨ts, read⟩
      exact ⟨_, tiled_iff.mpr ⟨ts, read, rfl⟩⟩
    · rintro ⟨lexemes, tiled⟩
      obtain ⟨ts, read, -⟩ := tiled_iff.mp tiled
      exact ⟨ts, read⟩
  · split
    · rename_i ts read
      exact isTiling_of_tokens read
    · rename_i c stops
      exact stopsAt_of_tokens stops

end Apidoc.PrintedType
