import Apidoc.Proofs.PrintedType.Spacing

/-!
Where no brackets stand, the canonical spelling of a text is its lexemes one behind the other, with a
space between two words. So it tells as much of the text as the lexemes do.
-/
namespace Apidoc.PrintedType

/-- Lexemes one behind the other, with one space between two words and none elsewhere. -/
def joined : List (Kind × Text) → Text
  | [] => []
  | [l] => l.2
  | l :: m :: ls =>
    l.2 ++ ((if l.1 = .word ∧ m.1 = .word then [' '] else []) ++ joined (m :: ls))

theorem rowText_neatRow_eq_joined (glued : Bool) {ts : List Token} (formed : Formed ts)
    (spaced : Spaced ts) (plain : ∀ t ∈ ts, t.kind ≠ .array)
    (first : glued = false → ∀ t, ts.head? = some t → t.kind = .word → t.gap ≠ []) :
    rowText (neatRow glued ts) =
      (if glued = false ∧ ts.head?.map Token.kind = some .word then [' '] else []) ++
        joined (ts.map Token.lexeme) := by
  induction ts generalizing glued with
  | nil => simp [neatRow, rowText, joined]
  | cons t ts ih =>
    obtain ⟨here, others⟩ := formed.cons
    obtain ⟨other, rest⟩ := List.forall_mem_cons.mp plain
    obtain ⟨apart, inner⟩ := List.isChain_cons.mp spaced
    have behind := ih t.isTight others inner rest fun loose u head =>
      apart u head (Token.word_of_loose other loose)
    have tight : t.isTight = false ↔ t.kind = .word := by
      refine ⟨Token.word_of_loose other, ?_⟩
      intro word
      simp [Token.isTight, word]
    have gap : t.neatGap glued =
        if glued = false ∧ (t :: ts).head?.map Token.kind = some .word then [' '] else [] := by
      rw [Token.neatGap_eq other fun loose => first loose t rfl]
      cases glued <;> cases loose : t.isTight <;> simp_all
    rw [rowText_neatRow_cons, here.lexeme.collapse_eq other, gap, behind]
    cases ts with
    | nil => simp [joined, Token.lexeme]
    | cons u ts => simp [joined, Token.lexeme, tight]

theorem map_lexeme_neatRow {ts : List Token} (formed : Formed ts)
    (plain : ∀ t ∈ ts, t.kind ≠ .array) (glued : Bool) :
    (neatRow glued ts).map Token.lexeme = ts.map Token.lexeme := by
  induction ts generalizing glued with
  | nil => rfl
  | cons t ts ih =>
    obtain ⟨here, others⟩ := formed.cons
    obtain ⟨other, rest⟩ := List.forall_mem_cons.mp plain
    rw [neatRow, List.map_cons, List.map_cons, ih others rest, Token.lexeme, Token.lexeme,
      here.lexeme.collapse_eq other]

section

variable {s : Text} {ts : List Token} (spelled : tokens s = .ok ts)
  (plain : ∀ t ∈ ts, t.kind ≠ .array)
include spelled plain

theorem canonical_eq_joined : canonical s = joined (ts.map Token.lexeme) := by
  obtain ⟨formed, spaced, tail, blank, rfl⟩ := tokens_eq_ok_iff.mp spelled
  rw [canonical_rowText formed blank, rowText_neatRow_eq_joined true formed spaced plain nofun]
  simp

theorem lexemes_canonical :
    ∃ us, tokens (canonical s) = .ok us ∧ us.map Token.lexeme = ts.map Token.lexeme :=
  ⟨_, tokens_canonical spelled, map_lexeme_neatRow (tokens_spell spelled).1 plain true⟩

/-- The canonical spelling of a text without brackets is made of its lexemes alone, and has the same
lexemes. So two such texts have one canonical spelling exactly when they have the same lexemes. -/
theorem canonical_tokens :
    canonical s = joined (ts.map Token.lexeme) ∧
      (∃ us, tokens (canonical s) = .ok us ∧ us.map Token.lexeme = ts.map Token.lexeme) ∧
      ∀ s' ts', tokens s' = .ok ts' → (∀ t ∈ ts', t.kind ≠ .array) →
        (canonical s' = canonical s ↔ ts'.map Token.lexeme = ts.map Token.lexeme) := by
  refine ⟨canonical_eq_joined spelled plain, lexemes_canonical spelled plain, ?_⟩
  intro s' ts' spelled' plain'
  constructor
  · intro same
    obtain ⟨us, read, lexemes⟩ := lexemes_canonical spelled plain
    obtain ⟨us', read', lexemes'⟩ := lexemes_canonical spelled' plain'
    rw [same, read] at read'
    rw [← lexemes, ← lexemes', Except.ok.inj read']
  · intro same
    rw [canonical_eq_joined spelled plain, canonical_eq_joined spelled' plain', same]

end

def qualifiedRow (gaps : Nat → Text) : List Token :=
  [⟨.word, gaps 0, "std".toList⟩, ⟨.scope, gaps 1, "::".toList⟩, ⟨.word, gaps 2, "map".toList⟩,
    ⟨.mark, gaps 3, ['<']⟩, ⟨.word, gaps 4, "unsigned".toList⟩, ⟨.word, gaps 5, "int".toList⟩,
    ⟨.mark, gaps 6, [',']⟩, ⟨.word, gaps 7, "QString".toList⟩, ⟨.word, gaps 8, "const".toList⟩,
    ⟨.mark, gaps 9, ['&']⟩, ⟨.mark, gaps 10, ['>']⟩]

theorem canonical_tokens_qualified :
    let loose := " std :: map< unsigned\u00a0 int,QString  const& >".toList
    let other := "std::map<unsigned int, QString const &>".toList
    let row := "std::map<unsigned int,QString const&>".toList
    canonical loose = row ∧ canonical other = row := by
  intro loose other row
  have wide : tokens loose = .ok (qualifiedRow fun i => match i with
      | 0 | 1 | 2 | 4 | 10 => [' ']
      | 5 => ['\u00a0', ' ']
      | 8 => [' ', ' ']
      | _ => []) :=
    tokens_of_readsRow (by decide)
  have tight : tokens other = .ok (qualifiedRow fun i => if i ∈ [5, 7, 8, 9] then [' '] else []) :=
    tokens_of_readsRow (by decide)
  obtain ⟨spelled, -, others⟩ := canonical_tokens wide (by decide)
  have same := (others other _ tight (by decide)).mpr rfl
  have row_eq : canonical loose = row := spelled
  exact ⟨row_eq, same.trans row_eq⟩

end Apidoc.PrintedType
