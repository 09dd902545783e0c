import Apidoc.PrintedType.Token
import Apidoc.Proofs.Text.Character
import Mathlib.Data.List.TakeWhile

namespace Apidoc.PrintedType

inductive IsLexeme : Kind → Text → Prop
  | word {w : Text} (some : w ≠ []) (word : ∀ c ∈ w, Text.isWord c) : IsLexeme .word w
  | scope : IsLexeme .scope [':', ':']
  | array {b : Text} (blank : ∀ c ∈ b, Text.isBlank c) : IsLexeme .array ('[' :: b ++ [']'])
  | mark {c : Char} (mark : c ∈ marks) : IsLexeme .mark [c]

structure Token.WellFormed (t : Token) : Prop where
  gap : ∀ c ∈ t.gap, Text.isBlank c
  lexeme : IsLexeme t.kind t.text

theorem IsLexeme.ne_nil {kind : Kind} {text : Text} (lexeme : IsLexeme kind text) :
    text ≠ [] := by
  cases lexeme with
  | word some => exact some
  | scope | array | mark => exact List.cons_ne_nil _ _

theorem isWord_of_mem_marks {c : Char} (mark : c ∈ marks) : Text.isWord c = false := by
  revert c
  decide

theorem isBlank_of_mem_marks {c : Char} (mark : c ∈ marks) : Text.isBlank c = false := by
  revert c
  decide

theorem IsLexeme.kind_eq {kind kind' : Kind} {text : Text} (first : IsLexeme kind text)
    (second : IsLexeme kind' text) : kind = kind' := by
  have bracket : Text.isWord '[' = false := by decide
  have colon : Text.isWord ':' = false := by decide
  cases first with
  | word _ all =>
    cases second with
    | word => rfl
    | scope => simp [colon] at all
    | array => simp [bracket] at all
    | mark mark => simp [isWord_of_mem_marks mark] at all
  | scope =>
    cases second with
    | word _ all => simp [colon] at all
    | scope => rfl
  | array =>
    generalize eq : '[' :: _ ++ [']'] = w at second
    cases second with
    | word _ all => simp [← eq, bracket] at all
    | scope => simp at eq
    | array => rfl
    | mark => simp at eq
  | mark mark =>
    generalize eq : [_] = w at second
    cases second with
    | word _ all => simp [← eq, isWord_of_mem_marks mark] at all
    | scope => simp at eq
    | array => simp at eq
    | mark => rfl

theorem lexeme_of_lexeme? {s : Text} {kind : Kind} {text rest : Text}
    (h : lexeme? s = some (kind, text, rest)) : IsLexeme kind text ∧ s = text ++ rest := by
  unfold lexeme? at h
  split at h
  · cases h
  · cases h
    exact ⟨.scope, rfl⟩
  · rename_i cs
    split at h
    · rename_i r closed
      cases h
      refine ⟨.array fun c member => List.mem_takeWhile_imp member, ?_⟩
      have parts : cs.takeWhile Text.isBlank ++ cs.dropWhile Text.isBlank = cs :=
        List.takeWhile_append_dropWhile
      rw [closed] at parts
      simp [parts]
    · cases h
  · rename_i c cs _ _
    split at h
    · rename_i word
      cases h
      refine ⟨.word (List.cons_ne_nil _ _) ?_, by simp⟩
      intro d member
      rcases List.mem_cons.mp member with same | member
      · exact same ▸ word
      · exact List.mem_takeWhile_imp member
    · split at h
      · rename_i mark
        cases h
        exact ⟨.mark (by simpa using mark), rfl⟩
      · cases h

theorem tokens_of_lexeme {s : Text} {kind : Kind} {text rest : Text}
    (found : lexeme? (Text.trimLeft s) = some (kind, text, rest)) :
    tokens s = (⟨kind, s.takeWhile Text.isBlank, text⟩ :: ·) <$> tokens rest := by
  rw [tokens]
  split
  · rename_i same
    rw [found] at same
    cases same
    rfl
  · rename_i none
    rw [found] at none
    cases none

theorem tokens_of_none {c : Char} {cs : Text} (none : lexeme? (Text.trimLeft (c :: cs)) = none) :
    tokens (c :: cs) = if Text.allBlank (c :: cs) then .ok [] else .error c := by
  rw [tokens]
  split
  · rename_i found
    rw [none] at found
    cases found
  · rfl

theorem lexeme?_of_word {w rest : Text} (some : w ≠ []) (word : ∀ c ∈ w, Text.isWord c)
    (ends : ∀ c, rest.head? = .some c → Text.isWord c = false) :
    lexeme? (w ++ rest) = .some (.word, w, rest) := by
  cases w with
  | nil => exact absurd rfl some
  | cons c w =>
    obtain ⟨first, others⟩ := List.forall_mem_cons.mp word
    have colon := Text.ne_of_isWord first Text.isWord_colon
    have bracket := Text.ne_of_isWord first Text.isWord_opening
    have taken : (w ++ rest).takeWhile Text.isWord = w := by
      rw [List.takeWhile_append_of_pos others]
      cases rest with
      | nil => simp
      | cons d rest => simp [ends d rfl]
    have left : (w ++ rest).dropWhile Text.isWord = rest := by
      rw [List.dropWhile_append_of_pos others]
      cases rest with
      | nil => simp
      | cons d rest => simp [ends d rfl]
    rw [List.cons_append, lexeme?.eq_def]
    split
    · contradiction
    · rename_i same
      exact absurd (List.cons.inj same).1 colon
    · rename_i same
      exact absurd (List.cons.inj same).1 bracket
    · rename_i same
      obtain ⟨rfl, rfl⟩ := List.cons.inj same
      rw [if_pos first, taken, left]

theorem tokens_nil : tokens [] = .ok [] := by
  rw [tokens]
  rfl

theorem tokens_eq_cons {s gap text rest : Text} {kind : Kind} {ts : List Token}
    (found : lexeme? (Text.trimLeft s) = some (kind, text, rest))
    (blank : s.takeWhile Text.isBlank = gap) (others : tokens rest = .ok ts) :
    tokens s = .ok (⟨kind, gap, text⟩ :: ts) := by
  rw [tokens_of_lexeme found, others, blank]
  rfl

/-- Whether the tokens are read one after another until nothing is left of the text. -/
def readsRow : Text → List Token → Bool
  | s, [] => s.isEmpty
  | s, t :: ts =>
    match lexeme? (Text.trimLeft s) with
    | some (kind, text, rest) => t == ⟨kind, s.takeWhile Text.isBlank, text⟩ && readsRow rest ts
    | none => false

theorem tokens_of_readsRow {s : Text} {ts : List Token} (reads : readsRow s ts) :
    tokens s = .ok ts := by
  induction ts generalizing s with
  | nil =>
    rw [List.isEmpty_iff.mp reads]
    exact tokens_nil
  | cons t ts ih =>
    rw [readsRow] at reads
    split at reads
    · rename_i kind text rest found
      obtain ⟨first, others⟩ := Bool.and_eq_true_iff.mp reads
      rw [eq_of_beq first]
      exact tokens_eq_cons found rfl (ih others)
    · cases reads

theorem tokens_of_word {w : Text} (some : w ≠ []) (word : ∀ c ∈ w, Text.isWord c) :
    tokens w = .ok [⟨.word, [], w⟩] := by
  have solid : ∀ c, w.head? = .some c → Text.isBlank c = false := fun c head =>
    Text.isBlank_of_isWord (word c (List.mem_of_mem_head? head))
  have alone : ∀ c, ([] : Text).head? = .some c → Text.isWord c = false :=
    fun _ none => nomatch none
  have lexed := lexeme?_of_word some word alone
  rw [List.append_nil] at lexed
  have gap : w.takeWhile Text.isBlank = [] := by
    cases w with
    | nil => rfl
    | cons c w => simp [solid c rfl]
  have found : lexeme? (Text.trimLeft w) = .some (.word, w, []) := by
    rw [Text.trimLeft_of_solid solid]
    exact lexed
  exact tokens_eq_cons found gap tokens_nil

theorem tokens_spell {s : Text} {ts : List Token} (h : tokens s = .ok ts) :
    (∀ t ∈ ts, t.WellFormed) ∧
      ∃ tail, (∀ c ∈ tail, Text.isBlank c) ∧ s = ts.flatMap Token.source ++ tail := by
  induction s using tokens.induct generalizing ts with
  | case1 s kind text rest found ih =>
    rw [tokens_of_lexeme found] at h
    cases inner : tokens rest with
    | error c =>
      rw [inner] at h
      cases h
    | ok us =>
      rw [inner] at h
      cases h
      obtain ⟨formed, tail, blank, split⟩ := ih inner
      obtain ⟨lexeme, front⟩ := lexeme_of_lexeme? found
      refine ⟨?_, tail, blank, ?_⟩
      · intro t member
        rcases List.mem_cons.mp member with same | member
        · exact same ▸ ⟨fun c member => List.mem_takeWhile_imp member, lexeme⟩
        · exact formed t member
      · have parts : s.takeWhile Text.isBlank ++ Text.trimLeft s = s :=
          List.takeWhile_append_dropWhile
        rw [front] at parts
        rw [List.flatMap_cons, Token.source, List.append_assoc, ← split, List.append_assoc, parts]
  | case2 none =>
    rw [tokens] at h
    cases h
    exact ⟨by simp, [], by simp, rfl⟩
  | case3 c cs none blank =>
    rw [tokens_of_none none, if_pos blank] at h
    cases h
    exact ⟨by simp, c :: cs, List.all_eq_true.mp blank, rfl⟩
  | case4 c cs none solid =>
    rw [tokens_of_none none, if_neg solid] at h
    cases h

end Apidoc.PrintedType
