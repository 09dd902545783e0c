import Apidoc.Proofs.PrintedType.Row

namespace Apidoc

namespace Text

theorem collapse_append {u v : Text} (solid : ∀ c, v.head? = some c → isBlank c = false) :
    collapse (u ++ v) = collapse u ++ collapse v := by
  induction u with
  | nil => rfl
  | cons c u ih =>
    have next : (u ++ v).head?.any isBlank = u.head?.any isBlank := by
      cases u with
      | cons d u => rfl
      | nil =>
        cases v with
        | nil => rfl
        | cons d v => simp [solid d rfl]
    simp only [List.cons_append, collapse, next, ih]
    split
    · split <;> rfl
    · rfl

theorem collapse_solid {u : Text} (solid : ∀ c ∈ u, isBlank c = false) (v : Text) :
    collapse (u ++ v) = u ++ collapse v := by
  induction u with
  | nil => rfl
  | cons c u ih =>
    obtain ⟨first, others⟩ := List.forall_mem_cons.mp solid
    simp [collapse, first, ih others]

theorem collapse_of_solid {u : Text} (solid : ∀ c ∈ u, isBlank c = false) : collapse u = u := by
  have alone := collapse_solid solid []
  rwa [List.append_nil, collapse, List.append_nil] at alone

theorem collapse_blank {u : Text} (blank : ∀ c ∈ u, isBlank c) :
    collapse u = if u.isEmpty then [] else [' '] := by
  induction u with
  | nil => rfl
  | cons c u ih =>
    obtain ⟨first, others⟩ := List.forall_mem_cons.mp blank
    cases u with
    | nil => simp [collapse, first]
    | cons d u =>
      have second := others d (.head _)
      rw [collapse, if_pos first]
      simpa [second] using ih others

theorem head?_collapse (u : Text) :
    (collapse u).head? = u.head?.map fun c => if isBlank c then ' ' else c := by
  induction u with
  | nil => rfl
  | cons c u ih =>
    rw [collapse]
    split
    · rename_i blank
      split
      · rename_i more
        obtain ⟨d, head, second⟩ := (Option.any_eq_true _ _).mp more
        simp [ih, head, second, blank]
      · simp [blank]
    · rename_i solid
      simp [solid]

theorem trim_append {g s t : Text} (front : ∀ c ∈ g, isBlank c) (back : ∀ c ∈ t, isBlank c)
    (first : ∀ c, s.head? = some c → isBlank c = false)
    (last : ∀ c, s.getLast? = some c → isBlank c = false) (some : s ≠ []) :
    trim (g ++ (s ++ t)) = s := by
  have starts : ∀ c, (s ++ t).head? = Option.some c → isBlank c = false := by
    intro c head
    rw [List.head?_append_of_ne_nil _ some] at head
    exact first c head
  have ends : ∀ c, s.reverse.head? = Option.some c → isBlank c = false := by
    intro c head
    rw [List.head?_reverse] at head
    exact last c head
  have left : trimLeft (g ++ (s ++ t)) = s ++ t := (span_append front starts).2
  have right : (t.reverse ++ s.reverse).dropWhile isBlank = s.reverse :=
    (span_append (by simpa using back) ends).2
  rw [trim, trimRight, left, List.reverse_append, right, List.reverse_reverse]

theorem trim_blank {s : Text} (blank : ∀ c ∈ s, isBlank c) : trim s = [] := by
  have left : trimLeft s = [] := List.dropWhile_eq_nil_iff.mpr blank
  rw [trim, left]
  rfl

end Text

namespace PrintedType

structure StandsAlone (c : Char) (s : Text) : Prop where
  colon : c = ':' → s.head? ≠ some ':'
  solid : Text.isBlank c = false
  plain : c ∉ marks

theorem StandsAlone.not_colons {c : Char} {s : Text} (alone : StandsAlone c s) (r : Text) :
    c = ':' → s = ':' :: r → False := by
  intro colon pair
  exact alone.colon colon (by rw [pair]; rfl)

theorem standsAlone_of_isWord {c : Char} (word : Text.isWord c) (s : Text) : StandsAlone c s := by
  refine ⟨fun colon => absurd colon (Text.ne_of_isWord word Text.isWord_colon),
    Text.isBlank_of_isWord word, ?_⟩
  intro mark
  rw [isWord_of_mem_marks mark] at word
  cases word

theorem tightenFrom_colons (glued pending : Bool) (s : Text) :
    tightenFrom glued pending (':' :: ':' :: s) = ':' :: ':' :: tightenFrom true false s := by
  simp [tightenFrom]

theorem tightenFrom_blank {c : Char} (blank : Text.isBlank c) (glued pending : Bool) (s : Text) :
    tightenFrom glued pending (c :: s) = tightenFrom glued (!glued) s := by
  have other : c ≠ ':' := Text.ne_of_isBlank blank (by decide)
  rw [tightenFrom.eq_3 _ _ _ _ fun _ colon _ => other colon, if_pos blank]

theorem tightenFrom_mark {c : Char} (mark : c ∈ marks) (glued pending : Bool) (s : Text) :
    tightenFrom glued pending (c :: s) = c :: tightenFrom true false s := by
  have other : c ≠ ':' := ne_of_mem_of_not_mem mark (by decide)
  rw [tightenFrom.eq_3 _ _ _ _ fun _ colon _ => other colon,
    if_neg (by simp [isBlank_of_mem_marks mark]), if_pos (by simpa using mark)]

theorem tightenFrom_alone {c : Char} {s : Text} (alone : StandsAlone c s)
    (glued pending : Bool) : tightenFrom glued pending (c :: s) =
      (if pending then [' '] else []) ++ c :: tightenFrom false false s := by
  rw [tightenFrom.eq_3 _ _ _ _ alone.not_colons, if_neg (by simp [alone.solid]),
    if_neg (by simp [alone.plain])]
  split <;> rfl

theorem tightenFrom_word {w : Text} (word : ∀ c ∈ w, Text.isWord c) (s : Text) :
    tightenFrom false false (w ++ s) = w ++ tightenFrom false false s := by
  induction w with
  | nil => rfl
  | cons c w ih =>
    obtain ⟨first, others⟩ := List.forall_mem_cons.mp word
    rw [List.cons_append, tightenFrom_alone (standsAlone_of_isWord first _), ih others]
    rfl

theorem isBlank_space : Text.isBlank ' ' := by decide

def Token.isTight (t : Token) : Bool := t.kind == .scope || t.kind == .mark

def Token.neatGap (glued : Bool) (t : Token) : Text :=
  if glued || t.isTight || t.gap.isEmpty then [] else [' ']

def neatRow : Bool → List Token → List Token
  | _, [] => []
  | glued, t :: ts =>
    ⟨t.kind, t.neatGap glued, Text.collapse t.text⟩ :: neatRow t.isTight ts

theorem IsLexeme.collapse_append {kind : Kind} {text : Text} (lexeme : IsLexeme kind text)
    (rest : Text) : Text.collapse (text ++ rest) = Text.collapse text ++ Text.collapse rest := by
  have solid {u : Text} (all : ∀ c ∈ u, Text.isBlank c = false) :
      Text.collapse (u ++ rest) = Text.collapse u ++ Text.collapse rest := by
    rw [Text.collapse_solid all, Text.collapse_of_solid all]
  cases lexeme with
  | word _ all => exact solid fun c member => Text.isBlank_of_isWord (all c member)
  | scope => exact solid (by decide)
  | @array b blank =>
    have closing (r : Text) : Text.collapse (b ++ ']' :: r) =
        Text.collapse b ++ ']' :: Text.collapse r := by
      rw [Text.collapse_append (by simp; decide)]
      rfl
    have opening (r : Text) : Text.collapse ('[' :: r) = '[' :: Text.collapse r := rfl
    simp [opening, closing, Text.collapse]
  | mark listed => exact solid (by simpa using isBlank_of_mem_marks listed)

theorem collapse_brackets {b : Text} (blank : ∀ c ∈ b, Text.isBlank c) :
    Text.collapse ('[' :: b ++ [']']) = '[' :: (if b.isEmpty then [] else [' ']) ++ [']'] := by
  have opening (r : Text) : Text.collapse ('[' :: r) = '[' :: Text.collapse r := rfl
  rw [List.cons_append, opening, Text.collapse_append (by simp; decide), Text.collapse_blank blank]
  rfl

theorem IsLexeme.collapse {kind : Kind} {text : Text} (lexeme : IsLexeme kind text) :
    IsLexeme kind (Text.collapse text) ∧ Text.collapse (Text.collapse text) = Text.collapse text := by
  cases lexeme with
  | word some all =>
    have same := Text.collapse_of_solid fun c member => Text.isBlank_of_isWord (all c member)
    rw [same, same]
    exact ⟨.word some all, rfl⟩
  | scope => exact ⟨.scope, rfl⟩
  | @array b blank =>
    rw [collapse_brackets blank]
    split
    · exact ⟨.array (b := []) (by simp), rfl⟩
    · exact ⟨.array (b := [' ']) (by decide), rfl⟩
  | mark listed =>
    have same := Text.collapse_of_solid (u := [_]) (by simpa using isBlank_of_mem_marks listed)
    rw [same, same]
    exact ⟨.mark listed, rfl⟩

theorem tightenFrom_lexeme {t : Token} (formed : t.WellFormed) (glued pending : Bool) (s : Text) :
    tightenFrom glued pending (Text.collapse t.text ++ s) =
      (if pending && !t.isTight then [' '] else []) ++
        (Text.collapse t.text ++ tightenFrom t.isTight false s) := by
  obtain ⟨kind, gap, text⟩ := t
  have lexeme : IsLexeme kind text := formed.lexeme
  obtain ⟨neat, -⟩ := lexeme.collapse
  cases lexeme with
  | word =>
    generalize Text.collapse text = w at neat
    cases neat with
    | word some all =>
      obtain ⟨c, cs, rfl⟩ := List.exists_cons_of_ne_nil some
      obtain ⟨first, others⟩ := List.forall_mem_cons.mp all
      have loose : Token.isTight ⟨.word, gap, text⟩ = false := rfl
      rw [List.cons_append, tightenFrom_alone (standsAlone_of_isWord first _),
        tightenFrom_word others, loose, Bool.not_false, Bool.and_true]
      rfl
  | scope =>
    have tight : Token.isTight ⟨.scope, gap, [':', ':']⟩ = true := rfl
    have colons : Text.collapse [':', ':'] = [':', ':'] := by decide
    rw [tight, colons]
    simp [tightenFrom]
  | @array b blank =>
    have bracket {c : Char} (listed : c ∈ ['[', ']']) (glued pending : Bool) (r : Text) :
        tightenFrom glued pending (c :: r) =
          (if pending then [' '] else []) ++ c :: tightenFrom false false r := by
      have all : ∀ c ∈ ['[', ']'], c ≠ ':' ∧ Text.isBlank c = false ∧ c ∉ marks := by decide
      obtain ⟨other, solid, plain⟩ := all c listed
      exact tightenFrom_alone ⟨fun colon => absurd colon other, solid, plain⟩ glued pending
    have loose : Token.isTight ⟨.array, gap, '[' :: b ++ [']']⟩ = false := rfl
    rw [collapse_brackets blank, List.cons_append, List.cons_append, bracket (by simp), loose]
    cases b.isEmpty with
    | true => simp [bracket]
    | false => simp [bracket, tightenFrom_blank isBlank_space]
  | mark listed =>
    generalize Text.collapse _ = w at neat
    cases neat with
    | @mark c listed =>
      have tight : ∀ u, Token.isTight ⟨.mark, gap, u⟩ = true := fun _ => rfl
      rw [List.singleton_append, tightenFrom_mark listed, tight]
      simp

theorem tighten_row {ts : List Token} (formed : Formed ts) (glued : Bool) :
    tightenFrom glued false (Text.collapse (rowText ts)) = rowText (neatRow glued ts) := by
  induction ts generalizing glued with
  | nil => rfl
  | cons t ts ih =>
    obtain ⟨first, others⟩ := formed.cons
    obtain ⟨c, cs, text, solid, -⟩ := first.lexeme.head
    have row : rowText (t :: ts) = t.gap ++ (t.text ++ rowText ts) := by
      simp [rowText_cons, Token.source]
    have starts : ∀ d, (t.text ++ rowText ts).head? = some d → Text.isBlank d = false := by
      intro d head
      rw [text] at head
      cases head
      exact solid
    have neat : rowText (neatRow glued (t :: ts)) =
        t.neatGap glued ++ (Text.collapse t.text ++ rowText (neatRow t.isTight ts)) := by
      simp [neatRow, rowText_cons, Token.source]
    rw [row, Text.collapse_append starts, Text.collapse_blank first.gap,
      first.lexeme.collapse_append, neat, ← ih others t.isTight]
    cases empty : t.gap.isEmpty with
    | true => simp [Token.neatGap, empty, tightenFrom_lexeme first]
    | false =>
      cases glued <;> cases tight : t.isTight <;>
        simp [Token.neatGap, empty, tight, tightenFrom_blank isBlank_space, tightenFrom_lexeme first]

theorem IsLexeme.last {kind : Kind} {text : Text} (lexeme : IsLexeme kind text) :
    ∀ c, text.getLast? = some c → Text.isBlank c = false := by
  intro c last
  cases lexeme with
  | word _ all => exact Text.isBlank_of_isWord (all c (List.mem_of_getLast? last))
  | scope =>
    cases last
    decide
  | array =>
    rw [List.getLast?_concat] at last
    cases last
    decide
  | mark listed =>
    cases last
    exact isBlank_of_mem_marks listed

theorem last_rowText {ts : List Token} (formed : Formed ts) :
    ∀ c, (rowText ts).getLast? = some c → Text.isBlank c = false := by
  intro c last
  rcases List.eq_nil_or_concat' ts with rfl | ⟨us, t, rfl⟩
  · cases last
  · have lexeme := (formed t (by simp)).lexeme
    have row : rowText (us ++ [t]) = rowText us ++ t.gap ++ t.text := by
      simp [rowText, Token.source]
    rw [row, List.getLast?_append_of_ne_nil _ lexeme.ne_nil] at last
    exact lexeme.last c last

theorem canonical_rowText {ts : List Token} (formed : Formed ts) {tail : Text}
    (blank : ∀ c ∈ tail, Text.isBlank c) : canonical (rowText ts ++ tail) = rowText (neatRow true ts) := by
  cases ts with
  | nil =>
    rw [canonical, Text.trim_blank (by simpa [rowText] using blank)]
    rfl
  | cons t ts =>
    obtain ⟨first, others⟩ := formed.cons
    obtain ⟨c, cs, text, solid, -⟩ := first.lexeme.head
    let bare : Token := ⟨t.kind, [], t.text⟩
    have formed' : Formed (bare :: ts) :=
      List.forall_mem_cons.mpr ⟨⟨by simp [bare], first.lexeme⟩, others⟩
    have row : rowText (t :: ts) ++ tail = t.gap ++ (rowText (bare :: ts) ++ tail) := by
      simp [rowText_cons, Token.source, bare]
    have starts : ∀ d, (rowText (bare :: ts)).head? = some d → Text.isBlank d = false := by
      intro d head
      rw [rowText_cons, Token.source, List.nil_append, text] at head
      cases head
      exact solid
    have some : rowText (bare :: ts) ≠ [] := by
      simp [rowText_cons, Token.source, bare, first.lexeme.ne_nil]
    rw [row, canonical, Text.trim_append first.gap blank starts (last_rowText formed') some, tighten,
      tighten_row formed']
    simp [neatRow, Token.neatGap, Token.isTight, bare]

theorem formed_neatRow {ts : List Token} (formed : Formed ts) (glued : Bool) :
    Formed (neatRow glued ts) := by
  induction ts generalizing glued with
  | nil => exact formed
  | cons t ts ih =>
    obtain ⟨first, others⟩ := formed.cons
    refine List.forall_mem_cons.mpr ⟨⟨?_, first.lexeme.collapse.1⟩, ih others t.isTight⟩
    simp only [Token.neatGap]
    split <;> decide

theorem neatRow_neatRow {ts : List Token} (formed : Formed ts) (glued : Bool) :
    neatRow glued (neatRow glued ts) = neatRow glued ts := by
  induction ts generalizing glued with
  | nil => rfl
  | cons t ts ih =>
    obtain ⟨first, others⟩ := formed.cons
    have gap : Token.neatGap glued ⟨t.kind, t.neatGap glued, Text.collapse t.text⟩ =
        t.neatGap glued := by
      have tight : Token.isTight ⟨t.kind, t.neatGap glued, Text.collapse t.text⟩ = t.isTight := rfl
      rw [Token.neatGap, tight]
      cases glued <;> cases same : t.isTight <;> cases empty : t.gap.isEmpty <;>
        simp [Token.neatGap, same, empty]
    simp only [neatRow, gap, first.lexeme.collapse.2]
    rw [show Token.isTight ⟨t.kind, t.neatGap glued, Text.collapse t.text⟩ = t.isTight from rfl,
      ih others]

theorem canonical_row {ts : List Token} (formed : Formed ts) :
    canonical (rowText ts) = rowText (neatRow true ts) := by
  have none : ∀ c ∈ ([] : Text), Text.isBlank c := by simp
  have whole := canonical_rowText formed none
  rwa [List.append_nil] at whole

theorem canonical_canonical {ts : List Token} (formed : Formed ts) :
    canonical (canonical (rowText ts)) = canonical (rowText ts) := by
  rw [canonical_row formed, canonical_row (formed_neatRow formed true), neatRow_neatRow formed]

end PrintedType

end Apidoc
