import Apidoc.Proofs.PrintedType.Brackets

namespace Apidoc.PrintedType

def Token.IsPlain (t : Token) : Prop := t.text ≠ ['<'] ∧ t.text ≠ ['>'] ∧ t.text ≠ [',']

theorem Token.WellFormed.ne_mark {t : Token} (formed : t.WellFormed) (other : t.kind ≠ .mark)
    {c : Char} (mark : c ∈ marks) : t.text ≠ [c] :=
  fun same => other (formed.kind_of_text same (.mark mark))

theorem Token.WellFormed.isPlain_of_kind {t : Token} (formed : t.WellFormed)
    (other : t.kind ≠ .mark) : t.IsPlain :=
  ⟨formed.ne_mark other (by decide), formed.ne_mark other (by decide),
    formed.ne_mark other (by decide)⟩

theorem Token.WellFormed.isPlain_of_word {t : Token} (formed : t.WellFormed) {w : Text}
    (word : Text.IsWordRun w) (same : t.text = w) : t.IsPlain := by
  apply formed.isPlain_of_kind
  rw [formed.kind_of_text same (.word word.1 word.2)]
  decide

theorem Token.WellFormed.isPlain_of_const {t : Token} (formed : t.WellFormed)
    (const : t.isConst) : t.IsPlain :=
  formed.isPlain_of_word isWordRun_constWord (eq_of_beq const)

theorem Token.isSign_iff {t : Token} :
    t.isSign ↔ ∃ sign, Sign.ofText? t.text = some sign ∧ t.text = sign.text := by
  constructor
  · intro sign
    obtain ⟨s, found⟩ := Option.isSome_iff_exists.mp sign
    have same : s.text = t.text := by
      unfold Sign.ofText? at found
      simpa using List.find?_some found
    exact ⟨s, found, same.symm⟩
  · intro sign
    obtain ⟨s, found, -⟩ := sign
    exact Option.isSome_iff_exists.mpr ⟨s, found⟩

theorem Token.WellFormed.word_of_sign {t : Token} (formed : t.WellFormed) (sign : t.isSign) :
    t.kind = .word := by
  obtain ⟨s, -, same⟩ := Token.isSign_iff.mp sign
  have word := isWordRun_sign s
  exact formed.kind_of_text same (.word word.1 word.2)

theorem Token.WellFormed.isPlain_of_sign {t : Token} (formed : t.WellFormed) (sign : t.isSign) :
    t.IsPlain := by
  apply formed.isPlain_of_kind
  rw [formed.word_of_sign sign]
  decide

theorem Token.WellFormed.isPlain_of_decoration {t : Token} (formed : t.WellFormed)
    (decoration : t.isDecoration) : t.IsPlain := by
  have cases : t.isConst ∨ t.kind = .array ∨ t.text = ['*'] ∨ t.text = ['&'] := by
    simpa [Token.isDecoration, Token.isPointer, Token.isReference, or_assoc] using decoration
  rcases cases with const | array | star | reference
  · exact formed.isPlain_of_const const
  · exact formed.isPlain_of_kind (by simp [array])
  · simp [Token.IsPlain, star]
  · simp [Token.IsPlain, reference]

theorem isFlat_append {u v : Text} (first : IsFlat u) (second : IsFlat v) : IsFlat (u ++ v) := by
  simp only [IsFlat, List.mem_append, not_or]
  exact ⟨⟨first.1, second.1⟩, ⟨first.2.1, second.2.1⟩, first.2.2, second.2.2⟩

theorem IsLexeme.isFlat {kind : Kind} {text : Text} (lexeme : IsLexeme kind text)
    (opening : text ≠ ['<']) (closing : text ≠ ['>']) (comma : text ≠ [',']) : IsFlat text := by
  cases lexeme with
  | word _ all => exact isFlat_of_word all
  | scope => exact ⟨by decide, by decide, by decide⟩
  | @array b blank =>
    have front : IsFlat ['['] := ⟨by decide, by decide, by decide⟩
    have back : IsFlat [']'] := ⟨by decide, by decide, by decide⟩
    exact isFlat_append (isFlat_append front (isFlat_of_blank blank)) back
  | @mark c =>
    simp only [IsFlat, List.mem_singleton]
    exact ⟨fun same => opening (by rw [same]), fun same => closing (by rw [same]),
      fun same => comma (by rw [same])⟩

theorem Token.WellFormed.isFlat {t : Token} (formed : t.WellFormed) (plain : t.IsPlain) :
    IsFlat t.source :=
  isFlat_append (isFlat_of_blank formed.gap) (formed.lexeme.isFlat plain.1 plain.2.1 plain.2.2)

def rowText (ts : List Token) : Text := ts.flatMap Token.source

theorem rowText_append (ts us : List Token) : rowText (ts ++ us) = rowText ts ++ rowText us :=
  List.flatMap_append

theorem rowText_cons (t : Token) (ts : List Token) : rowText (t :: ts) = t.source ++ rowText ts :=
  List.flatMap_cons

theorem level_of_plain {ts : List Token} (formed : Formed ts) (plain : ∀ t ∈ ts, t.IsPlain)
    (low : Nat) : IsLevel low (rowText ts) := by
  induction ts with
  | nil => exact level_nil low
  | cons t ts ih =>
    obtain ⟨first, others⟩ := List.forall_mem_cons.mp plain
    rw [rowText_cons]
    exact ((formed.cons.1.isFlat first).level low).append (ih formed.cons.2 others)

theorem IsName.word {words : List Token} (name : IsName words) : ∀ t ∈ words, t.kind = .word := by
  rcases name with ⟨t, rfl, word, -⟩ | ⟨-, run⟩
  · simpa using word
  · exact fun t member => (run t member).1

theorem IsName.isPlain {words : List Token} (name : IsName words) (formed : Formed words) :
    ∀ t ∈ words, t.IsPlain := by
  intro t member
  apply (formed t member).isPlain_of_kind
  rw [name.word t member]
  decide

def WordLeads (ts : List Token) : Prop := ∃ t us, ts = t :: us ∧ t.kind = .word

theorem WordLeads.append {ts : List Token} (leads : WordLeads ts) (us : List Token) :
    WordLeads (ts ++ us) := by
  obtain ⟨t, vs, rfl, word⟩ := leads
  exact ⟨t, vs ++ us, rfl, word⟩

theorem SegmentNode.wordLeads {d : SegmentNode} (valid : d.Valid) : WordLeads d.yield := by
  have named {words : List Token} (name : IsName words) : WordLeads words := by
    obtain ⟨t, ts, rfl⟩ := List.exists_cons_of_ne_nil name.ne_nil
    exact ⟨t, ts, rfl, name.word t (.head _)⟩
  cases d with
  | plain words => exact named valid
  | template words opening arguments closing => exact (named valid.1).append _

theorem NameNode.wordLeads {d : NameNode} (valid : d.Valid) : WordLeads d.yield := by
  cases d with
  | base segment => exact SegmentNode.wordLeads valid
  | inside scope colons name => exact (SegmentNode.wordLeads valid.1).append _

theorem IsName.level {words : List Token} (name : IsName words) (formed : Formed words)
    (low : Nat) : IsLevel low (rowText words) :=
  level_of_plain formed (name.isPlain formed) low

theorem source_of_text {t : Token} {c : Char} (same : t.text = [c]) : t.source = t.gap ++ [c] := by
  rw [Token.source, same]

theorem SignLeads.isSign {t : Token} {ts : List Token} (leads : SignLeads (t :: ts)) :
    t.isSign := by
  cases ts with
  | nil => cases leads
  | cons u ts => exact leads.1

mutual

theorem TypeNode.level (low : Nat) : (d : TypeNode) → d.Valid → Formed d.yield →
    IsLevel low (rowText d.yield)
  | .mk lead sign name decorations, valid, formed => by
    obtain ⟨leads, -, signs, named, decorated⟩ := valid
    simp only [TypeNode.yield, List.append_assoc] at formed ⊢
    obtain ⟨formedLead, formed₁⟩ := formed.append
    obtain ⟨formedSign, formed₂⟩ := formed₁.append
    obtain ⟨formedName, formedEnd⟩ := formed₂.append
    have front : IsLevel low (rowText lead.toList) := by
      apply level_of_plain formedLead
      intro t member
      exact (formedLead t member).isPlain_of_const (leads t (Option.mem_toList.mp member))
    have middle : IsLevel low (rowText sign.toList) := by
      cases sign with
      | none => exact level_nil low
      | some t =>
        apply level_of_plain formedSign
        intro u member
        rw [Option.toList_some, List.mem_singleton] at member
        rw [member]
        exact (formedSign t (.head _)).isPlain_of_sign (signs.mp rfl).isSign
    have back : IsLevel low (rowText decorations) := by
      apply level_of_plain formedEnd
      intro t member
      exact (formedEnd t member).isPlain_of_decoration (decorated t member)
    simp only [rowText_append]
    exact front.append (middle.append ((name.level low named formedName).append back))

theorem NameNode.level (low : Nat) : (d : NameNode) → d.Valid → Formed d.yield →
    IsLevel low (rowText d.yield)
  | .base segment, valid, formed => segment.level low valid formed
  | .inside scope colons name, valid, formed => by
    obtain ⟨outer, same, inner⟩ := valid
    obtain ⟨formedScope, formedEnd⟩ := formed.append
    have plain : colons.IsPlain := by simp [Token.IsPlain, same]
    rw [NameNode.yield, rowText_append, rowText_cons]
    exact (scope.level low outer formedScope).append
      (((formedEnd.cons.1.isFlat plain).level low).append (name.level low inner formedEnd.cons.2))

theorem SegmentNode.level (low : Nat) : (d : SegmentNode) → d.Valid → Formed d.yield →
    IsLevel low (rowText d.yield)
  | .plain _, valid, formed => IsName.level valid formed low
  | .template words opening arguments closing, valid, formed => by
    obtain ⟨named, opens, listed, closes⟩ := valid
    obtain ⟨formedWords, formedEnd⟩ := formed.append
    obtain ⟨formedOpening, formedInside⟩ := formedEnd.cons
    obtain ⟨formedList, formedClosing⟩ := formedInside.append
    have inner := arguments.level low listed formedList
    have gap := (isFlat_of_blank formedClosing.cons.1.gap).level (low + 1)
    have body := (inner.append gap).bracketed
    have blank := (isFlat_of_blank formedOpening.gap).level low
    have front := (named.level formedWords low).append blank
    have whole := front.append body
    rw [SegmentNode.yield, rowText_append, rowText_cons, rowText_append, rowText_cons,
      source_of_text opens, source_of_text closes]
    simpa [rowText] using whole

theorem ArgumentsNode.level (low : Nat) : (d : ArgumentsNode) → d.Valid → Formed d.yield →
    IsLevel (low + 1) (rowText d.yield)
  | .one type, valid, formed => type.level (low + 1) valid formed
  | .cons type comma rest, valid, formed => by
    obtain ⟨first, same, more⟩ := valid
    obtain ⟨formedType, formedEnd⟩ := formed.append
    have gap := (isFlat_of_blank formedEnd.cons.1.gap).level (low + 1)
    have separator := gap.append (IsLevel.mono level_comma (Nat.le_add_left 1 low))
    rw [ArgumentsNode.yield, rowText_append, rowText_cons, source_of_text same]
    exact (type.level (low + 1) first formedType).append
      (separator.append (rest.level low more formedEnd.cons.2))

end

theorem level_of_parse {s : Text} {tree : Tree} (parsed : parse s = .ok tree) (low : Nat) :
    IsLevel low s := by
  obtain ⟨ts, spelled, d, ⟨valid, rfl⟩, -⟩ := parse_eq_ok_iff.mp parsed
  obtain ⟨formed, tail, blank, rfl⟩ := tokens_spell spelled
  exact (d.level low valid formed).append ((isFlat_of_blank blank).level low)

def typeMarks : Text := ['<', '>', ',', '*', '&', ':', '[', ']']

theorem IsLexeme.mem {kind : Kind} {text : Text} (lexeme : IsLexeme kind text) {c : Char}
    (member : c ∈ text) : Text.isBlank c ∨ Text.isWord c ∨ c ∈ typeMarks := by
  cases lexeme with
  | word _ all => exact .inr (.inl (all c member))
  | scope =>
    have colon : c = ':' := by simpa using member
    exact .inr (.inr (by simp [colon, typeMarks]))
  | @array b blank =>
    rcases List.mem_append.mp member with front | back
    · rcases List.mem_cons.mp front with rfl | space
      · exact .inr (.inr (by simp [typeMarks]))
      · exact .inl (blank c space)
    · exact .inr (.inr (by simp [List.mem_singleton.mp back, typeMarks]))
  | @mark d mark =>
    have listed : ∀ d ∈ marks, d ∈ typeMarks := by decide
    rw [List.mem_singleton.mp member]
    exact .inr (.inr (listed d mark))

theorem mem_of_parse {s : Text} {tree : Tree} (parsed : parse s = .ok tree) {c : Char}
    (member : c ∈ s) : Text.isBlank c ∨ Text.isWord c ∨ c ∈ typeMarks := by
  obtain ⟨ts, spelled, -⟩ := parse_eq_ok_iff.mp parsed
  obtain ⟨formed, tail, blank, rfl⟩ := tokens_spell spelled
  rcases List.mem_append.mp member with inside | behind
  · obtain ⟨t, token, source⟩ := List.mem_flatMap.mp inside
    obtain ⟨gap, lexeme⟩ := formed t token
    rcases List.mem_append.mp source with space | text
    · exact .inl (gap c space)
    · exact lexeme.mem text
  · exact .inl (blank c behind)

theorem not_mem_of_parse {s : Text} {tree : Tree} (parsed : parse s = .ok tree) {c : Char}
    (other : Text.isBlank c = false ∧ Text.isWord c = false ∧ c ∉ typeMarks) : c ∉ s := by
  intro member
  rcases mem_of_parse parsed member with blank | word | mark
  · rw [blank] at other
    cases other.1
  · rw [word] at other
    cases other.2.1
  · exact other.2.2 mark

theorem parse_nil_ne (tree : Tree) : parse [] ≠ .ok tree := by
  intro parsed
  rw [parse, tokens_nil] at parsed
  cases parsed

theorem parse_const_ne (tree : Tree) : parse constWord ≠ .ok tree := by
  intro parsed
  obtain ⟨ts, spelled, d, derives, -⟩ := parse_eq_ok_iff.mp parsed
  rw [tokens_of_word isWordRun_constWord.1 isWordRun_constWord.2] at spelled
  cases spelled
  obtain rfl := derives.eq_of_single
  have other := derives.1.2.1 rfl _ rfl
  cases other

end Apidoc.PrintedType
