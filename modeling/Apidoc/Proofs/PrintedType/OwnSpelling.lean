import Apidoc.Proofs.PrintedType.Canonical
import Apidoc.Proofs.PrintedType.Language

namespace Apidoc.PrintedType

open Pattern

/-- Nothing, one reference, or stars and pairs of brackets with no blank in them or between two
pairs. -/
def Decorations.OneSort (decorations : List Token) : Prop :=
  decorations = [] ∨ (∃ t, decorations = [t] ∧ t.isReference) ∨
    decorations ≠ [] ∧ (∀ t ∈ decorations, t.text = ['*'] ∨ t.text = "[]".toList) ∧
      decorations.IsChain fun t u => t.kind = .array → u.kind = .array → u.gap = []

mutual

/-- The decorations at every level of a derivation are of one sort. -/
def TypeNode.OneSort : TypeNode → Prop
  | .mk _ _ name decorations => name.OneSort ∧ Decorations.OneSort decorations

def NameNode.OneSort : NameNode → Prop
  | .base segment => segment.OneSort
  | .inside scope _ name => scope.OneSort ∧ name.OneSort

def SegmentNode.OneSort : SegmentNode → Prop
  | .plain _ => True
  | .template _ _ arguments _ => arguments.OneSort

def ArgumentsNode.OneSort : ArgumentsNode → Prop
  | .one type => type.OneSort
  | .cons type _ rest => type.OneSort ∧ rest.OneSort

end

def endsTight : Bool → List Token → Bool
  | glued, [] => glued
  | _, t :: ts => endsTight t.isTight ts

theorem neatRow_append (glued : Bool) (ts us : List Token) :
    neatRow glued (ts ++ us) = neatRow glued ts ++ neatRow (endsTight glued ts) us := by
  induction ts generalizing glued with
  | nil => rfl
  | cons t ts ih => simp [neatRow, endsTight, ih]

theorem rowText_neatRow_cons (glued : Bool) (t : Token) (ts : List Token) :
    rowText (neatRow glued (t :: ts)) =
      t.neatGap glued ++ (Text.collapse t.text ++ rowText (neatRow t.isTight ts)) := by
  simp [neatRow, rowText_cons, Token.source]

theorem Token.WellFormed.collapse_word {t : Token} (formed : t.WellFormed) (word : t.kind = .word) :
    Text.collapse t.text = t.text :=
  Text.collapse_of_solid fun c member => Text.isBlank_of_isWord ((formed.isWordRun word).2 c member)

theorem rowText_neatRow_word {t : Token} (formed : t.WellFormed) (word : t.kind = .word)
    (ts : List Token) :
    rowText (neatRow true (t :: ts)) = t.text ++ rowText (neatRow false ts) ∧
      (t.gap ≠ [] → rowText (neatRow false (t :: ts)) = ' ' :: rowText (neatRow true (t :: ts))) := by
  have loose : t.isTight = false := by simp [Token.isTight, word]
  have front : rowText (neatRow true (t :: ts)) = t.text ++ rowText (neatRow false ts) := by
    rw [rowText_neatRow_cons, formed.collapse_word word, loose]
    rfl
  refine ⟨front, ?_⟩
  intro some
  rw [front, rowText_neatRow_cons, formed.collapse_word word, Token.neatGap, loose]
  simp [some]

theorem rowText_neatRow_tight {t : Token} (tight : t.isTight) (same : Text.collapse t.text = t.text)
    (glued : Bool) (ts : List Token) :
    rowText (neatRow glued (t :: ts)) = t.text ++ rowText (neatRow true ts) := by
  rw [rowText_neatRow_cons, Token.neatGap, same, tight]
  simp

theorem Token.WellFormed.tight_mark {t : Token} (formed : t.WellFormed) {c : Char}
    (same : t.text = [c]) (mark : c ∈ marks) :
    t.isTight ∧ Text.collapse t.text = t.text := by
  have kind := formed.kind_of_text same (.mark mark)
  simp [Token.isTight, kind, same, Text.collapse, isBlank_of_mem_marks mark]

theorem Token.WellFormed.tight_colons {t : Token} (formed : t.WellFormed)
    (same : t.text = [':', ':']) : t.isTight ∧ Text.collapse t.text = t.text := by
  have kind := formed.kind_of_text same .scope
  rw [same]
  exact ⟨by simp [Token.isTight, kind], by decide⟩

/-- The pattern takes the text everywhere. -/
def Covers (p : Pattern) (w : Text) : Prop := ∀ before rest, p.Takes before w rest

section

variable {p q : Pattern} {u v : Text}

theorem Covers.seq (first : Covers p u) (second : Covers q v) : Covers (.seq p q) (u ++ v) :=
  fun _ _ => ⟨u, v, rfl, first _ _, second _ _⟩

theorem Covers.group_one (body : Covers p u) : Covers (p.group .one) u :=
  fun _ _ => takes_group_one.mpr (body _ _)

theorem Covers.optional (body : Covers p u) : Covers (p.group .optional) u :=
  fun _ _ => takes_group_optional.mpr (.inr (body _ _))

theorem covers_skip (p : Pattern) : Covers (p.group .optional) [] :=
  fun _ _ => takes_group_optional.mpr (.inl rfl)

theorem covers_fixed (t : Text) : Covers (.fixed t) t := fun _ _ => rfl

theorem covers_quoted (t : Text) : Covers (.quoted t) t := fun _ _ => rfl

theorem covers_empty : Covers .empty [] := fun _ _ => rfl

theorem covers_spaces : Covers spaces [] := fun _ _ => takes_chars_star.mpr (by simp)

theorem covers_space : Covers someSpaces [' '] :=
  fun _ _ => takes_chars_plus.mpr ⟨by simp, by simp; decide⟩

theorem covers_plainSpaces {g : Text} (spaces : ∀ c ∈ g, c = ' ') : Covers plainSpaces g :=
  fun _ _ => takes_chars_star.mpr fun c member => by simpa [CharClass.accepts] using spaces c member

end

theorem covers_words {words : List Token} (some : words ≠ []) (word : ∀ t ∈ words, t.kind = .word)
    (formed : Formed words) (spaced : Spaced words) :
    Covers (wordsPattern (words.map Token.text)) (rowText (neatRow true words)) := by
  induction words with
  | nil => exact absurd rfl some
  | cons t words ih =>
    obtain ⟨first, others⟩ := List.forall_mem_cons.mp word
    obtain ⟨formedFirst, formedRest⟩ := formed.cons
    rw [(rowText_neatRow_word formedFirst first words).1]
    cases words with
    | nil =>
      rw [neatRow, rowText, List.flatMap_nil, List.append_nil]
      exact covers_quoted t.text
    | cons u words =>
      obtain ⟨apart, spacedRest⟩ := List.isChain_cons_cons.mp spaced
      have gap := apart first (others u (.head _))
      have rest := ih (List.cons_ne_nil _ _) others formedRest spacedRest
      rw [(rowText_neatRow_word formedRest.cons.1 (others u (.head _)) words).2 gap]
      exact (covers_quoted t.text).seq (covers_space.seq rest)

theorem covers_pointerMark {t : Token} (star : t.text = ['*'] ∨ t.text = "[]".toList) :
    Covers pointerMark t.text := by
  intro before rest
  rcases star with same | same
  · exact .inl same
  · exact .inr same

theorem covers_marks {ts : List Token} (some : ts ≠ [])
    (stars : ∀ t ∈ ts, t.text = ['*'] ∨ t.text = "[]".toList) :
    Covers pointerMarks (ts.flatMap Token.text) := by
  intro before rest
  have taken (ts : List Token) (stars : ∀ t ∈ ts, t.text = ['*'] ∨ t.text = "[]".toList)
      (before : Option Char) : TakesTimes pointerMark.Takes ts.length before
        (ts.flatMap Token.text) rest := by
    induction ts generalizing before with
    | nil => rfl
    | cons t ts ih =>
      obtain ⟨first, others⟩ := List.forall_mem_cons.mp stars
      exact ⟨t.text, ts.flatMap Token.text, rfl, covers_pointerMark first _ _, ih others _⟩
  exact ⟨ts.length, Times.allows_plus.mpr (List.length_pos_iff.mpr some), taken ts stars before⟩

theorem Token.WellFormed.kind_of_mark {t : Token} (formed : t.WellFormed)
    (star : t.text = ['*'] ∨ t.text = "[]".toList) :
    Text.collapse t.text = t.text ∧ t.isPointer ∧ t.isReference = false ∧
      (t.isTight = false → t.kind = .array) := by
  rcases star with same | same
  · have kind := formed.kind_of_text same (.mark (by decide))
    refine ⟨by rw [same]; decide, by simp [Token.isPointer, same],
      by simp [Token.isReference, same], ?_⟩
    intro loose
    simp [Token.isTight, kind] at loose
  · have lexeme : IsLexeme .array "[]".toList := .array (b := []) (by simp)
    have kind := formed.kind_of_text same lexeme
    exact ⟨by rw [same]; decide, by simp [Token.isPointer, kind],
      by simp [Token.isReference, same], fun _ => kind⟩

theorem rowText_neatRow_marks {ts : List Token} (formed : Formed ts)
    (stars : ∀ t ∈ ts, t.text = ['*'] ∨ t.text = "[]".toList)
    (chain : ts.IsChain fun t u => t.kind = .array → u.kind = .array → u.gap = []) {glued : Bool}
    (joined : glued = false → ∀ t, ts.head? = some t → t.kind = .array → t.gap = []) :
    rowText (neatRow glued ts) = ts.flatMap Token.text := by
  induction ts generalizing glued with
  | nil => rfl
  | cons t ts ih =>
    obtain ⟨first, others⟩ := List.forall_mem_cons.mp stars
    obtain ⟨same, -, -, array⟩ := formed.cons.1.kind_of_mark first
    obtain ⟨next, inner⟩ := List.isChain_cons.mp chain
    have rest : rowText (neatRow t.isTight ts) = ts.flatMap Token.text :=
      ih formed.cons.2 others inner fun loose u head => next u head (array loose)
    have gap : t.neatGap glued = [] := by
      unfold Token.neatGap
      cases glued with
      | true => simp
      | false =>
        cases tight : t.isTight with
        | true => simp
        | false => simp [joined rfl t rfl (array tight)]
    rw [rowText_neatRow_cons, gap, same, rest]
    rfl

theorem covers_decorations {decorations : List Token} (formed : Formed decorations)
    (sort : Decorations.OneSort decorations) (glued : Bool) {form : Form}
    (reference : form.reference = decorations.any Token.isReference)
    (pointers : form.pointers = decorations.countP Token.isPointer) :
    Covers form.decoration (rowText (neatRow glued decorations)) := by
  have none : ∀ c ∈ ([] : Text), c = ' ' := by simp
  rcases sort with rfl | ⟨t, rfl, refers⟩ | ⟨some, stars, chain⟩
  · have bare : form.decoration = .empty := by simp_all [Form.decoration]
    rw [bare]
    exact covers_empty
  · have text : t.text = ['&'] := eq_of_beq refers
    obtain ⟨tight, same⟩ := (formed t (.head _)).tight_mark text (by decide)
    have row : rowText (neatRow glued [t]) = [] ++ (['&'] ++ []) := by
      rw [rowText_neatRow_tight tight same, text]
      rfl
    have decoration : form.decoration = referencePart := by
      simp [Form.decoration, reference, refers]
    rw [row, decoration]
    exact (covers_plainSpaces none).seq ((covers_fixed _).seq (covers_plainSpaces none))
  · have marked (t : Token) (member : t ∈ decorations) :=
      (formed t member).kind_of_mark (stars t member)
    have unreferred : form.reference = false := by
      rw [reference, List.any_eq_false]
      intro t member
      simp [(marked t member).2.2.1]
    have pointed : form.pointers ≠ 0 := by
      obtain ⟨t, member⟩ := List.exists_mem_of_ne_nil _ some
      rw [pointers]
      exact (List.countP_pos_iff.mpr ⟨t, member, (marked t member).2.1⟩).ne'
    have decoration : form.decoration = pointerPart := by
      simp [Form.decoration, unreferred, pointed]
    obtain ⟨t, ts, rfl⟩ := List.exists_cons_of_ne_nil some
    obtain ⟨next, inner⟩ := List.isChain_cons.mp chain
    have rest : rowText (neatRow t.isTight ts) = ts.flatMap Token.text :=
      rowText_neatRow_marks formed.cons.2 (List.forall_mem_cons.mp stars).2 inner
        fun loose u head => next u head ((marked t (.head _)).2.2.2 loose)
    have row : rowText (neatRow glued (t :: ts)) =
        t.neatGap glued ++ ((t :: ts).flatMap Token.text ++ []) := by
      rw [rowText_neatRow_cons, (marked t (.head _)).1, rest]
      simp
    have spaces : ∀ c ∈ t.neatGap glued, c = ' ' := by
      unfold Token.neatGap
      split <;> simp
    rw [row, decoration]
    exact (covers_plainSpaces spaces).seq ((covers_marks some stars).seq (covers_plainSpaces none))

theorem Spaced.append {ts us : List Token} (spaced : Spaced (ts ++ us)) : Spaced ts ∧ Spaced us :=
  ⟨spaced.left_of_append, spaced.right_of_append⟩

theorem Spaced.cons {t : Token} {ts : List Token} (spaced : Spaced (t :: ts)) : Spaced ts :=
  spaced.tail

theorem rowText_neatRow_leading {front : Option Token} {ts : List Token}
    (word : ∀ t ∈ front, t.kind = .word) (leads : WordLeads ts)
    (formed : Formed (front.toList ++ ts)) (spaced : Spaced (front.toList ++ ts)) :
    rowText (neatRow true (front.toList ++ ts)) =
      (front.elim [] fun t => t.text ++ [' ']) ++ rowText (neatRow true ts) := by
  cases front with
  | none => rfl
  | some t =>
    obtain ⟨u, us, rfl, second⟩ := leads
    have first : t.kind = .word := word t rfl
    have gap : u.gap ≠ [] := (List.isChain_cons_cons.mp spaced).1 first second
    rw [Option.toList_some, List.singleton_append, (rowText_neatRow_word formed.cons.1 first _).1,
      (rowText_neatRow_word formed.cons.2.cons.1 second us).2 gap]
    simp

theorem covers_const {lead : Option Token} (leads : ∀ t ∈ lead, t.isConst) :
    Covers optionalConst (lead.elim [] fun t => t.text ++ [' ']) := by
  cases lead with
  | none => exact covers_skip _
  | some t =>
    have text : t.text = constWord := eq_of_beq (leads t rfl)
    rw [Option.elim_some, text]
    exact ((covers_fixed _).seq covers_space).optional

theorem covers_sign {sign : Option Token} (signs : ∀ t ∈ sign, t.isSign) :
    Covers (signPattern (sign.bind fun t => Sign.ofText? t.text))
      (sign.elim [] fun t => t.text ++ [' ']) := by
  cases sign with
  | none => exact covers_empty
  | some t =>
    obtain ⟨s, found, same⟩ := Token.isSign_iff.mp (signs t rfl)
    rw [Option.bind_some, found, Option.elim_some, same]
    exact ((covers_fixed _).seq covers_space).optional

theorem covers_scopes {extra : Extra} (path : Path) {w : Text}
    (covered : Covers (path.allScopes extra) w) :
    Covers (path.scopesPattern (path.allScopes extra)) w := by
  cases path with
  | base s => exact covered
  | inside s path =>
    simp only [Path.scopesPattern]
    split
    · exact covered
    · exact covered.optional

theorem covers_anySpelling {p : Pattern} {k w : Text} (const : Covers optionalConst k)
    (own : Covers p w) (others : List Pattern) : Covers (anySpelling (p :: others)) (k ++ w) := by
  have chosen : Covers (oneOf ((p :: others).map (group · .one))) w := by
    intro before rest
    have member : p.group .one ∈ (p :: others).map (group · .one) := by simp
    exact (takes_oneOf (List.ne_nil_of_mem member)).mpr ⟨_, member, own.group_one before rest⟩
  exact const.seq chosen.group_one

section

variable (extra : Extra)

mutual

theorem TypeNode.covers : (d : TypeNode) → d.Valid → Formed d.yield → Spaced d.yield → d.OneSort →
    Covers (d.tree.pattern extra) (rowText (neatRow true d.yield))
  | .mk lead sign name decorations, valid, formed, spaced, sort => by
    obtain ⟨leads, -, signs, named, -⟩ := valid
    have signed : ∀ t ∈ sign, t.isSign := by
      intro t member
      cases member
      exact (signs.mp rfl).isSign
    simp only [TypeNode.yield] at formed spaced ⊢
    have formed₁ := formed.append.2.append
    have spaced₁ := spaced.append.2.append
    have wordLead : ∀ t ∈ lead, t.kind = .word := fun t member =>
      (formed t (by simp [Option.mem_def.mp member])).kind_of_text (eq_of_beq (leads t member))
        lexeme_constWord
    have wordSign : ∀ t ∈ sign, t.kind = .word := by
      intro t member
      cases member
      exact (formed t (by simp)).word_of_sign (signed t rfl)
    have nameLeads := NameNode.wordLeads named
    have signLeads : WordLeads (sign.toList ++ name.yield) := by
      cases sign with
      | none => exact nameLeads
      | some t => exact ⟨t, name.yield, rfl, wordSign t rfl⟩
    obtain ⟨u, v, eq, outer, inner⟩ :=
      name.covers named formed₁.1.append.2 spaced₁.1.append.2 sort.1
    rw [rowText_neatRow_leading wordLead (signLeads.append decorations) formed spaced,
      neatRow_append, rowText_append,
      rowText_neatRow_leading wordSign nameLeads formed₁.1 spaced₁.1, eq, ← List.append_assoc]
    have unscoped : Covers anyScope [] := covers_skip _
    have own := unscoped.seq ((covers_sign signed).seq ((covers_scopes name.path outer).seq inner))
    exact (covers_anySpelling (covers_const leads) own _).seq
      (covers_decorations formed₁.2 sort.2 _ rfl rfl)

theorem NameNode.covers : (d : NameNode) → d.Valid → Formed d.yield → Spaced d.yield → d.OneSort →
    ∃ u v, rowText (neatRow true d.yield) = u ++ v ∧ Covers (d.path.allScopes extra) u ∧
      Covers (d.path.lastPattern extra) v
  | .base segment, valid, formed, spaced, sort =>
    ⟨[], _, rfl, covers_empty, segment.covers valid formed spaced sort⟩
  | .inside scope colons name, valid, formed, spaced, sort => by
    obtain ⟨outside, same, within⟩ := valid
    obtain ⟨u, v, eq, outer, inner⟩ :=
      name.covers within formed.append.2.cons.2 spaced.append.2.cons sort.2
    obtain ⟨tight, text⟩ := formed.append.2.cons.1.tight_colons same
    have front := scope.covers outside formed.append.1 spaced.append.1 sort.1
    refine ⟨_, v, ?_, front.seq ((covers_fixed _).seq outer), inner⟩
    rw [NameNode.yield, neatRow_append, rowText_append, rowText_neatRow_tight tight text, eq, same]
    simp

theorem SegmentNode.covers : (d : SegmentNode) → d.Valid → Formed d.yield → Spaced d.yield →
    d.OneSort → Covers (d.segment.pattern extra) (rowText (neatRow true d.yield))
  | .plain words, valid, formed, spaced, _ =>
    covers_words (IsName.ne_nil valid) (IsName.word valid) formed spaced
  | .template words opening arguments closing, valid, formed, spaced, sort => by
    obtain ⟨named, opens, listed, closes⟩ := valid
    obtain ⟨formedOpening, formedInside⟩ := formed.append.2.cons
    obtain ⟨tight, text⟩ := formedOpening.tight_mark opens (by decide)
    obtain ⟨tight', text'⟩ := formedInside.append.2.cons.1.tight_mark closes (by decide)
    have front := covers_words named.ne_nil named.word formed.append.1 spaced.append.1
    have list := arguments.covers listed formedInside.append.1 spaced.append.2.cons.append.1 sort
    have row : rowText (neatRow true (SegmentNode.template words opening arguments closing).yield) =
        rowText (neatRow true words) ++ ([] ++ (['<'] ++ ([] ++
          (rowText (neatRow true arguments.yield) ++ ([] ++ ['>']))))) := by
      rw [SegmentNode.yield, neatRow_append, rowText_append, rowText_neatRow_tight tight text,
        neatRow_append, rowText_append, rowText_neatRow_tight tight' text', opens, closes]
      rfl
    rw [row]
    exact front.seq (covers_spaces.seq ((covers_fixed _).seq (covers_spaces.seq
      (list.seq (covers_spaces.seq (covers_fixed _))))))

theorem ArgumentsNode.covers : (d : ArgumentsNode) → d.Valid → Formed d.yield → Spaced d.yield →
    d.OneSort → Covers (d.arguments.pattern extra) (rowText (neatRow true d.yield))
  | .one type, valid, formed, spaced, sort => type.covers valid formed spaced sort
  | .cons type comma rest, valid, formed, spaced, sort => by
    obtain ⟨first, same, more⟩ := valid
    obtain ⟨formedComma, formedRest⟩ := formed.append.2.cons
    obtain ⟨tight, text⟩ := formedComma.tight_mark same (by decide)
    have front := type.covers first formed.append.1 spaced.append.1 sort.1
    have others := rest.covers more formedRest spaced.append.2.cons sort.2
    have row : rowText (neatRow true (ArgumentsNode.cons type comma rest).yield) =
        rowText (neatRow true type.yield) ++ ([','] ++ ([] ++ rowText (neatRow true rest.yield))) := by
      rw [ArgumentsNode.yield, neatRow_append, rowText_append, rowText_neatRow_tight tight text, same]
      rfl
    rw [row]
    exact front.seq ((covers_fixed _).seq (covers_spaces.seq others))

end

end

/-- A type whose decorations are of one sort at every level is found by its canonical spelling,
whatever typedefs there are. -/
theorem matches_canonical (table : AliasTable) {type : Text} {d : TypeNode} (valid : d.Valid)
    (spelled : tokens type = .ok d.yield) (sort : d.OneSort) :
    parse type = .ok d.tree ∧ (pattern type table true).matchesAll (canonical type) := by
  have parsed : parse type = .ok d.tree :=
    parse_eq_ok_iff.mpr ⟨_, spelled, d, ⟨valid, rfl⟩, rfl⟩
  obtain ⟨formed, spaced, tail, blank, text⟩ := tokens_eq_ok_iff.mp spelled
  refine ⟨parsed, ?_⟩
  rw [pattern_of_parse parsed, matchesAll_iff, text, canonical_rowText formed blank]
  exact d.covers table.extra valid formed spaced sort none []

def pointerList : TypeNode :=
  .mk none none
    (.base (.template [⟨.word, [], "QList".toList⟩] ⟨.mark, [], ['<']⟩
      (.one (.mk none none (.base (.plain [⟨.word, [], "int".toList⟩])) [⟨.mark, [], ['*']⟩]))
      ⟨.mark, [], ['>']⟩))
    [⟨.mark, [' '], ['&']⟩]

theorem pointerList_valid : pointerList.Valid := by
  have list : IsName [⟨.word, [], "QList".toList⟩] := .inl ⟨_, rfl, rfl, rfl⟩
  have word : IsName [⟨.word, [], "int".toList⟩] := .inr ⟨by simp, by simp; decide⟩
  have argument : TypeNode.Valid (.mk none none (.base (.plain [⟨.word, [], "int".toList⟩]))
      [⟨.mark, [], ['*']⟩]) := by
    refine ⟨by simp, by simp [NameNode.yield, SegmentNode.yield]; decide, ?_, word, by simp; decide⟩
    simp [SignLeads, NameNode.yield, SegmentNode.yield]
  refine ⟨by simp, by simp [NameNode.yield, SegmentNode.yield]; decide, ?_,
    ⟨list, rfl, argument, rfl⟩, by simp; decide⟩
  simp [SignLeads, NameNode.yield, SegmentNode.yield]

theorem tokens_pointerList : tokens "QList<int*> &".toList = .ok pointerList.yield :=
  tokens_of_readsRow (by decide)

theorem matches_canonical_pointerList :
    pointerList.Valid ∧ tokens "QList<int*> &".toList = .ok pointerList.yield ∧
      pointerList.OneSort ∧ parse "QList<int*> &".toList = .ok pointerList.tree ∧
      (pattern "QList<int*> &".toList .empty true).matchesAll
        (canonical "QList<int*> &".toList) := by
  have pointer : Decorations.OneSort [⟨.mark, [], ['*']⟩] :=
    .inr (.inr ⟨by simp, by simp, .singleton _⟩)
  have reference : Decorations.OneSort [⟨.mark, [' '], ['&']⟩] := .inr (.inl ⟨_, rfl, rfl⟩)
  have sort : pointerList.OneSort := ⟨⟨trivial, pointer⟩, reference⟩
  have found := matches_canonical .empty pointerList_valid tokens_pointerList sort
  exact ⟨pointerList_valid, tokens_pointerList, sort, found⟩

def constPointer : Tree :=
  .mk ⟨false, none, false, 1, "int".toList⟩ (.base (.plain ["int".toList]))

theorem parse_constPointer : parse "int* const".toList = .ok constPointer := by
  have row : tokens "int* const".toList = .ok [⟨.word, [], "int".toList⟩, ⟨.mark, [], ['*']⟩,
      ⟨.word, [' '], "const".toList⟩] :=
    tokens_of_readsRow (by decide)
  rw [parse, row]
  rfl

theorem not_matches_constPointer :
    parse "int* const".toList = .ok constPointer ∧
      (pattern "int* const".toList .empty true).matchesAll (canonical "int* const".toList) =
        false := by
  refine ⟨parse_constPointer, ?_⟩
  rw [pattern_of_parse parse_constPointer]
  decide +kernel

end Apidoc.PrintedType
