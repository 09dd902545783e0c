import Apidoc.Proofs.PrintedType.DocumentedRows
import Apidoc.Proofs.PrintedType.Language

/-!
The pattern of a type takes no unrelated type: a text that it takes and that is itself a type has the
same decoration and the same base, or a typedef or legacy name for base.
-/
namespace Apidoc.PrintedType

mutual

/-- No level of the type has both a reference and pointers. -/
def Tree.Unmixed : Tree → Prop
  | .mk form path => (form.reference → form.pointers = 0) ∧ path.Unmixed

def Path.Unmixed : Path → Prop
  | .base s => s.Unmixed
  | .inside s path => s.Unmixed ∧ path.Unmixed

def Segment.Unmixed : Segment → Prop
  | .plain _ => True
  | .template _ arguments => arguments.Unmixed

def Arguments.Unmixed : Arguments → Prop
  | .one t => t.Unmixed
  | .cons t rest => t.Unmixed ∧ rest.Unmixed

end

section

-- how else a type may agree with another, and the typedef names of types
variable (otherwise : Tree → Tree → Prop) (names : Text → List Text)

mutual

/-- The second type has the decoration of the first and its base: the base name with arguments that
agree in turn, or a typedef or legacy name without arguments. -/
def Tree.Agrees : Tree → Tree → Prop
  | .mk form path, u =>
    form.reference = u.form.reference ∧ (form.pointers = 0 ↔ u.form.pointers = 0) ∧
      (path.BaseAgrees u.path.last ∨
        (∃ name ∈ names form.spelling, u.path.last = .plain [name]) ∨
        (∃ legacy, legacyNames.lookup form.fullSpelling = some legacy ∧
          u.path.last = .plain [legacy.word]) ∨
        otherwise (.mk form path) u)
termination_by structural t => t

def Path.BaseAgrees : Path → Segment → Prop
  | .base s, v => s.Agrees v
  | .inside _ path, v => path.BaseAgrees v
termination_by structural path => path

def Segment.Agrees : Segment → Segment → Prop
  | .plain words, .plain words' => words = words'
  | .template words arguments, .template words' arguments' =>
    words = words' ∧ arguments.Agrees arguments'
  | _, _ => False
termination_by structural s => s

def Arguments.Agrees : Arguments → Arguments → Prop
  | .one t, .one u => t.Agrees u
  | .cons t rest, .cons u others => t.Agrees u ∧ rest.Agrees others
  | _, _ => False
termination_by structural arguments => arguments

end

end

/-- A type with a sign and the base name `const`, and a type that is the word of the sign alone: the
scope of the name may be missing, and its `const` is then a qualifier. -/
def SignAlone (t u : Tree) : Prop :=
  ∃ sign, t.form.sign = some sign ∧ t.path.last = .plain [constWord] ∧
    u.path.last = .plain [sign.text]

/-! The parts of a derivation around its last double colon. -/

theorem not_isWordRun_marks : ¬ Text.IsWordRun [','] ∧ ¬ Text.IsWordRun [':', ':'] :=
  ⟨by decide, by decide⟩

theorem NameNode.split (d : NameNode) (valid : d.Valid) (formed : Formed d.yield) :
    ∃ (scopes : List Token) (segment : SegmentNode), d.yield = scopes ++ segment.yield ∧
      IsScopes scopes ∧ segment.Valid ∧ d.path.last = segment.segment := by
  cases d with
  | base segment => exact ⟨[], segment, rfl, isScopes_nil, valid, rfl⟩
  | inside scope colons name =>
    obtain ⟨outer, same, inner⟩ := valid
    obtain ⟨scopes, segment, eq, row, last, path⟩ := name.split inner formed.append.2.cons.2
    have level := scope.balanced outer formed.append.1
    have free := scope.sealed outer formed.append.1 not_isWordRun_marks.1 (by decide) (by decide)
    have mark := isScopes_colons same
    refine ⟨scope.yield ++ ([colons] ++ scopes), segment, by simp [NameNode.yield, eq], ?_, last,
      path⟩
    by_cases none : scopes = []
    · subst none
      exact mark.append level free (List.cons_ne_nil _ _)
    · exact (row.append mark.balanced mark.sealed none).append level free (List.cons_ne_nil _ _)

theorem TypeNode.sealed {d : TypeNode} (valid : d.Valid) (formed : Formed d.yield) :
    Sealed [','] d.yield := by
  cases d with
  | mk lead sign name decorations =>
    obtain ⟨leads, -, signs, named, decorated⟩ := valid
    have inert {ts : List Token} (plain : ∀ t ∈ ts, t.IsPlain) : Balanced ts ∧ Sealed [','] ts :=
      ⟨balanced_of_inert fun t member => (plain t member).inert,
        sealed_of_inert fun t member => (plain t member).2.2⟩
    have front : Balanced lead.toList ∧ Sealed [','] lead.toList := inert fun t member =>
      (formed.append.1 t member).isPlain_of_const (leads t (Option.mem_toList.mp member))
    have middle : Balanced sign.toList ∧ Sealed [','] sign.toList := by
      apply inert
      cases sign with
      | none => simp
      | some t =>
        simpa using (formed t (by simp [TypeNode.yield])).isPlain_of_sign (signs.mp rfl).isSign
    have back : Balanced decorations ∧ Sealed [','] decorations := inert fun t member =>
      (formed.append.2.append.2 t member).isPlain_of_decoration (decorated t member)
    have formedName := formed.append.2.append.1.append.2
    obtain ⟨scopes, segment, eq, row, last, -⟩ := name.split named formedName
    have level := name.balanced named formedName
    rw [eq] at formedName
    have free : Sealed [','] name.yield := by
      rw [eq]
      exact row.sealed.append row.balanced
        (segment.sealed last formedName.append.2 not_isWordRun_marks.1 (by decide) (by decide))
    exact front.2.append front.1 ((middle.2.append middle.1 free).append (middle.1.append level)
      back.2)

/-! The tokens behind the last double colon, read in two ways. -/

theorem Token.isCombining_of_const {t : Token} (const : t.isConst) : isCombining t.text = false := by
  rw [show t.text = constWord from eq_of_beq const]
  decide

theorem isCombining_sign (sign : Sign) : isCombining sign.text = false := by
  cases sign <;> decide

theorem IsName.eq_singleton {t : Token} {words : List Token} (name : IsName (t :: words))
    (single : isCombining t.text = false) : words = [] := by
  rcases name with ⟨u, eq, -, -⟩ | ⟨-, run⟩
  · exact (List.cons.inj eq).2
  · rw [(run t (.head _)).2] at single
    cases single

def IsTail (ts : List Token) : Prop := ts = [] ∨ ∃ t us, ts = t :: us ∧ t.text = ['<']

theorem IsTail.head {ts : List Token} (tail : IsTail ts) {us : List Token} {t : Token}
    (formed : Formed (ts ++ us)) (word : t.kind = .word) (head : (ts ++ us).head? = some t) :
    ts = [] := by
  rcases tail with none | ⟨u, vs, rfl, opens⟩
  · exact none
  · cases head
    rw [formed.cons.1.kind_of_text opens (.mark (by decide))] at word
    cases word

theorem SegmentNode.split {d : SegmentNode} (valid : d.Valid) :
    ∃ words tail, d.yield = words ++ tail ∧ IsName words ∧ IsTail tail ∧
      (tail = [] → d = .plain words) := by
  cases d with
  | plain words => exact ⟨words, [], by simp [SegmentNode.yield], valid, .inl rfl, fun _ => rfl⟩
  | template words opening arguments closing =>
    exact ⟨words, _, rfl, valid.1, .inr ⟨_, _, rfl, valid.2.1⟩, fun none => nomatch none⟩

theorem Token.WellFormed.const_of_word {t : Token} (formed : t.WellFormed) (word : t.kind = .word)
    (decoration : t.isDecoration) : t.isConst := by
  have other : t.kind ≠ .mark := by simp [word]
  have star : t.text ≠ ['*'] := formed.ne_mark other (by decide)
  have reference : t.text ≠ ['&'] := formed.ne_mark other (by decide)
  simpa [Token.isDecoration, Token.isPointer, Token.isReference, word, star, reference]
    using decoration

theorem decoration_ne_opening {t : Token} (formed : t.WellFormed) (decoration : t.isDecoration) :
    t.text ≠ ['<'] :=
  (formed.isPlain_of_decoration decoration).1

section

-- the words of a base and its template arguments, with the decorations behind them
variable {words tail decorations : List Token}

theorem not_wordLeads (last : IsTail tail) (marks : ∀ t ∈ decorations, t.kind ≠ .word)
    (formed : Formed (tail ++ decorations)) : ¬ WordLeads (tail ++ decorations) := by
  intro leads
  obtain ⟨u, us, eq, word⟩ := leads
  have none := last.head formed word (by rw [eq]; rfl)
  subst none
  rw [List.nil_append] at eq
  exact marks u (by simp [eq]) word

/-- A sign, a base and decorations are read as a segment and decorations in two ways: without the
sign, or as the sign alone with a qualifier behind it. -/
theorem align_sign {sign : Option Sign} {signed front decorations' : List Token}
    {segment : SegmentNode} (name : IsName words) (last : IsTail tail)
    (marks : ∀ t ∈ decorations, t.kind ≠ .word) (before : signed ∈ signRows sign)
    (lead : front = [] ∨ ∃ t, front = [t] ∧ t.isSign) (valid : segment.Valid)
    (decorated : ∀ t ∈ decorations', t.isDecoration)
    (formed : Formed (signed ++ (words ++ tail ++ decorations)))
    (same : signed ++ (words ++ tail ++ decorations) =
      front ++ (segment.yield ++ decorations')) :
    words ++ tail ++ decorations = segment.yield ++ decorations' ∨
      ∃ s t c, sign = some s ∧ t.text = s.text ∧ c.isConst ∧ words = [c] ∧ tail = [] ∧
        segment = .plain [t] ∧ decorations' = c :: decorations := by
  have cases : signed = [] ∨ ∃ s t, sign = some s ∧ signed = [t] ∧ t.text = s.text := by
    cases sign with
    | none => exact .inl before
    | some s =>
      rcases before with none | ⟨t, rfl, text⟩
      · exact .inl none
      · exact .inr ⟨s, t, rfl, rfl, text⟩
  obtain ⟨w, ws, rfl⟩ := List.exists_cons_of_ne_nil name.ne_nil
  rcases cases with rfl | ⟨s, t, rfl, rfl, text⟩
  · rcases lead with rfl | ⟨t, rfl, sign⟩
    · exact .inl same
    · -- a sign is followed by a word, and the base by none
      exfalso
      obtain ⟨rfl, rest⟩ := List.cons.inj same
      obtain ⟨s, -, text⟩ := Token.isSign_iff.mp sign
      obtain rfl := name.eq_singleton (by rw [text]; exact isCombining_sign s)
      apply not_wordLeads last marks formed.cons.2
      rw [show tail ++ decorations = segment.yield ++ decorations' from rest]
      exact (SegmentNode.wordLeads valid).append decorations'
  · rcases lead with rfl | ⟨u, rfl, -⟩
    · right
      obtain ⟨vs, more, eq, named, behind, plain⟩ := SegmentNode.split valid
      obtain ⟨v, vs, rfl⟩ := List.exists_cons_of_ne_nil named.ne_nil
      rw [eq] at same
      obtain ⟨rfl, rest⟩ := List.cons.inj same
      obtain rfl := named.eq_singleton (by rw [text]; exact isCombining_sign s)
      have word := name.word w (.head _)
      have formedRest : Formed (more ++ decorations') := by
        have := formed.cons.2
        rwa [rest] at this
      have none := behind.head formedRest word (by rw [← show _ = more ++ decorations' from rest]; rfl)
      subst none
      have whole : decorations' = w :: ws ++ tail ++ decorations := rest.symm
      have const := (formed.cons.2.cons.1).const_of_word word (decorated w (by simp [whole]))
      obtain rfl := name.eq_singleton (Token.isCombining_of_const const)
      have bare : tail = [] := by
        rcases last with none | ⟨o, os, rfl, opens⟩
        · exact none
        · have listed : o ∈ decorations' := by simp [whole]
          exact absurd opens (decoration_ne_opening (formedRest o listed) (decorated o listed))
      subst bare
      exact ⟨s, t, w, rfl, text, const, rfl, rfl, plain rfl, by simpa using whole⟩
    · left
      exact (List.cons.inj same).2

theorem TypeNode.word_of_front {lead sign : Option Token} {name : NameNode}
    {decorations : List Token} (valid : (TypeNode.mk lead sign name decorations).Valid) :
    (∀ t ∈ lead.toList, Text.IsWordRun t.text) ∧ ∀ t ∈ sign.toList, t.isSign := by
  obtain ⟨leads, -, signs, -⟩ := valid
  constructor
  · intro t member
    rw [show t.text = constWord from eq_of_beq (leads t (Option.mem_toList.mp member))]
    exact isWordRun_constWord
  · cases sign with
    | none => simp
    | some t => simpa using (signs.mp rfl).isSign

theorem Token.isWordRun_of_sign {t : Token} (sign : t.isSign) : Text.IsWordRun t.text := by
  obtain ⟨s, -, same⟩ := Token.isSign_iff.mp sign
  rw [same]
  exact isWordRun_sign s

theorem align_lead {sign : Option Sign} {lead signed decorations' : List Token}
    {name : NameNode} {lead' sign' : Option Token} (named : IsName words) (last : IsTail tail)
    (marks : ∀ t ∈ decorations, t.kind ≠ .word) (qualifier : lead ∈ leadRows)
    (before : signed ∈ signRows sign)
    (valid : (TypeNode.mk lead' sign' name decorations').Valid)
    (formed : Formed (lead ++ (signed ++ (words ++ tail ++ decorations))))
    (same : lead ++ (signed ++ (words ++ tail ++ decorations)) =
      lead'.toList ++ (sign'.toList ++ (name.yield ++ decorations'))) :
    signed ++ (words ++ tail ++ decorations) = sign'.toList ++ (name.yield ++ decorations') := by
  obtain ⟨leads, first, signs, inner, -⟩ := valid
  have nonempty := name.yield_ne_nil inner
  rcases qualifier with none | ⟨c, rfl, text⟩
  · cases none
    cases lead' with
    | none => exact same
    | some t =>
      exfalso
      have const := leads t rfl
      have starts : WordLeads (sign'.toList ++ (name.yield ++ decorations')) := by
        cases sign' with
        | none => exact (NameNode.wordLeads inner).append decorations'
        | some u =>
          have member : u ∈ [] ++ (signed ++ (words ++ tail ++ decorations)) := by
            rw [same]
            simp
          exact ⟨u, _, rfl, (formed u member).word_of_sign (signs.mp rfl).isSign⟩
      obtain ⟨w, ws, rfl⟩ := List.exists_cons_of_ne_nil named.ne_nil
      -- the qualifier is no sign, so none stands in front of the base
      have plain : signed = [] := by
        cases sign with
        | none => exact before
        | some s =>
          rcases before with none | ⟨u, rfl, text⟩
          · exact none
          · obtain ⟨rfl, -⟩ := List.cons.inj same
            have different : s.text ≠ constWord := by cases s <;> decide
            exact absurd ((show u.text = s.text from text).symm.trans (eq_of_beq const)) different
      subst plain
      obtain ⟨rfl, rest⟩ := List.cons.inj same
      obtain rfl := named.eq_singleton (Token.isCombining_of_const const)
      apply not_wordLeads last marks formed.cons.2
      rw [show tail ++ decorations = sign'.toList ++ (name.yield ++ decorations') from rest]
      exact starts
  · cases lead' with
    | some t => exact (List.cons.inj same).2
    | none =>
      have head : (sign'.toList ++ name.yield).head? = some c := by
        have some : sign'.toList ++ name.yield ≠ [] := by simp [nonempty]
        rw [← List.head?_append_of_ne_nil _ some, List.append_assoc,
          show sign'.toList ++ (name.yield ++ decorations') = _ from same.symm]
        rfl
      have other := first rfl c head
      simp [Token.isConst, show c.text = constWord from text] at other

theorem IsScopes.cut {ts : List Token} (scopes : IsScopes ts) (some : ts ≠ []) :
    ∃ us c, ts = us ++ [c] ∧ c.text = [':', ':'] ∧ Balanced us := by
  obtain ⟨us, c, rfl, colons⟩ := scopes.ends.resolve_left some
  refine ⟨us, c, rfl, colons, ?_⟩
  have level := scopes.balanced
  rw [Balanced, nesting_append] at level
  obtain ⟨depth, read, last⟩ := Option.bind_eq_some_iff.mp level
  rw [nesting_cons (inert_colons colons)] at last
  cases last
  exact read

theorem IsScopes.ne_sealed {front scopes behind ts : List Token} (row : IsScopes scopes)
    (some : scopes ≠ []) (run : ∀ t ∈ front, Text.IsWordRun t.text) (free : Sealed [':', ':'] ts) :
    front ++ (scopes ++ behind) ≠ ts := by
  obtain ⟨us, c, rfl, colons, level⟩ := row.cut some
  intro same
  exact free (front ++ us) c behind (by simpa using same.symm) colons
    ((balanced_of_words run).append level)

/-- Two readings of a row as words, scopes and a rest without further scopes: if one of them has any
scopes, then both end at the same double colon. -/
theorem IsScopes.last_unique {front scopes behind front' scopes' behind' : List Token}
    (row : IsScopes scopes) (row' : IsScopes scopes')
    (run : ∀ t ∈ front, Text.IsWordRun t.text) (run' : ∀ t ∈ front', Text.IsWordRun t.text)
    (free : Sealed [':', ':'] behind) (free' : Sealed [':', ':'] behind')
    (same : front ++ (scopes ++ behind) = front' ++ (scopes' ++ behind')) :
    scopes = [] ∧ scopes' = [] ∨ behind = behind' := by
  have bare {ts us : List Token} (run : ∀ t ∈ ts, Text.IsWordRun t.text)
      (free : Sealed [':', ':'] us) : Sealed [':', ':'] (ts ++ us) :=
    (sealed_of_words run not_isWordRun_marks.2).append (balanced_of_words run) free
  by_cases none : scopes = []
  · subst none
    refine .inl ⟨rfl, ?_⟩
    by_contra some
    exact row'.ne_sealed some run' (bare run free) same.symm
  · right
    have some : scopes' ≠ [] := by
      rintro rfl
      exact row.ne_sealed none run (bare run' free') same
    obtain ⟨us, c, rfl, colons, level⟩ := row.cut none
    obtain ⟨us', c', rfl, colons', level'⟩ := row'.cut some
    exact last_mark_unique colons colons' (inert_colons colons) (inert_colons colons')
      ((balanced_of_words run).append level) ((balanced_of_words run').append level') free free'
      (by simpa using same)

/-- The last segment of a row that is read as a type: its base, or the word of its sign. -/
theorem align {sign : Option Sign} {lead scopes signed decorations' : List Token}
    {name : NameNode} {lead' sign' : Option Token} (named : IsName words) (last : IsTail tail)
    (free : Sealed [':', ':'] (words ++ tail)) (level : Balanced (words ++ tail))
    (marks : ∀ t ∈ decorations, t.kind ≠ .word ∧ t.text ≠ [':', ':'])
    (qualifier : lead ∈ leadRows) (outer : IsScopes scopes) (before : signed ∈ signRows sign)
    (valid : (TypeNode.mk lead' sign' name decorations').Valid)
    (formed : Formed (lead ++ (scopes ++ (signed ++ (words ++ tail ++ decorations)))))
    (same : lead ++ (scopes ++ (signed ++ (words ++ tail ++ decorations))) =
      lead'.toList ++ (sign'.toList ++ (name.yield ++ decorations'))) :
    ∃ segment : SegmentNode, segment.Valid ∧ name.path.last = segment.segment ∧
      (words ++ tail ++ decorations = segment.yield ++ decorations' ∨
        ∃ s t c, sign = some s ∧ t.text = s.text ∧ c.isConst ∧ words = [c] ∧ tail = [] ∧
          segment = .plain [t] ∧ decorations' = c :: decorations) := by
  obtain ⟨qualified, signs⟩ := TypeNode.word_of_front valid
  have decorated := valid.2.2.2.2
  have inner := valid.2.2.2.1
  have formed' := formed
  rw [same] at formed'
  have formedName := formed'.append.2.append.2.append
  obtain ⟨front, segment, eq, row, validSegment, path⟩ := name.split inner formedName.1
  refine ⟨segment, validSegment, path, ?_⟩
  have wordless : ∀ t ∈ decorations, t.kind ≠ .word := fun t member => (marks t member).1
  have formedEnd := formed.append.2.append.2
  -- neither side has a double colon outside of brackets behind its scopes
  have left : Sealed [':', ':'] (signed ++ (words ++ tail ++ decorations)) :=
    (sealed_of_words (word_of_sign before) not_isWordRun_marks.2).append
      (balanced_of_words (word_of_sign before))
      (free.append level (sealed_of_inert fun t member => (marks t member).2))
  have right : Sealed [':', ':'] (segment.yield ++ decorations') := by
    rw [eq] at formedName
    apply (segment.sealed validSegment formedName.1.append.2 not_isWordRun_marks.2 (by decide)
      (by decide)).append (segment.balanced validSegment formedName.1.append.2)
    exact sealed_of_inert fun t member =>
      (endsName_of_decoration (formedName.2 t member) (decorated t member)).2
  have opening : ∀ t ∈ lead'.toList ++ sign'.toList, Text.IsWordRun t.text :=
    List.forall_mem_append.mpr
      ⟨qualified, fun t member => Token.isWordRun_of_sign (signs t member)⟩
  have rows : lead ++ (scopes ++ (signed ++ (words ++ tail ++ decorations))) =
      (lead'.toList ++ sign'.toList) ++ (front ++ (segment.yield ++ decorations')) := by
    rw [same, eq]
    simp
  rcases outer.last_unique row (word_of_lead qualifier) opening left right rows with
    ⟨rfl, rfl⟩ | rest
  · have single : sign'.toList = [] ∨ ∃ t, sign'.toList = [t] ∧ t.isSign := by
      cases sign' with
      | none => exact .inl rfl
      | some t => exact .inr ⟨t, rfl, signs t (.head _)⟩
    have rest := align_lead named last wordless qualifier before valid formed same
    rw [eq] at rest
    exact align_sign named last wordless before single validSegment decorated formedEnd rest
  · exact align_sign named last wordless before (.inl rfl) validSegment decorated formedEnd rest

end

/-! Bases and decorations that are read alike. -/

theorem rows_plain {words : List Text} (named : IsNameText words) {ts : List Token}
    (row : ts ∈ wordRows words) (formed : Formed ts) : IsName ts := by
  have texts : ts.map Token.text = words := row
  have word : ∀ t ∈ ts, t.kind = .word := by
    intro t member
    have run := word_of_wordRows named.1 row t member
    exact (formed t member).kind_of_text rfl (.word run.1 run.2)
  rcases named.2 with ⟨w, rfl, single⟩ | ⟨some, combining⟩
  · obtain ⟨t, rfl, same⟩ := List.map_eq_singleton_iff.mp texts
    exact .inl ⟨t, rfl, word t (.head _), by rw [same]; exact single⟩
  · refine .inr ⟨by rintro rfl; exact some texts.symm, ?_⟩
    intro t member
    exact ⟨word t member, combining _ (by rw [← texts]; exact List.mem_map_of_mem member)⟩

theorem Segment.name_of_rows {names : Text → List Text} {s : Segment} (named : s.Named)
    {ts : List Token} (row : ts ∈ s.rows names) (formed : Formed ts) :
    ∃ words tail, ts = words ++ tail ∧ IsName words ∧ IsTail tail ∧
      (tail = [] → s = .plain (words.map Token.text)) := by
  cases s with
  | plain run =>
    have texts : ts.map Token.text = run := row
    exact ⟨ts, [], by simp, rows_plain named row formed, .inl rfl, fun _ => by rw [texts]⟩
  | template run arguments =>
    obtain ⟨words, front, _, behind, rfl⟩ := Language.mem_mul.mp row
    obtain ⟨_, ⟨opening, rfl, opens⟩, inside, -, rfl⟩ := Language.mem_mul.mp behind
    exact ⟨words, _, rfl, rows_plain named.1 front formed.append.1, .inr ⟨_, _, rfl, opens⟩,
      fun none => nomatch none⟩

theorem follows_tail {tail rest : List Token} (last : IsTail tail) (follows : Follows EndsName rest) :
    Follows EndsWords (tail ++ rest) := by
  rcases last with rfl | ⟨t, us, rfl, opens⟩
  · exact follows.mono fun t ends => ends.1.1
  · exact .cons (endsWords_of_opening opens)

section

variable {otherwise : Tree → Tree → Prop} {names : Text → List Text}

theorem Segment.agrees_plain {words : List Text} (named : IsNameText words) {d : SegmentNode}
    (valid : d.Valid) {base decorations decorations' : List Token} (row : base ∈ wordRows words)
    (formed : Formed (base ++ decorations)) (behind : Follows EndsName decorations)
    (behind' : Follows EndsName decorations')
    (same : base ++ decorations = d.yield ++ decorations') :
    d.segment = .plain words ∧ decorations = decorations' := by
  have texts : base.map Token.text = words := row
  obtain ⟨run, tail, eq, name, last, plain⟩ := SegmentNode.split valid
  rw [eq, List.append_assoc] at same
  obtain ⟨rfl, rest⟩ := (rows_plain named row formed.append.1).split_unique name same
    (behind.mono fun t ends => ends.1.1) (follows_tail last behind')
  rcases last with rfl | ⟨t, us, rfl, opens⟩
  · rw [plain rfl, SegmentNode.segment, texts]
    exact ⟨rfl, rest⟩
  · rw [rest] at behind
    exact absurd behind (not_follows_cons fun ends => ends.1.2 opens)

theorem isNameText_singleton {word : Text} (run : Text.IsWordRun word) : IsNameText [word] := by
  refine ⟨by simpa using run, ?_⟩
  cases combining : isCombining word with
  | false => exact .inl ⟨word, rfl, combining⟩
  | true => exact .inr ⟨List.cons_ne_nil _ _, by simpa using combining⟩

theorem Form.decoration_agrees {form : Form} (unmixed : form.reference → form.pointers = 0)
    {decorations : List Token} (row : decorations ∈ form.decorationRows) (formed : Formed decorations) :
    form.reference = decorations.any Token.isReference ∧
      (form.pointers = 0 ↔ decorations.countP Token.isPointer = 0) := by
  by_cases reference : form.reference
  · rw [Form.decorationRows, if_pos reference] at row
    obtain ⟨t, rfl, same⟩ := row
    have refers : t.isReference := by simp [Token.isReference, same]
    have pointer := (formed t (.head _)).not_pointer_of_reference refers
    simp [reference, refers, pointer, unmixed reference]
  · by_cases pointed : form.pointers ≠ 0
    · rw [Form.decorationRows, if_neg reference, if_pos pointed] at row
      obtain ⟨some, pointers⟩ := row
      obtain ⟨t, member⟩ := List.exists_mem_of_ne_nil _ some
      have counted := List.countP_pos_iff.mpr ⟨t, member, pointers t member⟩
      have none : decorations.any Token.isReference = false := by
        rw [List.any_eq_false]
        intro u inside refers
        have pointer := (formed u inside).not_pointer_of_reference refers
        rw [pointers u inside] at pointer
        cases pointer
      rw [none]
      exact ⟨by simpa using reference, by omega⟩
    · rw [Form.decorationRows, if_neg reference, if_neg pointed] at row
      cases row
      simp at pointed
      simpa [pointed] using reference

/-- How the row of a type is read as a type: with the base of the row and its decorations, or as the
sign of a base that is `const`. -/
theorem align_rows {form : Form} {s : Segment} {sign : Option Sign}
    (words : ∀ key, ∀ w ∈ names key, Text.IsWordRun w) (named : s.Named)
    {lead front base decorations decorations' : List Token} {name : NameNode}
    {lead' sign' : Option Token} (qualifier : lead ∈ leadRows) (before : front ∈ prefixRows sign)
    (row : base ∈ s.rows names) (marks : decorations ∈ form.decorationRows)
    (valid : (TypeNode.mk lead' sign' name decorations').Valid)
    (formed : Formed (TypeNode.mk lead' sign' name decorations').yield)
    (same : lead ++ (front ++ base) ++ decorations =
      (TypeNode.mk lead' sign' name decorations').yield) :
    ∃ segment : SegmentNode, segment.Valid ∧ name.path.last = segment.segment ∧
      (base ++ decorations = segment.yield ++ decorations' ∨
        ∃ sg c, sign = some sg ∧ s = .plain [constWord] ∧ segment.segment = .plain [sg.text] ∧
          c.isConst ∧ decorations' = c :: decorations) := by
  rw [← same] at formed
  have formedBase := formed.append.1.append.2.append.2
  obtain ⟨scopes, outer, signed, mark, rfl⟩ := Language.mem_mul.mp before
  have free := s.sealed_rows words named not_isWordRun_marks.2 (by decide) (by decide) base row formedBase
  have level := s.balanced_rows words named base row formedBase
  obtain ⟨run, tail, rfl, isName, last, plain⟩ := Segment.name_of_rows named row formedBase
  have wordless (t : Token) (member : t ∈ decorations) :=
    (decorationRows_plain marks formed.append.2 t member).2
  obtain ⟨segment, validSegment, path, cases⟩ := align isName last free level wordless qualifier
    outer mark valid (by simpa using formed) (by simpa [TypeNode.yield] using same)
  refine ⟨segment, validSegment, path, cases.imp_right ?_⟩
  intro alone
  obtain ⟨sg, t, c, eq, text, const, rfl, rfl, rfl, rest⟩ := alone
  have word : c.text = constWord := eq_of_beq const
  exact ⟨sg, c, eq, by rw [plain rfl, List.map_singleton, word],
    by rw [SegmentNode.segment, List.map_singleton, text], const, rest⟩

theorem legacyNames_ne_const : ∀ legacy ∈ legacyNames.map Prod.snd, legacy.word ≠ constWord := by
  simp only [legacyNames, List.map_cons, List.map_nil, List.forall_mem_cons]
  decide

theorem Form.StandsFor.ne_const {form : Form} {names : List Text} {sign : Sign}
    (stands : form.StandsFor names (some sign) constWord) : False := by
  rcases stands with ⟨none, -⟩ | found
  · cases none
  · obtain ⟨before, behind, eq, -⟩ := List.lookup_eq_some_iff.mp found
    exact legacyNames_ne_const ⟨some sign, constWord⟩ (by rw [eq]; simp) rfl

theorem follows_of_marks {decorations : List Token} (formed : Formed decorations)
    (decorated : ∀ t ∈ decorations, t.isDecoration) : Follows EndsName decorations := by
  intro t head
  have member := List.mem_of_mem_head? head
  exact endsName_of_decoration (formed t member) (decorated t member)

mutual

theorem Tree.agrees (words : ∀ key, ∀ w ∈ names key, Text.IsWordRun w) :
    (t : Tree) → t.Named → t.Unmixed → ∀ d : TypeNode, d.Valid → Formed d.yield →
      d.yield ∈ t.rows names → t.Agrees SignAlone names d.tree
  | .mk form path, named, unmixed => by
    intro d valid formed row
    obtain ⟨lead', sign', name, decorations'⟩ := d
    obtain ⟨_, front, decorations, marks, same⟩ := Language.mem_mul.mp row
    obtain ⟨lead, const, core, own, rfl⟩ := Language.mem_mul.mp front
    have formed' := formed
    rw [← same] at formed'
    have decorated (t : Token) (member : t ∈ decorations) :=
      (decorationRows_plain marks formed'.append.2 t member).1
    have behind := follows_of_marks formed'.append.2 decorated
    have behind' := follows_of_marks formed.append.2.append.2 valid.2.2.2.2
    obtain ⟨reference, pointers⟩ := Form.decoration_agrees unmixed.1 marks formed'.append.2
    -- a `const` in front of the decorations is none of them
    have counted {c : Token} (const : c.isConst) (eq : decorations' = c :: decorations) :
        form.reference = decorations'.any Token.isReference ∧
          (form.pointers = 0 ↔ decorations'.countP Token.isPointer = 0) := by
      have plain := (formed c (by simp [TypeNode.yield, eq])).not_pointer_of_const const
      simp [eq, plain.1, plain.2, reference, pointers]
    rcases own with own | ⟨sign, word, stands, other⟩
    · obtain ⟨first, before, base, last, rfl⟩ := Language.mem_mul.mp own
      have base' := last
      rw [path.baseRows_eq] at base'
      obtain ⟨segment, validSegment, lastEq, alike | alone⟩ :=
        align_rows words (path.named_last named) const before base' marks valid formed same
      · have formedBase : Formed (base ++ decorations) :=
          List.forall_mem_append.mpr ⟨formed'.append.1.append.2.append.2, formed'.append.2⟩
        obtain ⟨agree, rfl⟩ := path.agrees words named unmixed.2 segment validSegment base
          decorations decorations' formedBase behind behind' last alike
        exact ⟨reference, pointers, .inl (by rw [← lastEq] at agree; exact agree)⟩
      · obtain ⟨sg, c, eq, plain, text, isConst, rest⟩ := alone
        obtain ⟨reference, pointers⟩ := counted isConst rest
        exact ⟨reference, pointers, .inr (.inr (.inr ⟨sg, eq, plain, lastEq.trans text⟩))⟩
    · obtain ⟨first, before, base, last, rfl⟩ := Language.mem_mul.mp other
      have single := isNameText_singleton (stands.isWordRun (words form.spelling))
      have named' : (Segment.plain [word]).Named := single
      obtain ⟨segment, validSegment, lastEq, alike | alone⟩ :=
        align_rows words named' const before last marks valid formed same
      · have formedBase : Formed (base ++ decorations) :=
          List.forall_mem_append.mpr ⟨formed'.append.1.append.2.append.2, formed'.append.2⟩
        obtain ⟨agree, rfl⟩ :=
          Segment.agrees_plain single validSegment last formedBase behind behind' alike
        refine ⟨reference, pointers, .inr ?_⟩
        rcases stands with ⟨-, listed⟩ | found
        · exact .inl ⟨word, listed, lastEq.trans agree⟩
        · exact .inr (.inl ⟨⟨sign, word⟩, found, lastEq.trans agree⟩)
      · obtain ⟨sg, c, rfl, plain, -⟩ := alone
        cases plain
        exact stands.ne_const.elim

theorem Path.agrees (words : ∀ key, ∀ w ∈ names key, Text.IsWordRun w) :
    (path : Path) → path.Named → path.Unmixed → ∀ d : SegmentNode, d.Valid →
      ∀ base decorations decorations' : List Token, Formed (base ++ decorations) →
        Follows EndsName decorations → Follows EndsName decorations' →
        base ∈ path.baseRows names → base ++ decorations = d.yield ++ decorations' →
        path.BaseAgrees SignAlone names d.segment ∧ decorations = decorations'
  | .base s, named, unmixed => s.agrees words named unmixed
  | .inside _ path, named, unmixed => path.agrees words named.2 unmixed.2

theorem Segment.agrees (words : ∀ key, ∀ w ∈ names key, Text.IsWordRun w) :
    (s : Segment) → s.Named → s.Unmixed → ∀ d : SegmentNode, d.Valid →
      ∀ base decorations decorations' : List Token, Formed (base ++ decorations) →
        Follows EndsName decorations → Follows EndsName decorations' →
        base ∈ s.rows names → base ++ decorations = d.yield ++ decorations' →
        s.Agrees SignAlone names d.segment ∧ decorations = decorations'
  | .plain run, named, _ => by
    intro d valid base decorations decorations' formed behind behind' row same
    obtain ⟨eq, rest⟩ := Segment.agrees_plain named valid row formed behind behind' same
    rw [eq]
    exact ⟨rfl, rest⟩
  | .template run arguments, named, unmixed => by
    intro d valid base decorations decorations' formed behind behind' row same
    obtain ⟨front, texts, _, inside, rfl⟩ := Language.mem_mul.mp row
    obtain ⟨_, ⟨opening, rfl, opens⟩, _, list, rfl⟩ := Language.mem_mul.mp inside
    obtain ⟨inner, own, _, ⟨closing, rfl, closes⟩, rfl⟩ := Language.mem_mul.mp list
    have name := rows_plain named.1 texts formed.append.1.append.1
    have starts : Follows EndsWords (opening :: (inner ++ closing :: decorations)) :=
      .cons (endsWords_of_opening opens)
    have formedInside := formed.append.1.append.2.append.2.append.1
    have row : front ++ opening :: (inner ++ closing :: decorations) =
        d.yield ++ decorations' := by simpa using same
    cases d with
    | plain words' =>
      obtain ⟨-, rest⟩ := name.split_unique valid row starts (behind'.mono fun t ends => ends.1.1)
      rw [← rest] at behind'
      exact absurd behind' (not_follows_cons fun ends => ends.1.2 opens)
    | template words' opening' arguments' closing' =>
      obtain ⟨named', opens', valid', closes'⟩ := valid
      simp only [SegmentNode.yield, List.append_assoc, List.cons_append, List.nil_append] at row
      obtain ⟨rfl, rest⟩ := name.split_unique named' row starts
        (.cons (endsWords_of_opening opens'))
      obtain ⟨rfl, more⟩ := List.cons.inj rest
      have formed' : Formed arguments'.yield := by
        have whole : Formed (inner ++ closing :: decorations) := by
          intro t member
          exact formed t (by simp at member ⊢; tauto)
        rw [more] at whole
        exact whole.append.1
      obtain ⟨rfl, marks⟩ := closing_unique closes closes'
        (arguments.balanced_rows words named.2 inner own formedInside)
        (arguments'.balanced valid' formed') more
      exact ⟨⟨(show front.map Token.text = run from texts).symm,
        arguments.agrees words named.2 unmixed arguments' valid' formed' own⟩, marks⟩

theorem Arguments.agrees (words : ∀ key, ∀ w ∈ names key, Text.IsWordRun w) :
    (arguments : Arguments) → arguments.Named → arguments.Unmixed → ∀ d : ArgumentsNode, d.Valid →
      Formed d.yield → d.yield ∈ arguments.rows names →
        arguments.Agrees SignAlone names d.arguments
  | .one t, named, unmixed => by
    intro d valid formed row
    cases d with
    | one type => exact t.agrees words named unmixed type valid formed row
    | cons type comma rest =>
      have free := t.sealed_rows words named row formed
      exact absurd (type.balanced valid.1 formed.append.1)
        (free type.yield comma rest.yield rfl valid.2.1)
  | .cons t rest, named, unmixed => by
    intro d valid formed row
    obtain ⟨first, own, _, behind, same⟩ := Language.mem_mul.mp row
    obtain ⟨_, ⟨comma, rfl, mark⟩, others, list, rfl⟩ := Language.mem_mul.mp behind
    have cut : first ++ comma :: others = d.yield := same
    have formed' := formed
    rw [← cut] at formed'
    have level := t.balanced_rows words named.1 first own formed'.append.1
    cases d with
    | one type =>
      have free := TypeNode.sealed valid formed
      exact absurd level (free first comma others cut.symm mark)
    | cons type comma' rest' =>
      have free := t.sealed_rows words named.1 own formed'.append.1
      obtain ⟨rfl, rfl⟩ := first_mark_unique mark valid.2.1 level
        (type.balanced valid.1 formed.append.1) free (TypeNode.sealed valid.1 formed.append.1) cut
      exact ⟨t.agrees words named.1 unmixed.1 type valid.1 formed.append.1 own,
        rest.agrees words named.2 unmixed.2 rest' valid.2.2 formed.append.2.cons.2 list⟩

end

end

/-- A text that the pattern of a type takes, and that is a type, agrees with the type. -/
theorem agrees_of_matches {table : AliasTable} (words : table.OfWords) {type other : Text}
    {t u : Tree} (parsed : parse type = .ok t) (unmixed : t.Unmixed) (parsed' : parse other = .ok u)
    (matched : (pattern type table true).matchesAll other) :
    t.Agrees SignAlone table.names u := by
  rw [pattern_of_parse parsed, (t.spells words).matchesAll_iff] at matched
  have named := named_of_parse parsed
  obtain ⟨ts, row, tail, blank, text, formed, spaced⟩ :=
    t.rows_documented words named other matched [] (by simp)
  have spelled : tokens other = .ok ts := tokens_eq_ok_iff.mpr ⟨formed, spaced, tail, blank, text⟩
  obtain ⟨us, spelled', d, ⟨valid, rfl⟩, rfl⟩ := parse_eq_ok_iff.mp parsed'
  rw [spelled] at spelled'
  cases spelled'
  exact t.agrees words named unmixed d valid formed row

theorem ofWords_nil : (AliasTable.ofAliases []).OfWords :=
  AliasTable.ofWords_ofAliases fun _ absent => absurd absent List.not_mem_nil

def longList : Tree :=
  .mk ⟨false, none, false, 0, "QList<long>".toList⟩
    (.base (.template ["QList".toList]
      (.one (.mk ⟨false, none, false, 0, "long".toList⟩ (.base (.plain ["long".toList]))))))

theorem parse_longList : parse "QList<long>".toList = .ok longList := by
  have row : tokens "QList<long>".toList = .ok [⟨.word, [], "QList".toList⟩,
      ⟨.mark, [], ['<']⟩, ⟨.word, [], "long".toList⟩, ⟨.mark, [], ['>']⟩] :=
    tokens_of_readsRow (by decide)
  rw [parse, row]
  rfl

theorem agrees_of_matches_longList :
    (AliasTable.ofAliases []).OfWords ∧ parse "QList<int>".toList = .ok intList ∧
      intList.Unmixed ∧ parse "QList<long>".toList = .ok longList ∧
      (pattern "QList<int>".toList (.ofAliases []) true).matchesAll "QList<long>".toList ∧
      intList.Agrees SignAlone (AliasTable.ofAliases []).names longList := by
  have unmixed : intList.Unmixed := ⟨by simp, by simp, trivial⟩
  have matched : (pattern "QList<int>".toList (.ofAliases []) true).matchesAll
      "QList<long>".toList := by
    rw [pattern_of_parse parse_intList]
    decide +kernel
  exact ⟨ofWords_nil, parse_intList, unmixed, parse_longList, matched,
    agrees_of_matches ofWords_nil parse_intList unmixed parse_longList matched⟩

def scopedConst : Tree :=
  .mk ⟨false, some .unsigned, false, 0, "unsigned a::const".toList⟩
    (.inside (.plain ["a".toList]) (.base (.plain ["const".toList])))

theorem parse_scopedConst : parse "unsigned a::const".toList = .ok scopedConst := by
  have row : tokens "unsigned a::const".toList = .ok [⟨.word, [], "unsigned".toList⟩,
      ⟨.word, [' '], "a".toList⟩, ⟨.scope, [], "::".toList⟩, ⟨.word, [], "const".toList⟩] :=
    tokens_of_readsRow (by decide)
  rw [parse, row]
  rfl

def constSign : Tree :=
  .mk ⟨true, none, false, 0, "unsigned".toList⟩ (.base (.plain ["unsigned".toList]))

theorem parse_constSign : parse "unsigned const".toList = .ok constSign := by
  have row : tokens "unsigned const".toList =
      .ok [⟨.word, [], "unsigned".toList⟩, ⟨.word, [' '], "const".toList⟩] :=
    tokens_of_readsRow (by decide)
  rw [parse, row]
  rfl

/-- A sign and a scoped `const` take the word of the sign with a qualifier behind it. -/
theorem matches_unrelated_constSign :
    (AliasTable.ofAliases []).OfWords ∧ parse "unsigned a::const".toList = .ok scopedConst ∧
      scopedConst.Unmixed ∧ parse "unsigned const".toList = .ok constSign ∧
      (pattern "unsigned a::const".toList (.ofAliases []) true).matchesAll
        "unsigned const".toList ∧
      ¬ scopedConst.Agrees (fun _ _ => False) (AliasTable.ofAliases []).names constSign := by
  refine ⟨ofWords_nil, parse_scopedConst, ⟨by simp, trivial, trivial⟩,
    parse_constSign, ?_, ?_⟩
  · rw [pattern_of_parse parse_scopedConst]
    decide +kernel
  · intro agrees
    rcases agrees.2.2 with base | ⟨name, listed, -⟩ | ⟨legacy, found, -⟩ | none
    · exact absurd (show ["const".toList] = ["unsigned".toList] from base) (by decide)
    · exact absurd listed List.not_mem_nil
    · have absent : legacyNames.lookup scopedConst.form.fullSpelling = none := rfl
      cases absent.symm.trans found
    · exact none

end Apidoc.PrintedType
