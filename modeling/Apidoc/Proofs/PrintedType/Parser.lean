import Apidoc.Proofs.PrintedType.Derivation
import Mathlib.Data.List.Basic

namespace Apidoc.PrintedType

theorem accept?_eq_some {text : Text} {ts rest : List Token} :
    accept? text ts = some rest ↔ ∃ t, ts = t :: rest ∧ t.text = text := by
  cases ts with
  | nil => simp [accept?]
  | cons t ts =>
    constructor
    · intro accepted
      simp only [accept?] at accepted
      split at accepted
      · rename_i same
        cases accepted
        exact ⟨t, rfl, same⟩
      · cases accepted
    · intro found
      obtain ⟨u, eq, same⟩ := found
      cases eq
      simp [accept?, same]

theorem accept?_eq_none {text : Text} {ts : List Token} :
    accept? text ts = none ↔ ∀ t, ts.head? = some t → t.text ≠ text := by
  cases ts with
  | nil => simp [accept?]
  | cons t ts =>
    by_cases same : t.text = text <;> simp [accept?, same]

theorem accept?_cons {text : Text} {t : Token} {ts : List Token} (same : t.text = text) :
    accept? text (t :: ts) = some ts :=
  accept?_eq_some.mpr ⟨t, rfl, same⟩

theorem constAt_of_const {t : Token} {ts : List Token} (leads : t.isConst) :
    constAt (t :: ts) = (true, ts) := by
  rw [constAt, accept?_cons (eq_of_beq leads)]

theorem constAt_of_not {ts : List Token} (none : ∀ t, ts.head? = some t → t.isConst = false) :
    constAt ts = (false, ts) := by
  have refused : accept? constWord ts = .none := by
    apply accept?_eq_none.mpr
    intro t first same
    have := none t first
    simp [Token.isConst, same] at this
  rw [constAt, refused]

theorem signAt_of_leads {t : Token} {ts : List Token} (leads : SignLeads (t :: ts)) :
    signAt (t :: ts) = (Sign.ofText? t.text, ts) := by
  cases ts with
  | nil => cases leads
  | cons u ts =>
    obtain ⟨sign, word, other⟩ := leads
    obtain ⟨s, found⟩ := Option.isSome_iff_exists.mp sign
    have : u.text ≠ constWord := by simpa [Token.isConst] using other
    simp [signAt, found, word, this]

theorem signAt_of_not {ts : List Token} (none : ¬ SignLeads ts) : signAt ts = (.none, ts) := by
  match ts with
  | [] => rfl
  | [t] => rfl
  | t :: u :: ts =>
    cases found : Sign.ofText? t.text with
    | none => simp [signAt, found]
    | some s =>
      have : ¬ (u.kind = .word ∧ u.text ≠ constWord) := by
        intro word
        apply none
        exact ⟨by simp [Token.isSign, found], word.1, by simpa [Token.isConst] using word.2⟩
      simp [signAt, found, this]

theorem constAt_cases (ts : List Token) : ∃ (lead : Option Token) (name : List Token),
    ts = lead.toList ++ name ∧ (∀ t ∈ lead, t.isConst) ∧
      (lead = none → ∀ t, name.head? = some t → t.isConst = false) ∧
      constAt ts = (lead.isSome, name) := by
  by_cases leads : ∃ t, ts.head? = some t ∧ t.isConst
  · obtain ⟨t, first, const⟩ := leads
    obtain ⟨name, rfl⟩ := List.head?_eq_some_iff.mp first
    exact ⟨some t, name, rfl, by simpa using const, by simp, constAt_of_const const⟩
  · have other : ∀ t, ts.head? = some t → t.isConst = false := by
      intro t first
      cases const : t.isConst with
      | false => rfl
      | true => exact absurd ⟨t, first, const⟩ leads
    exact ⟨none, ts, rfl, by simp, fun _ => other, constAt_of_not other⟩

theorem signAt_cases (ts : List Token) : ∃ (sign : Option Token) (name : List Token),
    ts = sign.toList ++ name ∧ (sign.isSome ↔ SignLeads ts) ∧
      signAt ts = (sign.bind fun t => Sign.ofText? t.text, name) := by
  by_cases leads : SignLeads ts
  · cases ts with
    | nil => cases leads
    | cons t ts => exact ⟨some t, ts, rfl, by simp [leads], signAt_of_leads leads⟩
  · exact ⟨none, ts, rfl, by simp [leads], signAt_of_not leads⟩

theorem SignLeads.append {ts : List Token} (leads : SignLeads ts) (us : List Token) :
    SignLeads (ts ++ us) := by
  match ts, leads with
  | _ :: _ :: _, leads => exact leads

theorem SignLeads.cut {sign : Option Token} {name us : List Token} (signed : sign.isSome)
    (some : name ≠ []) (leads : SignLeads (sign.toList ++ (name ++ us))) (vs : List Token) :
    SignLeads (sign.toList ++ name ++ vs) := by
  match sign, name with
  | .some t, u :: name => exact leads

def Formed (ts : List Token) : Prop := ∀ t ∈ ts, t.WellFormed

theorem Formed.append {ts us : List Token} (formed : Formed (ts ++ us)) : Formed ts ∧ Formed us :=
  List.forall_mem_append.mp formed

theorem Formed.cons {t : Token} {ts : List Token} (formed : Formed (t :: ts)) :
    t.WellFormed ∧ Formed ts :=
  List.forall_mem_cons.mp formed

theorem Token.WellFormed.kind_of_text {t : Token} (formed : t.WellFormed) {kind : Kind}
    {text : Text} (same : t.text = text) (lexeme : IsLexeme kind text) : t.kind = kind :=
  IsLexeme.kind_eq formed.lexeme (same ▸ lexeme)

theorem lexeme_of_combining {text : Text} (combining : isCombining text) :
    IsLexeme .word text := by
  have members : ∀ w ∈ combiningWords, Text.IsWordRun w := by decide
  obtain ⟨some, all⟩ := members text (by simpa [isCombining] using combining)
  exact .word some all

theorem lexeme_constWord : IsLexeme .word constWord := .word (by decide) (by decide)

theorem Token.WellFormed.word_of_combining {t : Token} (formed : t.WellFormed)
    (combining : isCombining t.text) : t.kind = .word :=
  formed.kind_of_text rfl (lexeme_of_combining combining)

theorem combiningRun_eq (ts : List Token) :
    combiningRun ts = ((ts.takeWhile fun t => isCombining t.text).map Token.text,
      ts.dropWhile fun t => isCombining t.text) := by
  induction ts with
  | nil => rfl
  | cons t ts ih => cases combining : isCombining t.text <;> simp [combiningRun, combining, ih]

theorem nameAt_sound {ts rest : List Token} {words : List Text} (formed : Formed ts)
    (read : nameAt ts = .ok (words, rest)) :
    ∃ ws, IsName ws ∧ ws.map Token.text = words ∧ ts = ws ++ rest := by
  cases ts with
  | nil => cases read
  | cons t ts =>
    simp only [nameAt] at read
    split at read
    · cases read
    · rename_i word
      split at read
      · rename_i combining
        rw [combiningRun_eq] at read
        cases read
        refine ⟨_, .inr ⟨by simp [combining], ?_⟩, rfl, List.takeWhile_append_dropWhile.symm⟩
        intro u member
        have run := List.mem_takeWhile_imp member
        exact ⟨(formed u (List.takeWhile_subset _ member)).word_of_combining run, run⟩
      · rename_i single
        cases read
        exact ⟨[t], .inl ⟨t, rfl, by simpa using word, by simpa using single⟩, rfl, rfl⟩

theorem nameAt_complete {ws rest : List Token} (name : IsName ws)
    (ends : ∀ t, rest.head? = some t → isCombining t.text = false) :
    nameAt (ws ++ rest) = .ok (ws.map Token.text, rest) := by
  rcases name with ⟨t, rfl, word, single⟩ | ⟨some, all⟩
  · simp [nameAt, word, single]
  · cases ws with
    | nil => exact absurd rfl some
    | cons t ws =>
      have run : ∀ u ∈ t :: ws, isCombining u.text := fun u member => (all u member).2
      obtain ⟨word, combining⟩ := all t (.head _)
      obtain ⟨taken, left⟩ := Text.span_append run ends
      rw [List.cons_append, nameAt, if_neg (by simp [word]), if_pos combining, combiningRun_eq,
        ← List.cons_append, taken, left]

theorem Token.WellFormed.not_pointer_of_const {t : Token} (formed : t.WellFormed)
    (const : t.isConst) : t.isPointer = false ∧ t.isReference = false := by
  have text : t.text = constWord := eq_of_beq const
  have word := formed.kind_of_text text lexeme_constWord
  simp [isPointer, isReference, word, text, constWord]

theorem Token.WellFormed.not_pointer_of_reference {t : Token} (formed : t.WellFormed)
    (reference : t.isReference) : t.isPointer = false := by
  have text : t.text = ['&'] := eq_of_beq reference
  have mark := formed.kind_of_text text (.mark (by decide))
  simp [isPointer, mark, text]

theorem decorations_eq {ts : List Token} (formed : Formed ts) :
    decorations ts =
      (((ts.takeWhile Token.isDecoration).any Token.isReference,
        (ts.takeWhile Token.isDecoration).countP Token.isPointer),
        ts.dropWhile Token.isDecoration) := by
  induction ts with
  | nil => rfl
  | cons t ts ih =>
    obtain ⟨first, others⟩ := formed.cons
    have pointer : (t.kind = .array ∨ t.text = ['*']) ↔ t.isPointer := by simp [Token.isPointer]
    have reference : t.text = ['&'] ↔ t.isReference := by simp [Token.isReference]
    have const : t.text = constWord ↔ t.isConst := by simp [Token.isConst]
    simp only [decorations, ih others, pointer, reference, const]
    split
    · rename_i pointed
      have plain : t.isReference = false := by
        cases refers : t.isReference with
        | false => rfl
        | true => exact absurd pointed (by simp [first.not_pointer_of_reference refers])
      simp [Token.isDecoration, pointed, plain]
    · rename_i unpointed
      split
      · rename_i referred
        simp [Token.isDecoration, unpointed, referred]
      · rename_i unreferred
        split
        · rename_i leads
          simp [Token.isDecoration, unpointed, unreferred, leads]
        · rename_i other
          simp [Token.isDecoration, unpointed, unreferred, other]

/-- What is read in front of some tokens is the value of a derivation of the tokens read. -/
def Reads {α β : Type} (read : List Token → Parsed α) (Valid : β → Prop)
    (yield : β → List Token) (value : β → α) : Prop :=
  ∀ {ts : List Token} {a : α} {rest : List Token}, Formed ts → read ts = .ok (a, rest) →
    ∃ d, Valid d ∧ value d = a ∧ ts = yield d ++ rest

abbrev ReadsTypes (fuel : Nat) : Prop :=
  Reads (typeAt fuel) TypeNode.Valid TypeNode.yield TypeNode.tree

abbrev ReadsNames (fuel : Nat) : Prop :=
  Reads (pathAt fuel) NameNode.Valid NameNode.yield NameNode.path

abbrev ReadsSegments (fuel : Nat) : Prop :=
  Reads (segmentAt fuel) SegmentNode.Valid SegmentNode.yield SegmentNode.segment

abbrev ReadsArguments (fuel : Nat) : Prop :=
  Reads (argumentsAt fuel) ArgumentsNode.Valid ArgumentsNode.yield ArgumentsNode.arguments

theorem readsSegments_succ {fuel : Nat} (below : ReadsArguments fuel) :
    ReadsSegments (fuel + 1) := by
  intro ts segment rest formed read
  simp only [segmentAt] at read
  split at read
  · cases read
  · rename_i words ts₁ named
    obtain ⟨ws, name, rfl, rfl⟩ := nameAt_sound formed named
    split at read
    · cases read
      exact ⟨.plain ws, name, rfl, rfl⟩
    · rename_i ts₂ opened
      obtain ⟨opening, rfl, opens⟩ := accept?_eq_some.mp opened
      split at read
      · cases read
      · rename_i arguments ts₃ listed
        obtain ⟨d, valid, rfl, rfl⟩ := below formed.append.2.cons.2 listed
        split at read
        · cases read
        · rename_i closed
          cases read
          obtain ⟨closing, rfl, closes⟩ := accept?_eq_some.mp closed
          exact ⟨.template ws opening d closing, ⟨name, opens, valid, closes⟩, rfl,
            by simp [SegmentNode.yield]⟩

theorem readsNames_succ {fuel : Nat} (segments : ReadsSegments fuel) (names : ReadsNames fuel) :
    ReadsNames (fuel + 1) := by
  intro ts path rest formed read
  simp only [pathAt] at read
  split at read
  · cases read
  · rename_i segment ts₁ first
    obtain ⟨d, valid, rfl, rfl⟩ := segments formed first
    split at read
    · cases read
      exact ⟨.base d, valid, rfl, rfl⟩
    · rename_i ts₂ joined
      obtain ⟨colons, rfl, same⟩ := accept?_eq_some.mp joined
      split at read
      · cases read
      · rename_i inner
        cases read
        obtain ⟨e, others, rfl, rfl⟩ := names formed.append.2.cons.2 inner
        exact ⟨.inside d colons e, ⟨valid, same, others⟩, rfl, by simp [NameNode.yield]⟩

theorem readsArguments_succ {fuel : Nat} (types : ReadsTypes fuel)
    (arguments : ReadsArguments fuel) : ReadsArguments (fuel + 1) := by
  intro ts list rest formed read
  simp only [argumentsAt] at read
  split at read
  · cases read
  · rename_i type ts₁ first
    obtain ⟨d, valid, rfl, rfl⟩ := types formed first
    split at read
    · cases read
      exact ⟨.one d, valid, rfl, rfl⟩
    · rename_i ts₂ more
      obtain ⟨comma, rfl, same⟩ := accept?_eq_some.mp more
      split at read
      · cases read
      · rename_i inner
        cases read
        obtain ⟨e, others, rfl, rfl⟩ := arguments formed.append.2.cons.2 inner
        exact ⟨.cons d comma e, ⟨valid, same, others⟩, rfl, by simp [ArgumentsNode.yield]⟩

theorem behindName_eq {ts : List Token} (formed : Formed ts) :
    (constAt ts).1 = (ts.takeWhile Token.isDecoration).head?.any Token.isConst ∧
      decorations (constAt ts).2 =
        (((ts.takeWhile Token.isDecoration).any Token.isReference,
          (ts.takeWhile Token.isDecoration).countP Token.isPointer),
          ts.dropWhile Token.isDecoration) := by
  obtain ⟨lead, rest, rfl, const, other, eq⟩ := constAt_cases ts
  rw [eq]
  cases lead with
  | none =>
    refine ⟨?_, decorations_eq formed⟩
    cases rest with
    | nil => rfl
    | cons t ts =>
      have plain := other rfl t rfl
      cases decoration : t.isDecoration <;> simp [decoration, plain]
  | some t =>
    have qualifier : t.isConst := const t rfl
    have row : Formed (t :: rest) := formed
    obtain ⟨first, others⟩ := row.cons
    obtain ⟨pointer, reference⟩ := first.not_pointer_of_const qualifier
    have decoration : t.isDecoration := by simp [Token.isDecoration, qualifier]
    rw [decorations_eq others]
    simp [decoration, qualifier, pointer, reference]

theorem spellingOf_append (ts rest : List Token) :
    spellingOf (ts ++ rest) rest = canonical (ts.flatMap Token.source) := by
  simp [spellingOf]

theorem typeAt_eq {fuel : Nat} {lead sign : Option Token} {name rest : List Token} {path : Path}
    (formed : Formed rest) (some : name ≠ [])
    (qualified : constAt (lead.toList ++ (sign.toList ++ (name ++ rest))) =
      (lead.isSome, sign.toList ++ (name ++ rest)))
    (signed : signAt (sign.toList ++ (name ++ rest)) =
      (sign.bind fun t => Sign.ofText? t.text, name ++ rest))
    (read : pathAt fuel (name ++ rest) = .ok (path, rest)) :
    typeAt (fuel + 1) (lead.toList ++ (sign.toList ++ (name ++ rest))) =
      .ok (.mk
        { const := lead.isSome || (rest.takeWhile Token.isDecoration).head?.any Token.isConst
          sign := sign.bind fun t => Sign.ofText? t.text
          reference := (rest.takeWhile Token.isDecoration).any Token.isReference
          pointers := (rest.takeWhile Token.isDecoration).countP Token.isPointer
          spelling := canonical ((sign.toList ++ name).flatMap Token.source) } path,
        rest.dropWhile Token.isDecoration) := by
  obtain ⟨behind, decorated⟩ := behindName_eq formed
  have present : (sign.toList ++ (name ++ rest)).isEmpty = false := by simp [some]
  have spelling := spellingOf_append (sign.toList ++ name) rest
  rw [List.append_assoc] at spelling
  rw [typeAt, qualified]
  simp only [present, signed, read, spelling, behind, decorated]
  simp

theorem readsTypes_succ {fuel : Nat} (names : ReadsNames fuel) : ReadsTypes (fuel + 1) := by
  intro ts tree rest formed read
  obtain ⟨lead, ts₁, rfl, leads, first, qualified⟩ := constAt_cases ts
  obtain ⟨sign, ts₂, rfl, signs, signed⟩ := signAt_cases ts₁
  cases named : pathAt fuel ts₂ with
  | error e =>
    rw [typeAt, qualified] at read
    simp only [signed, named] at read
    split at read <;> cases read
  | ok value =>
    obtain ⟨path, ts₃⟩ := value
    obtain ⟨d, valid, rfl, rfl⟩ := names formed.append.2.append.2 named
    have some := d.yield_ne_nil valid
    rw [typeAt_eq formed.append.2.append.2.append.2 some qualified signed named] at read
    cases read
    have split := List.takeWhile_append_dropWhile (p := Token.isDecoration) (l := ts₃)
    refine ⟨.mk lead sign d (ts₃.takeWhile Token.isDecoration), ⟨leads, ?_, ?_, valid, ?_⟩, rfl, ?_⟩
    · intro absent t head
      apply first absent
      obtain ⟨us, eq⟩ := List.head?_eq_some_iff.mp head
      rw [← List.append_assoc, eq]
      rfl
    · rw [signs]
      constructor
      · intro leading
        exact leading.cut (signs.mpr leading) some _
      · intro leading
        have := leading.append (ts₃.dropWhile Token.isDecoration)
        rwa [List.append_assoc, List.append_assoc, split] at this
    · intro t member
      exact List.mem_takeWhile_imp member
    · simp [TypeNode.yield, split]

theorem reads (fuel : Nat) :
    ReadsTypes fuel ∧ ReadsNames fuel ∧ ReadsSegments fuel ∧ ReadsArguments fuel := by
  induction fuel with
  | zero =>
    refine ⟨?_, ?_, ?_, ?_⟩ <;>
    · intro ts value rest formed read
      cases read
  | succ fuel ih =>
    obtain ⟨types, names, segments, arguments⟩ := ih
    exact ⟨readsTypes_succ names, readsNames_succ segments names, readsSegments_succ arguments,
      readsArguments_succ types arguments⟩

def Follows (allowed : Token → Prop) (rest : List Token) : Prop :=
  ∀ t, rest.head? = some t → allowed t

def EndsSegment (t : Token) : Prop := isCombining t.text = false ∧ t.text ≠ ['<']

def EndsName (t : Token) : Prop := EndsSegment t ∧ t.text ≠ [':', ':']

def EndsType (t : Token) : Prop := EndsName t ∧ t.isDecoration = false ∧ t.kind ≠ .word

def EndsArguments (t : Token) : Prop := EndsType t ∧ t.text ≠ [',']

theorem Follows.mono {allowed others : Token → Prop} {rest : List Token}
    (follows : Follows allowed rest) (weaker : ∀ t, allowed t → others t) : Follows others rest :=
  fun t first => weaker t (follows t first)

theorem Follows.cons {allowed : Token → Prop} {t : Token} {ts : List Token} (first : allowed t) :
    Follows allowed (t :: ts) := by
  intro u eq
  cases eq
  exact first

theorem endsType_of_mark {t : Token} (formed : t.WellFormed)
    (same : t.text = [','] ∨ t.text = ['>']) : EndsType t := by
  have mark : t.kind = .mark := by
    rcases same with comma | closing
    · exact formed.kind_of_text comma (.mark (by decide))
    · exact formed.kind_of_text closing (.mark (by decide))
  rcases same with eq | eq <;>
  · refine ⟨⟨⟨?_, ?_⟩, ?_⟩, ?_, ?_⟩ <;>
      simp [Token.isDecoration, Token.isConst, Token.isPointer, Token.isReference, eq, mark,
        isCombining, combiningWords, constWord]

theorem endsArguments_of_closing {t : Token} (formed : t.WellFormed) (same : t.text = ['>']) :
    EndsArguments t :=
  ⟨endsType_of_mark formed (.inr same), by simp [same]⟩

theorem endsSegment_of_colons {t : Token} (same : t.text = [':', ':']) : EndsSegment t := by
  simp [EndsSegment, same, isCombining, combiningWords]

theorem endsName_of_decoration {t : Token} (formed : t.WellFormed) (decoration : t.isDecoration) :
    EndsName t := by
  have cases : t.text = constWord ∨ t.kind = .array ∨ t.text = ['*'] ∨ t.text = ['&'] := by
    simpa [Token.isDecoration, Token.isConst, Token.isPointer, Token.isReference, or_assoc]
      using decoration
  rcases cases with eq | array | eq | eq
  · simp [EndsName, EndsSegment, eq, isCombining, combiningWords, constWord]
  · -- the text of a pair of brackets is no lexeme of another kind
    have other {kind : Kind} {text : Text} (lexeme : IsLexeme kind text) (differs : kind ≠ .array) :
        t.text ≠ text := by
      intro same
      exact differs ((formed.kind_of_text same lexeme).symm.trans array)
    refine ⟨⟨?_, other (.mark (by decide)) (by decide)⟩, other .scope (by decide)⟩
    cases combining : isCombining t.text with
    | false => rfl
    | true => exact absurd rfl (other (lexeme_of_combining combining) (by decide))
  · simp [EndsName, EndsSegment, eq, isCombining, combiningWords]
  · simp [EndsName, EndsSegment, eq, isCombining, combiningWords]

theorem follows_decorations {ts rest : List Token} (formed : Formed ts)
    (decorations : ∀ t ∈ ts, t.isDecoration) (follows : Follows EndsType rest) :
    Follows EndsName (ts ++ rest) := by
  cases ts with
  | nil => exact follows.mono fun t ends => ends.1
  | cons t ts => exact .cons (endsName_of_decoration formed.cons.1 (decorations t (.head _)))

theorem signLeads_append (ts : List Token) {rest : List Token} (nonempty : ts ≠ [])
    (follows : Follows EndsType rest) : SignLeads (ts ++ rest) ↔ SignLeads ts := by
  match ts, rest with
  | [], _ => exact absurd rfl nonempty
  | _ :: _ :: _, _ => exact Iff.rfl
  | [_], [] => exact Iff.rfl
  | [t], u :: rest =>
    constructor
    · intro leads
      exact (follows u rfl).2.2 leads.2.1
    · intro leads
      cases leads

mutual

theorem TypeNode.read_eq : (d : TypeNode) → d.Valid → ∀ (rest : List Token) (fuel : Nat),
    Formed (d.yield ++ rest) → Follows EndsType rest → 4 * d.yield.length ≤ fuel + 1 →
      typeAt fuel (d.yield ++ rest) = .ok (d.tree, rest)
  | .mk lead sign name decorations, valid => by
    intro rest fuel formed follows enough
    obtain ⟨leads, first, signs, named, decorated⟩ := valid
    have nonempty := name.yield_ne_nil named
    have row : (TypeNode.mk lead sign name decorations).yield ++ rest =
        lead.toList ++ (sign.toList ++ (name.yield ++ (decorations ++ rest))) := by
      simp [TypeNode.yield]
    rw [row] at formed ⊢
    have length := congrArg List.length row
    simp only [List.length_append] at length
    have some : 0 < name.yield.length := List.length_pos_iff.mpr nonempty
    have formed₁ := formed.append.2.append.2
    have behind := follows_decorations formed₁.append.2.append.1 decorated follows
    have qualified : constAt (lead.toList ++ (sign.toList ++ (name.yield ++ (decorations ++ rest))))
        = (lead.isSome, sign.toList ++ (name.yield ++ (decorations ++ rest))) := by
      cases lead with
      | some t => exact constAt_of_const (leads t rfl)
      | none =>
        apply constAt_of_not
        intro t head
        apply first rfl
        have named : sign.toList ++ name.yield ≠ [] := by simp [nonempty]
        rwa [Option.toList_none, List.nil_append, ← List.append_assoc,
          List.head?_append_of_ne_nil _ named] at head
    have signed : signAt (sign.toList ++ (name.yield ++ (decorations ++ rest))) =
        (sign.bind fun t => Sign.ofText? t.text, name.yield ++ (decorations ++ rest)) := by
      have leading := signLeads_append (sign.toList ++ name.yield ++ decorations)
        (by simp [nonempty]) follows
      rw [← signs] at leading
      simp only [List.append_assoc] at leading
      cases sign with
      | some t => exact signAt_of_leads (leading.mpr rfl)
      | none => exact signAt_of_not fun leads => nomatch leading.mp leads
    cases fuel with
    | zero => omega
    | succ fuel =>
      have read := name.read_eq named _ fuel formed₁ behind (by omega)
      obtain ⟨taken, left⟩ := Text.span_append decorated fun t head => (follows t head).2.1
      rw [typeAt_eq formed₁.append.2 nonempty qualified signed read, taken, left]
      rfl

theorem NameNode.read_eq : (d : NameNode) → d.Valid → ∀ (rest : List Token) (fuel : Nat),
    Formed (d.yield ++ rest) → Follows EndsName rest → 4 * d.yield.length ≤ fuel + 2 →
      pathAt fuel (d.yield ++ rest) = .ok (d.path, rest)
  | .base segment, valid => by
    intro rest fuel formed follows enough
    have some := List.length_pos_iff.mpr (segment.yield_ne_nil valid)
    cases fuel with
    | zero => simp only [NameNode.yield] at enough; omega
    | succ fuel =>
      have read := segment.read_eq valid _ fuel formed
        (follows.mono fun t ends => ends.1) (by simp only [NameNode.yield] at enough; omega)
      have alone : accept? [':', ':'] rest = none :=
        accept?_eq_none.mpr fun t head => (follows t head).2
      simp [NameNode.yield, pathAt, read, alone, NameNode.path]
  | .inside scope colons name, valid => by
    intro rest fuel formed follows enough
    obtain ⟨outer, same, inner⟩ := valid
    have some := List.length_pos_iff.mpr (scope.yield_ne_nil outer)
    simp only [NameNode.yield, List.length_append, List.length_cons] at enough
    simp only [NameNode.yield, List.append_assoc, List.cons_append] at formed ⊢
    cases fuel with
    | zero => omega
    | succ fuel =>
      have read := scope.read_eq outer _ fuel formed
        (.cons (endsSegment_of_colons same)) (by omega)
      have next := name.read_eq inner _ fuel formed.append.2.cons.2 follows (by omega)
      simp [pathAt, read, accept?_cons same, next, NameNode.path]

theorem SegmentNode.read_eq : (d : SegmentNode) → d.Valid → ∀ (rest : List Token) (fuel : Nat),
    Formed (d.yield ++ rest) → Follows EndsSegment rest → 4 * d.yield.length ≤ fuel + 3 →
      segmentAt fuel (d.yield ++ rest) = .ok (d.segment, rest)
  | .plain words, valid => by
    intro rest fuel formed follows enough
    have some := List.length_pos_iff.mpr (IsName.ne_nil valid)
    cases fuel with
    | zero => simp only [SegmentNode.yield] at enough; omega
    | succ fuel =>
      have read := nameAt_complete valid fun t head => (follows t head).1
      have alone : accept? ['<'] rest = none :=
        accept?_eq_none.mpr fun t head => (follows t head).2
      simp [SegmentNode.yield, segmentAt, read, alone, SegmentNode.segment]
  | .template words opening arguments closing, valid => by
    intro rest fuel formed follows enough
    obtain ⟨named, opens, listed, closes⟩ := valid
    simp only [SegmentNode.yield, List.length_append, List.length_cons, List.length_nil] at enough
    simp only [SegmentNode.yield, List.append_assoc, List.cons_append, List.nil_append]
      at formed ⊢
    cases fuel with
    | zero => omega
    | succ fuel =>
      have words : Follows (fun t => isCombining t.text = false)
          (opening :: (arguments.yield ++ closing :: rest)) :=
        .cons (by simp [opens, isCombining, combiningWords])
      have read := nameAt_complete named words
      have inside := formed.append.2.cons.2
      have next := arguments.read_eq listed _ fuel inside
        (.cons (endsArguments_of_closing inside.append.2.cons.1 closes)) (by omega)
      simp [segmentAt, read, accept?_cons opens, next, accept?_cons closes, SegmentNode.segment]

theorem ArgumentsNode.read_eq : (d : ArgumentsNode) → d.Valid → ∀ (rest : List Token) (fuel : Nat),
    Formed (d.yield ++ rest) → Follows EndsArguments rest → 4 * d.yield.length ≤ fuel →
      argumentsAt fuel (d.yield ++ rest) = .ok (d.arguments, rest)
  | .one type, valid => by
    intro rest fuel formed follows enough
    have some := List.length_pos_iff.mpr (type.yield_ne_nil valid)
    cases fuel with
    | zero => simp only [ArgumentsNode.yield] at enough; omega
    | succ fuel =>
      have read := type.read_eq valid _ fuel formed (follows.mono fun t ends => ends.1)
        (by simp only [ArgumentsNode.yield] at enough; omega)
      have alone : accept? [','] rest = none :=
        accept?_eq_none.mpr fun t head => (follows t head).2
      simp [ArgumentsNode.yield, argumentsAt, read, alone, ArgumentsNode.arguments]
  | .cons type comma others, valid => by
    intro rest fuel formed follows enough
    obtain ⟨first, same, more⟩ := valid
    simp only [ArgumentsNode.yield, List.length_append, List.length_cons] at enough
    simp only [ArgumentsNode.yield, List.append_assoc, List.cons_append] at formed ⊢
    have behind := formed.append.2.cons
    cases fuel with
    | zero => omega
    | succ fuel =>
      have read := type.read_eq first _ fuel formed
        (.cons (endsType_of_mark behind.1 (.inl same))) (by omega)
      have next := others.read_eq more _ fuel behind.2 follows (by omega)
      simp [argumentsAt, read, accept?_cons same, next, ArgumentsNode.arguments]

end

end Apidoc.PrintedType
