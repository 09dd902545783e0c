import Apidoc.Proofs.PrintedType.OwnSpelling

/-!
Blanks in a printed type tell its words apart and do nothing else: rows of tokens with one canonical
spelling stand for one type.
-/
namespace Apidoc.PrintedType

theorem IsLexeme.collapse_eq {kind : Kind} {text : Text} (lexeme : IsLexeme kind text)
    (other : kind ≠ .array) : Text.collapse text = text := by
  cases lexeme with
  | word _ all =>
    exact Text.collapse_of_solid fun c member => Text.isBlank_of_isWord (all c member)
  | scope => decide
  | array => exact absurd rfl other
  | mark listed => exact Text.collapse_of_solid (by simpa using isBlank_of_mem_marks listed)

/-- Lexemes that are spelled alike, up to the blanks between brackets. -/
structure Token.Same (t u : Token) : Prop where
  left : t.WellFormed
  right : u.WellFormed
  kind : t.kind = u.kind
  text : Text.collapse t.text = Text.collapse u.text

namespace Token.Same

variable {t u : Token}

theorem symm (same : t.Same u) : u.Same t :=
  ⟨same.right, same.left, same.kind.symm, same.text.symm⟩

theorem text_eq (same : t.Same u) (other : t.kind ≠ .array) : t.text = u.text := by
  rw [← same.left.lexeme.collapse_eq other, same.text,
    same.right.lexeme.collapse_eq (same.kind ▸ other)]

theorem property (same : t.Same u) {p : Text → Prop}
    (other : ∀ {v : Token}, v.WellFormed → p v.text → v.kind ≠ .array) : p t.text ↔ p u.text := by
  have forward {t u : Token} (same : t.Same u) (holds : p t.text) : p u.text :=
    same.text_eq (other same.left holds) ▸ holds
  exact ⟨forward same, forward same.symm⟩

theorem text_iff (same : t.Same u) {kind : Kind} {w : Text} (lexeme : IsLexeme kind w)
    (other : kind ≠ .array) : t.text = w ↔ u.text = w :=
  same.property (p := (· = w)) fun {v} formed (text : v.text = w) =>
    formed.kind_of_text text lexeme ▸ other

theorem isConst (same : t.Same u) : t.isConst = u.isConst := by
  rw [Bool.eq_iff_iff]
  simpa [Token.isConst] using same.text_iff lexeme_constWord (by decide)

theorem isReference (same : t.Same u) : t.isReference = u.isReference := by
  rw [Bool.eq_iff_iff]
  simpa [Token.isReference] using same.text_iff (.mark (c := '&') (by decide)) (by decide)

theorem isPointer (same : t.Same u) : t.isPointer = u.isPointer := by
  rw [Bool.eq_iff_iff]
  have star := same.text_iff (.mark (c := '*') (by decide)) (by decide)
  simp [Token.isPointer, star, same.kind]

theorem isDecoration (same : t.Same u) : t.isDecoration = u.isDecoration := by
  simp only [Token.isDecoration, same.isConst, same.isPointer, same.isReference]

theorem sign (same : t.Same u) : Sign.ofText? t.text = Sign.ofText? u.text := by
  apply Option.ext
  intro s
  apply same.property (p := fun w => Sign.ofText? w = some s)
  intro v formed found
  have sign : v.isSign := Option.isSome_iff_exists.mpr ⟨s, found⟩
  simp [formed.word_of_sign sign]

theorem combining (same : t.Same u) : isCombining t.text = isCombining u.text := by
  rw [Bool.eq_iff_iff]
  apply same.property (p := fun w => isCombining w)
  intro v formed run
  simp [formed.word_of_combining run]

end Token.Same

/-- Rows with one canonical spelling, whatever blanks stand in them. -/
structure Alike (ts us : List Token) : Prop where
  left : Formed ts
  right : Formed us
  neat : neatRow true ts = neatRow true us

theorem neatRow_true {glued glued' : Bool} {ts us : List Token}
    (same : neatRow glued ts = neatRow glued' us) : neatRow true ts = neatRow true us := by
  match ts, us, same with
  | [], [], _ => rfl
  | t :: ts, u :: us, same =>
    obtain ⟨first, others⟩ := List.cons.inj same
    obtain ⟨kind, -, text⟩ := Token.mk.injEq .. ▸ first
    simp only [neatRow, kind, text, others]
    rfl

theorem length_neatRow (glued : Bool) (ts : List Token) :
    (neatRow glued ts).length = ts.length := by
  induction ts generalizing glued with
  | nil => rfl
  | cons t ts ih => simp [neatRow, ih]

namespace Alike

variable {ts us vs : List Token} {t : Token}

theorem symm (alike : Alike ts us) : Alike us ts := ⟨alike.right, alike.left, alike.neat.symm⟩

theorem nil (alike : Alike [] us) : us = [] := by
  have none := congrArg List.length alike.neat
  rw [length_neatRow, length_neatRow] at none
  exact List.eq_nil_of_length_eq_zero none.symm

theorem cons (alike : Alike (t :: ts) us) :
    ∃ u vs, us = u :: vs ∧ t.Same u ∧ Alike ts vs := by
  obtain ⟨left, right, neat⟩ := alike
  match us, neat with
  | u :: vs, neat =>
    obtain ⟨first, others⟩ := List.cons.inj neat
    obtain ⟨kind, -, text⟩ := Token.mk.injEq .. ▸ first
    exact ⟨u, vs, rfl, ⟨left.cons.1, right.cons.1, kind, text⟩,
      ⟨left.cons.2, right.cons.2, neatRow_true others⟩⟩

theorem append (alike : Alike (ts ++ us) vs) :
    ∃ as bs, vs = as ++ bs ∧ Alike ts as ∧ Alike us bs := by
  obtain ⟨left, right, neat⟩ := alike
  have long : ts.length ≤ vs.length := by
    have both := congrArg List.length neat
    rw [length_neatRow, length_neatRow, List.length_append] at both
    omega
  have split : vs = vs.take ts.length ++ vs.drop ts.length := (List.take_append_drop _ _).symm
  rw [split, neatRow_append, neatRow_append] at neat
  obtain ⟨front, back⟩ := List.append_inj neat (by simp [length_neatRow, long])
  rw [split] at right
  exact ⟨_, _, split, ⟨left.append.1, right.append.1, front⟩,
    ⟨left.append.2, right.append.2, neatRow_true back⟩⟩

theorem toList {o : Option Token} (alike : Alike o.toList us) :
    ∃ p : Option Token, us = p.toList := by
  cases o with
  | none => exact ⟨none, alike.nil⟩
  | some t =>
    obtain ⟨u, vs, rfl, -, others⟩ := alike.cons
    exact ⟨some u, by rw [others.nil, Option.toList_some]⟩

theorem head?_map {β : Type} {f : Token → β} (respects : ∀ {t u}, Token.Same t u → f t = f u)
    (alike : Alike ts us) : us.head?.map f = ts.head?.map f := by
  cases ts with
  | nil =>
    obtain rfl := alike.nil
    rfl
  | cons t ts =>
    obtain ⟨u, vs, rfl, same, -⟩ := alike.cons
    exact congrArg some (respects same).symm

theorem option_map {o p : Option Token} {β : Type} {f : Token → β}
    (respects : ∀ {t u}, Token.Same t u → f t = f u) (alike : Alike o.toList p.toList) :
    p.map f = o.map f := by
  have heads := alike.head?_map respects
  rwa [Option.head?_toList, Option.head?_toList] at heads

theorem isSome {o p : Option Token} (alike : Alike o.toList p.toList) :
    p.isSome = o.isSome := by
  have both := congrArg Option.isSome (alike.option_map (f := fun _ => ()) fun _ => rfl)
  rwa [Option.isSome_map, Option.isSome_map] at both

theorem map {β : Type} {f : Token → β} (alike : Alike ts us)
    (respects : ∀ t ∈ ts, ∀ u, t.Same u → f t = f u) : us.map f = ts.map f := by
  induction ts generalizing us with
  | nil =>
    obtain rfl := alike.nil
    rfl
  | cons t ts ih =>
    obtain ⟨u, vs, rfl, same, others⟩ := alike.cons
    obtain ⟨first, rest⟩ := List.forall_mem_cons.mp respects
    rw [List.map_cons, List.map_cons, first u same, ih others rest]

theorem any {p : Token → Bool} (alike : Alike ts us)
    (respects : ∀ {t u}, Token.Same t u → p t = p u) : us.any p = ts.any p := by
  have marked := congrArg (List.any · id) (alike.map fun _ _ _ same => respects same)
  simpa using marked

theorem countP {p : Token → Bool} (alike : Alike ts us)
    (respects : ∀ {t u}, Token.Same t u → p t = p u) : us.countP p = ts.countP p := by
  have counted := congrArg (List.countP id) (alike.map fun _ _ _ same => respects same)
  simpa [List.countP_map] using counted

theorem head?_any {p : Token → Bool} (alike : Alike ts us)
    (respects : ∀ {t u}, Token.Same t u → p t = p u) : us.head?.any p = ts.head?.any p := by
  have heads := congrArg (Option.any id) (alike.head?_map respects)
  rwa [Option.any_map, Option.any_map] at heads

theorem words (alike : Alike ts us) (word : ∀ t ∈ ts, t.kind = .word) :
    us.map Token.text = ts.map Token.text :=
  alike.map fun t member u same => same.text_eq (by simp [word t member])

theorem forall_mem {p : Token → Prop} (respects : ∀ {t u}, Token.Same t u → p t → p u)
    (alike : Alike ts us) (all : ∀ t ∈ ts, p t) : ∀ u ∈ us, p u := by
  induction ts generalizing us with
  | nil =>
    obtain rfl := alike.nil
    simp
  | cons t ts ih =>
    obtain ⟨u, vs, rfl, same, others⟩ := alike.cons
    obtain ⟨first, rest⟩ := List.forall_mem_cons.mp all
    exact List.forall_mem_cons.mpr ⟨respects same first, ih others rest⟩

theorem isName (alike : Alike ts us) (name : IsName ts) : IsName us := by
  rcases name with ⟨t, rfl, word, single⟩ | ⟨some, run⟩
  · obtain ⟨u, vs, rfl, same, others⟩ := alike.cons
    obtain rfl := others.nil
    exact .inl ⟨u, rfl, same.kind ▸ word, same.combining ▸ single⟩
  · refine .inr ⟨?_, alike.forall_mem (fun same both => ?_) run⟩
    · rintro rfl
      exact some (alike.symm.nil)
    · exact ⟨same.kind ▸ both.1, same.combining ▸ both.2⟩

theorem signLeads (alike : Alike ts us) : SignLeads ts ↔ SignLeads us := by
  match ts, alike with
  | [], alike => rw [alike.nil]
  | [t], alike =>
    obtain ⟨u, vs, rfl, -, others⟩ := alike.cons
    rw [others.nil]
    exact Iff.rfl
  | t :: t' :: ts, alike =>
    obtain ⟨u, vs, rfl, first, others⟩ := alike.cons
    obtain ⟨u', vs', rfl, second, -⟩ := others.cons
    simp only [SignLeads, Token.isSign, first.sign, second.kind, second.isConst]

theorem canonical_eq (alike : Alike ts us) : canonical (rowText ts) = canonical (rowText us) := by
  rw [canonical_row alike.left, canonical_row alike.right, alike.neat]

end Alike

/-! A derivation of one row is a derivation of every row like it, up to the blanks in its leaves. -/

section Types

variable {lead lead' sign sign' : Option Token} {name name' : NameNode}
  {decorations decorations' : List Token}

theorem TypeNode.valid_of_alike (valid : (TypeNode.mk lead sign name decorations).Valid)
    (named : name'.Valid) (leading : Alike lead.toList lead'.toList)
    (signing : Alike sign.toList sign'.toList)
    (front : Alike (sign.toList ++ name.yield) (sign'.toList ++ name'.yield))
    (decorating : Alike decorations decorations')
    (behind : Alike (sign.toList ++ name.yield ++ decorations)
      (sign'.toList ++ name'.yield ++ decorations')) :
    (TypeNode.mk lead' sign' name' decorations').Valid := by
  obtain ⟨leads, bare, signs, -, decorated⟩ := valid
  have decorated' : ∀ t ∈ decorations', t.isDecoration :=
    decorating.forall_mem (fun same mark => same.isDecoration ▸ mark) decorated
  refine ⟨?_, ?_, ?_, named, decorated'⟩
  · simpa using leading.forall_mem (fun same const => same.isConst ▸ const) (by simpa using leads)
  · intro none t head
    have missing : lead = Option.none := by
      have both := leading.isSome
      rwa [none, Option.isSome_none, eq_comm, Option.isSome_eq_false_iff,
        Option.isNone_iff_eq_none] at both
    have const := front.head?_map Token.Same.isConst
    rw [head] at const
    obtain ⟨u, found, same⟩ := Option.map_eq_some_iff.mp const.symm
    rw [← same]
    exact bare missing u found
  · rw [signing.isSome, signs]
    exact behind.signLeads

theorem TypeNode.tree_of_alike (leading : Alike lead.toList lead'.toList)
    (signing : Alike sign.toList sign'.toList)
    (front : Alike (sign.toList ++ name.yield) (sign'.toList ++ name'.yield))
    (decorating : Alike decorations decorations') (path : name'.path = name.path) :
    (TypeNode.mk lead' sign' name' decorations').tree =
      (TypeNode.mk lead sign name decorations).tree := by
  have qualified := decorating.head?_any Token.Same.isConst
  have refers := decorating.any Token.Same.isReference
  have points := decorating.countP Token.Same.isPointer
  have signed : (sign'.bind fun t => Sign.ofText? t.text) =
      sign.bind fun t => Sign.ofText? t.text := by
    have signs := congrArg (Option.bind · id) (signing.option_map Token.Same.sign)
    simpa [Option.bind_map, Function.comp_def] using signs
  have spelled : canonical ((sign'.toList ++ name'.yield).flatMap Token.source) =
      canonical ((sign.toList ++ name.yield).flatMap Token.source) := front.canonical_eq.symm
  rw [TypeNode.tree, TypeNode.tree, leading.isSome, qualified, refers, points, signed, spelled,
    path]

end Types

mutual

theorem TypeNode.respaced : (d : TypeNode) → d.Valid → ∀ us : List Token, Alike d.yield us →
    ∃ e : TypeNode, e.Valid ∧ e.yield = us ∧ e.tree = d.tree
  | .mk lead sign name decorations, valid => by
    intro us alike
    obtain ⟨_, _, rfl, leading, behind⟩ := Alike.append alike
    obtain ⟨_, decorations', rfl, front, decorating⟩ := behind.append
    obtain ⟨_, _, rfl, signing, naming⟩ := front.append
    obtain ⟨lead', rfl⟩ := leading.toList
    obtain ⟨sign', rfl⟩ := signing.toList
    obtain ⟨name', named, rfl, path⟩ := name.respaced valid.2.2.2.1 _ naming
    exact ⟨.mk lead' sign' name' decorations',
      TypeNode.valid_of_alike valid named leading signing front decorating behind, rfl,
      TypeNode.tree_of_alike leading signing front decorating path⟩

theorem NameNode.respaced : (d : NameNode) → d.Valid → ∀ us : List Token, Alike d.yield us →
    ∃ e : NameNode, e.Valid ∧ e.yield = us ∧ e.path = d.path
  | .base segment, valid => by
    intro us alike
    obtain ⟨e, valid', rfl, same⟩ := segment.respaced valid _ alike
    exact ⟨.base e, valid', rfl, by rw [NameNode.path, NameNode.path, same]⟩
  | .inside scope colons name, ⟨outer, joined, inner⟩ => by
    intro us alike
    obtain ⟨_, _, rfl, front, behind⟩ := Alike.append alike
    obtain ⟨colons', _, rfl, mark, back⟩ := behind.cons
    obtain ⟨e, outer', rfl, first⟩ := scope.respaced outer _ front
    obtain ⟨f, inner', rfl, others⟩ := name.respaced inner _ back
    have joined' := (mark.text_iff .scope (by decide)).mp joined
    exact ⟨.inside e colons' f, ⟨outer', joined', inner'⟩, rfl,
      by rw [NameNode.path, NameNode.path, first, others]⟩

theorem SegmentNode.respaced : (d : SegmentNode) → d.Valid → ∀ us : List Token,
    Alike d.yield us → ∃ e : SegmentNode, e.Valid ∧ e.yield = us ∧ e.segment = d.segment
  | .plain words, valid => by
    intro us alike
    have texts : us.map Token.text = words.map Token.text := Alike.words alike valid.word
    exact ⟨.plain us, Alike.isName alike valid, rfl,
      by rw [SegmentNode.segment, SegmentNode.segment, texts]⟩
  | .template words opening arguments closing, ⟨named, opens, listed, closes⟩ => by
    intro us alike
    obtain ⟨words', _, rfl, front, behind⟩ := Alike.append alike
    obtain ⟨opening', _, rfl, first, inside⟩ := behind.cons
    obtain ⟨_, _, rfl, middle, back⟩ := inside.append
    obtain ⟨closing', _, rfl, last, none⟩ := back.cons
    obtain rfl := none.nil
    obtain ⟨e, listed', rfl, same⟩ := arguments.respaced listed _ middle
    have opens' := (first.text_iff (.mark (by decide)) (by decide)).mp opens
    have closes' := (last.text_iff (.mark (by decide)) (by decide)).mp closes
    exact ⟨.template words' opening' e closing',
      ⟨front.isName named, opens', listed', closes'⟩, rfl,
      by rw [SegmentNode.segment, SegmentNode.segment, front.words named.word, same]⟩

theorem ArgumentsNode.respaced : (d : ArgumentsNode) → d.Valid → ∀ us : List Token,
    Alike d.yield us → ∃ e : ArgumentsNode, e.Valid ∧ e.yield = us ∧ e.arguments = d.arguments
  | .one type, valid => by
    intro us alike
    obtain ⟨e, valid', rfl, same⟩ := type.respaced valid _ alike
    exact ⟨.one e, valid', rfl, by rw [ArgumentsNode.arguments, ArgumentsNode.arguments, same]⟩
  | .cons type comma others, ⟨first, separates, more⟩ => by
    intro us alike
    obtain ⟨_, _, rfl, front, behind⟩ := Alike.append alike
    obtain ⟨comma', _, rfl, mark, back⟩ := behind.cons
    obtain ⟨e, first', rfl, same⟩ := type.respaced first _ front
    obtain ⟨f, more', rfl, rest⟩ := others.respaced more _ back
    have separates' := (mark.text_iff (.mark (by decide)) (by decide)).mp separates
    exact ⟨.cons e comma' f, ⟨first', separates', more'⟩, rfl,
      by rw [ArgumentsNode.arguments, ArgumentsNode.arguments, same, rest]⟩

end

theorem parse_of_alike {s s' : Text} {ts us : List Token} {tree : Tree} (alike : Alike ts us)
    (spelled : tokens s = .ok ts) (respelled : tokens s' = .ok us) (parsed : parse s = .ok tree) :
    parse s' = .ok tree := by
  obtain ⟨ts', same, d, derives, rfl⟩ := parse_eq_ok_iff.mp parsed
  obtain rfl := Except.ok.inj (spelled.symm.trans same)
  obtain ⟨valid, rfl⟩ := derives
  obtain ⟨e, valid', rfl, tree⟩ := d.respaced valid _ alike
  exact parse_eq_ok_iff.mpr ⟨_, respelled, e, ⟨valid', rfl⟩, tree⟩

/-! The canonical spelling of a text has the tokens of the text, with its own blanks. -/

theorem spaced_neatRow {ts : List Token} (spaced : Spaced ts) (glued : Bool) :
    Spaced (neatRow glued ts) := by
  induction ts generalizing glued with
  | nil => exact .nil
  | cons t ts ih =>
    refine List.isChain_cons.mpr ⟨?_, ih spaced.cons t.isTight⟩
    intro v head word word'
    match ts, head with
    | u :: ts, head =>
      cases head
      have gap : u.gap ≠ [] := (List.isChain_cons_cons.mp spaced).1 word word'
      simp only at word word'
      simp [Token.neatGap, Token.isTight, word, word', gap]

theorem tokens_of_row {ts : List Token} (formed : Formed ts) (spaced : Spaced ts) :
    tokens (rowText ts) = .ok ts := by
  have none : ∀ c ∈ ([] : Text), Text.isBlank c := by simp
  have row := tokens_rowText formed spaced none
  rwa [List.append_nil] at row

theorem tokens_canonical {s : Text} {ts : List Token} (spelled : tokens s = .ok ts) :
    tokens (canonical s) = .ok (neatRow true ts) := by
  obtain ⟨formed, spaced, tail, blank, rfl⟩ := tokens_eq_ok_iff.mp spelled
  rw [canonical_rowText formed blank]
  exact tokens_of_row (formed_neatRow formed true) (spaced_neatRow spaced true)

theorem alike_neatRow {ts : List Token} (formed : Formed ts) : Alike ts (neatRow true ts) :=
  ⟨formed, formed_neatRow formed true, (neatRow_neatRow formed true).symm⟩

/-- A text that has tokens is the same type as its canonical spelling, or neither is one. -/
theorem parse_canonical_iff {s : Text} {ts : List Token} (spelled : tokens s = .ok ts)
    {tree : Tree} : parse (canonical s) = .ok tree ↔ parse s = .ok tree := by
  have alike := alike_neatRow (tokens_spell spelled).1
  have neat := tokens_canonical spelled
  exact ⟨parse_of_alike alike.symm neat spelled, parse_of_alike alike spelled neat⟩

theorem parse_canonical {s : Text} {tree : Tree} (parsed : parse s = .ok tree) :
    parse (canonical s) = .ok tree := by
  obtain ⟨ts, spelled, -⟩ := parse_eq_ok_iff.mp parsed
  exact (parse_canonical_iff spelled).mpr parsed

/-! Where no brackets stand, the blanks that count are those between words. -/

def Token.lexeme (t : Token) : Kind × Text := (t.kind, t.text)

theorem Token.word_of_loose {t : Token} (other : t.kind ≠ .array) (loose : t.isTight = false) :
    t.kind = .word := by
  cases kind : t.kind <;> simp_all [isTight]

theorem Token.neatGap_eq {t : Token} {glued : Bool} (other : t.kind ≠ .array)
    (apart : glued = false → t.kind = .word → t.gap ≠ []) :
    t.neatGap glued = if glued || t.isTight then [] else [' '] := by
  cases glued with
  | true => simp [neatGap]
  | false =>
    cases tight : t.isTight with
    | true => simp [neatGap, tight]
    | false => simp [neatGap, tight, apart rfl (word_of_loose other tight)]

theorem neatRow_of_lexemes {ts us : List Token} {glued : Bool} (spaced : Spaced ts)
    (spaced' : Spaced us) (plain : ∀ t ∈ ts, t.kind ≠ .array)
    (same : ts.map Token.lexeme = us.map Token.lexeme)
    (first : glued = false → ∀ t, ts.head? = some t → t.kind = .word → t.gap ≠ [])
    (first' : glued = false → ∀ t, us.head? = some t → t.kind = .word → t.gap ≠ []) :
    neatRow glued ts = neatRow glued us := by
  induction ts generalizing glued us with
  | nil =>
    obtain rfl := List.map_eq_nil_iff.mp same.symm
    rfl
  | cons t ts ih =>
    match us, same with
    | u :: us, same =>
      obtain ⟨lexeme, others⟩ := List.cons.inj same
      obtain ⟨kind, text⟩ := Prod.mk.inj lexeme
      obtain ⟨other, rest⟩ := List.forall_mem_cons.mp plain
      obtain ⟨apart, inner⟩ := List.isChain_cons.mp spaced
      obtain ⟨apart', inner'⟩ := List.isChain_cons.mp spaced'
      have tight : t.isTight = u.isTight := by rw [Token.isTight, Token.isTight, kind]
      have gap : t.neatGap glued = u.neatGap glued := by
        rw [Token.neatGap_eq other fun loose => first loose t rfl,
          Token.neatGap_eq (kind ▸ other) fun loose => first' loose u rfl, tight]
      have behind : neatRow t.isTight ts = neatRow t.isTight us := by
        apply ih inner inner' rest others
        · intro loose v head
          exact apart v head (Token.word_of_loose other loose)
        · intro loose v head
          exact apart' v head (kind ▸ Token.word_of_loose other loose)
      rw [neatRow, neatRow, kind, text, gap, behind, tight]

theorem alike_of_lexemes {s s' : Text} {ts us : List Token} (plain : '[' ∉ s)
    (spelled : tokens s = .ok ts) (respelled : tokens s' = .ok us)
    (same : ts.map Token.lexeme = us.map Token.lexeme) : Alike ts us := by
  obtain ⟨formed, spaced, tail, -, rfl⟩ := tokens_eq_ok_iff.mp spelled
  obtain ⟨formed', spaced', -⟩ := tokens_eq_ok_iff.mp respelled
  refine ⟨formed, formed', neatRow_of_lexemes spaced spaced' ?_ same nofun nofun⟩
  intro t member array
  have inside : '[' ∈ t.text := by
    obtain ⟨kind, gap, text⟩ := t
    cases array
    cases (formed _ member).lexeme
    simp
  apply plain
  apply List.mem_append_left
  exact List.mem_flatMap.mpr ⟨t, member, List.mem_append_right _ inside⟩

theorem read_of_parse {s s' : Text} {tree : Tree} (first : parse s = .ok tree)
    (second : parse s' = .ok tree) : read s' = read s := by
  rw [read, read, first, second]

theorem pattern_of_read {s s' : Text} (same : read s' = read s) (table : AliasTable)
    (complete : Bool) : pattern s' table complete = pattern s table complete := by
  rw [pattern, pattern, same]

/-- The blanks of a printed type do not matter. Every text with the lexemes of a type and without
brackets is the same type, with the spellings at every depth, and is searched for by the same
pattern; and so is the canonical spelling of every type. -/
theorem spacing_irrelevant {s : Text} {tree : Tree} (parsed : parse s = .ok tree) :
    (∀ s' ts us, '[' ∉ s → tokens s = .ok ts → tokens s' = .ok us →
      ts.map Token.lexeme = us.map Token.lexeme → parse s' = .ok tree ∧ read s' = read s ∧
        ∀ table complete, pattern s' table complete = pattern s table complete) ∧
    parse (canonical s) = .ok tree ∧ read (canonical s) = read s ∧
    ∀ table complete, pattern (canonical s) table complete = pattern s table complete := by
  have neat := parse_canonical parsed
  have kept := read_of_parse parsed neat
  refine ⟨?_, neat, kept, pattern_of_read kept⟩
  intro s' ts us plain spelled respelled lexemes
  have alike := alike_of_lexemes plain spelled respelled lexemes
  have again := parse_of_alike alike spelled respelled parsed
  have same := read_of_parse parsed again
  exact ⟨again, same, pattern_of_read same⟩

def unsignedMap : Tree :=
  .mk ⟨true, none, true, 0, "QMap<int,unsigned long>".toList⟩
    (.base (.template ["QMap".toList]
      (.cons (.mk ⟨false, none, false, 0, "int".toList⟩ (.base (.plain ["int".toList])))
        (.one (.mk ⟨false, some .unsigned, false, 0, "unsigned long".toList⟩
          (.base (.plain ["long".toList])))))))

def unsignedMapRow (gaps : Nat → Text) : List Token :=
  [⟨.word, gaps 0, "const".toList⟩, ⟨.word, gaps 1, "QMap".toList⟩, ⟨.mark, gaps 2, ['<']⟩,
    ⟨.word, gaps 3, "int".toList⟩, ⟨.mark, gaps 4, [',']⟩, ⟨.word, gaps 5, "unsigned".toList⟩,
    ⟨.word, gaps 6, "long".toList⟩, ⟨.mark, gaps 7, ['>']⟩, ⟨.mark, gaps 8, ['&']⟩]

theorem spacing_irrelevant_unsignedMap :
    let loose := " const\tQMap < int ,unsigned \n long>\u00a0&".toList
    let row := "const QMap<int, unsigned long>&".toList
    parse row = .ok unsignedMap ∧ parse loose = .ok unsignedMap ∧ read loose = read row ∧
      ∀ table complete, pattern loose table complete = pattern row table complete := by
  have tight : tokens "const QMap<int, unsigned long>&".toList =
      .ok (unsignedMapRow fun i => if i ∈ [1, 5, 6] then [' '] else []) :=
    tokens_of_readsRow (by decide)
  have wide : tokens " const\tQMap < int ,unsigned \n long>\u00a0&".toList =
      .ok (unsignedMapRow fun i => match i with
        | 0 | 2 | 3 | 4 => [' ']
        | 1 => ['\t']
        | 6 => [' ', '\n', ' ']
        | 8 => ['\u00a0']
        | _ => []) :=
    tokens_of_readsRow (by decide)
  have parsed : parse "const QMap<int, unsigned long>&".toList = .ok unsignedMap := by
    rw [parse, tight]
    rfl
  have others := (spacing_irrelevant parsed).1 _ _ _ (by decide) tight wide rfl
  exact ⟨parsed, others⟩

end Apidoc.PrintedType
