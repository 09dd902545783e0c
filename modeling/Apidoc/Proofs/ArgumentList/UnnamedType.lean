import Apidoc.Proofs.ArgumentList.Adoption
import Apidoc.Proofs.ArgumentList.LastWord
import Apidoc.Proofs.ArgumentList.Pieces
import Apidoc.Proofs.PrintedType.Agreement
import Apidoc.Proofs.PrintedType.Enclosed

/-!
The name of a parameter that is documented by its type alone. Few words are known to belong to a
type, so the last word of some types is read as a name. The derivations of these types are told
apart by what stands in front of the word.
-/
namespace Apidoc.ArgumentList

open PrintedType Text

def lastSegment : NameNode → SegmentNode
  | .base segment => segment
  | .inside _ _ name => lastSegment name

/-- A word at the end of a type is read as a name when so many blanks stand in front of the type:
* `const` as the last decoration, behind a blank or a mark;
* an ordinary word with a sign in front;
* an ordinary word with a scope in front and blanks behind its colons;
* an ordinary word that is the whole type, behind two blanks.
-/
inductive Strays (space : Text) : TypeNode → Text → Prop
  | qualifier {lead sign : Option Token} {name : NameNode} {decorations others : List Token}
      {t : Token} (last : decorations = others ++ [t]) (const : t.isConst)
      (apart : t.gap = [] → ∃ u ∈ others.getLast?, u.text = ['*'] ∨ u.text = ['&']) :
      Strays space (.mk lead sign name decorations) t.text
  | signed {lead : Option Token} {sign t : Token} (ordinary : isTypeWord t.text = false) :
      Strays space (.mk lead (some sign) (.base (.plain [t])) []) t.text
  | inScope {lead sign : Option Token} {scope : SegmentNode} {colons t : Token} {name : NameNode}
      (last : lastSegment name = .plain [t]) (apart : t.gap ≠ [])
      (ordinary : isTypeWord t.text = false) :
      Strays space (.mk lead sign (.inside scope colons name) []) t.text
  | alone {t : Token} (apart : 2 ≤ (space ++ t.gap).length) (ordinary : isTypeWord t.text = false) :
      Strays space (.mk none none (.base (.plain [t])) []) t.text

/-! The last token of a name. -/

theorem lastSegment_valid : (name : NameNode) → name.Valid → (lastSegment name).Valid
  | .base _ => id
  | .inside _ _ name => fun valid => lastSegment_valid name valid.2.2

theorem exists_yield_lastSegment : (name : NameNode) →
    ∃ us, name.yield = us ++ (lastSegment name).yield
  | .base _ => ⟨[], rfl⟩
  | .inside scope colons name => by
    obtain ⟨us, eq⟩ := exists_yield_lastSegment name
    exact ⟨scope.yield ++ colons :: us, by rw [NameNode.yield, eq, lastSegment]; simp⟩

theorem exists_colons : (name : NameNode) → ∀ (scope : SegmentNode) (colons : Token),
    (NameNode.inside scope colons name).Valid → ∃ us c, c.text = [':', ':'] ∧
      (NameNode.inside scope colons name).yield = us ++ [c] ++ (lastSegment name).yield
  | .base _, scope, colons, valid =>
    ⟨scope.yield, colons, valid.2.1, by simp [NameNode.yield, lastSegment]⟩
  | .inside scope' colons' name, scope, colons, valid => by
    obtain ⟨us, c, text, eq⟩ := exists_colons name scope' colons' valid.2.2
    exact ⟨scope.yield ++ colons :: us, c, text, by rw [NameNode.yield, eq, lastSegment]; simp⟩

theorem isTypeWord_of_combining {w : Text} (combining : isCombining w) : isTypeWord w := by
  have member : w ∈ typeEndings := List.mem_append_left _ (by simpa [isCombining] using combining)
  simp [isTypeWord, member]

theorem exists_last_of_name {name : NameNode} (valid : name.Valid) : ∃ us z,
    name.yield = us ++ [z] ∧ (z.text = ['>'] ∨
      (z.kind = .word ∧ (isTypeWord z.text = false → lastSegment name = .plain [z]))) := by
  obtain ⟨us, eq⟩ := exists_yield_lastSegment name
  have formed := lastSegment_valid name valid
  cases segment : lastSegment name with
  | plain words =>
    rw [segment] at eq formed
    obtain ⟨ws, z, rfl⟩ := (List.eq_nil_or_concat' words).resolve_left (IsName.ne_nil formed)
    refine ⟨us ++ ws, z, by simpa [SegmentNode.yield] using eq,
      .inr ⟨IsName.word formed z (by simp), ?_⟩⟩
    intro ordinary
    rcases formed with ⟨t, single, -⟩ | ⟨-, run⟩
    · have same : ws ++ [z] = [] ++ [t] := single
      obtain ⟨rfl, -⟩ := List.append_singleton_inj.mp same
      rfl
    · have known := isTypeWord_of_combining (run z (by simp)).2
      rw [ordinary] at known
      cases known
  | template words opening arguments closing =>
    rw [segment] at eq formed
    exact ⟨us ++ (words ++ opening :: arguments.yield), closing, by simp [eq, SegmentNode.yield],
      .inl formed.2.2.2⟩

/-! The last token of a derivation. -/

section

variable {space : Text} (blank : ∀ c ∈ space, isBlank c) {lead sign : Option Token}
  {name : NameNode} {t : Token}
include blank

theorem isStray_of_qualifier {others : List Token}
    (valid : (TypeNode.mk lead sign name (others ++ [t])).Valid)
    (formed : Formed ((lead.toList ++ (sign.toList ++ name.yield ++ others)) ++ [t]))
    (spaced : Spaced ((lead.toList ++ (sign.toList ++ name.yield ++ others)) ++ [t]))
    (const : t.isConst)
    (apart : t.gap = [] → ∃ u ∈ others.getLast?, u.text = ['*'] ∨ u.text = ['&']) :
    IsStray space (lead.toList ++ (sign.toList ++ name.yield ++ others)) t := by
  obtain ⟨-, first, -, named, -⟩ := valid
  have text : t.text = constWord := eq_of_beq const
  have word : t.kind = .word := (formed.append.2 t (.head _)).kind_of_text text lexeme_constWord
  have ordinary : isTypeWord t.text = false := by
    rw [text]
    decide
  have some := name.yield_ne_nil named
  have long := List.length_pos_iff.mpr some
  refine isStray_of_behind blank formed spaced word ordinary (by simp [some]) ?_ ?_
  · intro none
    obtain ⟨u, last, mark⟩ := apart none
    obtain ⟨front, rfl⟩ := List.getLast?_eq_some_iff.mp last
    refine ⟨by simp; omega, ?_⟩
    intro v same
    obtain rfl : u = v := by simpa [← List.append_assoc] using same
    exact mark
  · rintro ⟨c, single, const⟩
    have lengths := congrArg List.length single
    simp only [List.length_append, List.length_singleton] at lengths
    have alone : lead.toList = [] ∧ sign.toList = [] :=
      ⟨List.length_eq_zero_iff.mp (by omega), List.length_eq_zero_iff.mp (by omega)⟩
    rw [Option.toList_eq_nil_iff, Option.toList_eq_nil_iff] at alone
    obtain ⟨rfl, rfl⟩ := alone
    obtain ⟨z, zs, eq⟩ := List.exists_cons_of_ne_nil some
    obtain ⟨rfl, -⟩ : z = c ∧ zs ++ others = [] := by simpa [eq] using single
    have other := first rfl z (by simp [eq])
    rw [other] at const
    cases const

theorem isStray_of_signed {sign : Token}
    (valid : (TypeNode.mk lead (some sign) (.base (.plain [t])) []).Valid)
    (formed : Formed ((lead.toList ++ [sign]) ++ [t]))
    (spaced : Spaced ((lead.toList ++ [sign]) ++ [t])) (ordinary : isTypeWord t.text = false) :
    IsStray space (lead.toList ++ [sign]) t := by
  obtain ⟨-, -, signs, named, -⟩ := valid
  have isSign : sign.isSign := (signs.mp rfl).1
  have word : t.kind = .word := IsName.word named t (.head _)
  have apart : sign.Apart t := (List.isChain_append.mp spaced).2.2 sign (by simp) t (by simp)
  have gap : t.gap ≠ [] := apart ((formed sign (by simp)).word_of_sign isSign) word
  refine isStray_of_behind blank formed spaced word ordinary (by simp)
    (fun none => absurd none gap) ?_
  rintro ⟨c, single, const⟩
  have same : lead.toList ++ [sign] = [] ++ [c] := single
  obtain ⟨-, rfl⟩ := List.append_singleton_inj.mp same
  rw [Token.isSign, eq_of_beq const] at isSign
  exact absurd isSign (by decide)

theorem isStray_of_colons {us : List Token} {colons : Token} (text : colons.text = [':', ':'])
    (formed : Formed ((us ++ [colons]) ++ [t])) (spaced : Spaced ((us ++ [colons]) ++ [t]))
    (word : t.kind = .word) (apart : t.gap ≠ []) (ordinary : isTypeWord t.text = false) :
    IsStray space (us ++ [colons]) t := by
  refine isStray_of_behind blank formed spaced word ordinary (by simp)
    (fun none => absurd none apart) ?_
  rintro ⟨c, single, const⟩
  have same : us ++ [colons] = [] ++ [c] := single
  obtain ⟨-, rfl⟩ := List.append_singleton_inj.mp same
  rw [Token.isConst, text] at const
  exact absurd const (by decide)

theorem isStray_of_alone (formed : Formed ([] ++ [t])) (spaced : Spaced ([] ++ [t]))
    (word : t.kind = .word) (apart : 2 ≤ (space ++ t.gap).length)
    (ordinary : isTypeWord t.text = false) : IsStray space [] t := by
  have long : 2 ≤ (beforeLast space [] t).length := apart
  refine ⟨word, ordinary, (setsApart_beforeLast_iff blank formed).mpr ⟨long, by simp⟩, ?_⟩
  intro qualified
  obtain ⟨c, single, -⟩ := exists_const_of_trim blank formed spaced qualified
  cases single

end

section

variable {space : Text} (blank : ∀ c ∈ space, isBlank c) {d : TypeNode} (valid : d.Valid)
  {ts : List Token} {t : Token} (row : d.yield = ts ++ [t]) (formed : Formed (ts ++ [t]))
  (spaced : Spaced (ts ++ [t]))
include blank valid row formed spaced

theorem isStray_of_strays {w : Text} (strays : Strays space d w) :
    IsStray space ts t ∧ t.text = w := by
  cases strays with
  | @qualifier lead sign name _ others e last const apart =>
    subst last
    have front : (lead.toList ++ (sign.toList ++ name.yield ++ others)) ++ [e] = ts ++ [t] := by
      simpa [TypeNode.yield] using row
    obtain ⟨rfl, rfl⟩ := List.append_singleton_inj.mp front
    exact ⟨isStray_of_qualifier blank valid formed spaced const apart, rfl⟩
  | @signed lead sign e ordinary =>
    have front : (lead.toList ++ [sign]) ++ [e] = ts ++ [t] := by
      simpa [TypeNode.yield, NameNode.yield, SegmentNode.yield] using row
    obtain ⟨rfl, rfl⟩ := List.append_singleton_inj.mp front
    exact ⟨isStray_of_signed blank valid formed spaced ordinary, rfl⟩
  | @inScope lead sign scope colons e name last apart ordinary =>
    have named := valid.2.2.2.1
    obtain ⟨us, c, text, eq⟩ := exists_colons name scope colons named
    have front : (lead.toList ++ (sign.toList ++ us) ++ [c]) ++ [e] = ts ++ [t] := by
      simpa [TypeNode.yield, eq, last, SegmentNode.yield] using row
    obtain ⟨rfl, rfl⟩ := List.append_singleton_inj.mp front
    have segment := lastSegment_valid name named.2.2
    rw [last] at segment
    exact ⟨isStray_of_colons blank text formed spaced (IsName.word segment e (.head _)) apart
      ordinary, rfl⟩
  | @alone e apart ordinary =>
    have front : [] ++ [e] = ts ++ [t] := row
    obtain ⟨rfl, rfl⟩ := List.append_singleton_inj.mp front
    have word : e.kind = .word := IsName.word valid.2.2.2.1 e (.head _)
    exact ⟨isStray_of_alone blank formed spaced word apart ordinary, rfl⟩

end

/-! The derivations whose last token strays. -/

section

variable {space : Text} (blank : ∀ c ∈ space, isBlank c) {lead sign : Option Token}
  {name : NameNode} {t : Token}
include blank

theorem strays_of_decoration {others : List Token}
    (valid : (TypeNode.mk lead sign name (others ++ [t])).Valid)
    (formed : Formed ((lead.toList ++ (sign.toList ++ name.yield ++ others)) ++ [t]))
    (stray : IsStray space (lead.toList ++ (sign.toList ++ name.yield ++ others)) t) :
    Strays space (.mk lead sign name (others ++ [t])) t.text := by
  obtain ⟨-, -, -, named, decorated⟩ := valid
  have token := formed.append.2 t (.head _)
  obtain ⟨-, touching⟩ := (setsApart_beforeLast_iff blank formed).mp stray.apart
  refine .qualifier rfl (token.const_of_word stray.word (decorated t (by simp))) ?_
  intro none
  rcases List.eq_nil_or_concat' others with rfl | ⟨front, u, rfl⟩
  · -- in front of it stands the end of the name, which is no mark
    obtain ⟨us, z, last, closing⟩ := exists_last_of_name named
    have mark := touching none z (by simp [last, ← List.append_assoc])
    rcases closing with bracket | ⟨word, -⟩
    · rw [bracket] at mark
      rcases mark with same | same <;> cases same
    · have plain : z.kind ≠ .mark := by simp [word]
      have token' := formed z (by simp [last])
      rcases mark with same | same
      · exact absurd same (token'.ne_mark plain (by decide))
      · exact absurd same (token'.ne_mark plain (by decide))
  · exact ⟨u, by simp, touching none u (by simp [← List.append_assoc])⟩

theorem strays_of_name {us : List Token} (valid : (TypeNode.mk lead sign name []).Valid)
    (last : name.yield = us ++ [t]) (segment : lastSegment name = .plain [t])
    (formed : Formed ((lead.toList ++ (sign.toList ++ us)) ++ [t]))
    (stray : IsStray space (lead.toList ++ (sign.toList ++ us)) t) :
    Strays space (.mk lead sign name []) t.text := by
  obtain ⟨leads, -, -, named, -⟩ := valid
  cases name with
  | base s =>
    obtain rfl : s = .plain [t] := segment
    obtain rfl : us = [] := by
      have single : us ++ [t] = [] ++ [t] := last.symm
      exact (List.append_singleton_inj.mp single).1
    cases sign with
    | some sign => exact .signed stray.ordinary
    | none =>
      cases lead with
      | none => exact .alone stray.apart.1 stray.ordinary
      | some l =>
        have text : l.text = constWord := eq_of_beq (leads l rfl)
        have gap : ∀ c ∈ l.gap, isBlank c := (formed l (by simp)).gap
        have bare : ∀ c ∈ ([] : Text), isBlank c := by decide
        have qualified : trim (rowText [l]) = constWord := by
          have padded := trim_pad gap bare constWord
          rw [trim_of_word isWordRun_constWord.2] at padded
          simpa [rowText, Token.source, text] using padded
        exact absurd ((trim_beforeLast blank formed).trans qualified) stray.unqualified
  | inside scope colons name =>
    refine .inScope segment ?_ stray.ordinary
    intro none
    obtain ⟨-, touching⟩ := (setsApart_beforeLast_iff blank formed).mp stray.apart
    obtain ⟨vs, c, text, eq⟩ := exists_colons name scope colons named
    have segment' : lastSegment name = .plain [t] := segment
    have front : us ++ [t] = (vs ++ [c]) ++ [t] := by
      rw [← last, eq, segment', SegmentNode.yield]
    obtain ⟨rfl, -⟩ := List.append_singleton_inj.mp front
    have mark := touching none c (by simp [← List.append_assoc])
    rw [text] at mark
    rcases mark with same | same <;> cases same

end

theorem strays_of_isStray {space : Text} (blank : ∀ c ∈ space, isBlank c) {d : TypeNode}
    (valid : d.Valid) {ts : List Token} {t : Token} (row : d.yield = ts ++ [t])
    (formed : Formed (ts ++ [t])) (stray : IsStray space ts t) : Strays space d t.text := by
  cases d with
  | mk lead sign name decorations =>
    rcases List.eq_nil_or_concat' decorations with rfl | ⟨others, e, rfl⟩
    · obtain ⟨us, z, last, closing⟩ := exists_last_of_name valid.2.2.2.1
      have front : (lead.toList ++ (sign.toList ++ us)) ++ [z] = ts ++ [t] := by
        simpa [TypeNode.yield, last] using row
      obtain ⟨rfl, rfl⟩ := List.append_singleton_inj.mp front
      have other : z.kind ≠ .mark := by simp [stray.word]
      have bracket : z.text ≠ ['>'] := (formed.append.2 z (.head _)).ne_mark other (by decide)
      have segment := (closing.resolve_left bracket).2 stray.ordinary
      exact strays_of_name blank valid last segment formed stray
    · have front : (lead.toList ++ (sign.toList ++ name.yield ++ others)) ++ [e] = ts ++ [t] := by
        simpa [TypeNode.yield] using row
      obtain ⟨rfl, rfl⟩ := List.append_singleton_inj.mp front
      exact strays_of_decoration blank valid formed stray

/-- A parameter that is documented by its type alone keeps its name, unless the last word of the
type strays. -/
theorem adoptNames_unnamed {p : Parameter} (anonymous : isAnonymous p.name) {type space : Text}
    {tree : Tree} (parsed : parse type = .ok tree) (blank : ∀ c ∈ space, isBlank c) :
    ∃ (ts : List Token) (d : TypeNode), tokens type = .ok ts ∧ d.Derives ts ∧ d.tree = tree ∧
      (∀ w, Strays space d w →
        adoptNames [p] (space ++ type) = [{ p with name := Identifier.sanitize w }]) ∧
      ((∀ w, ¬ Strays space d w) → adoptNames [p] (space ++ type) = [p]) := by
  obtain ⟨ts, spelled, d, derives, same⟩ := parse_eq_ok_iff.mp parsed
  have whole : pieces (space ++ type) = [space ++ type] :=
    pieces_of_enclosed (((unmarked_of_blank blank).enclosed 0).append (enclosed_of_parse parsed))
  have free : '=' ∉ space ++ type := by
    rw [List.mem_append]
    exact not_or.mpr ⟨fun member => absurd (blank _ member) (by decide),
      not_mem_of_parse parsed (by decide)⟩
  have spaced := spaced_of_tokens spelled
  obtain ⟨formed, tail, behind, rfl⟩ := tokens_spell spelled
  obtain ⟨valid, row⟩ := derives
  have some : ts ≠ [] := row ▸ d.yield_ne_nil valid
  obtain ⟨us, t, rfl⟩ := (List.eq_nil_or_concat' ts).resolve_left some
  obtain ⟨taken, kept⟩ := nameIn?_row blank formed spaced behind free
  refine ⟨us ++ [t], d, spelled, ⟨valid, row⟩, same, ?_, ?_⟩
  · intro w strays
    obtain ⟨stray, rfl⟩ := isStray_of_strays blank valid row formed spaced strays
    have given := taken stray
    rw [rowText] at given
    rw [adoptNames_single whole, adopt, if_pos anonymous, given]
    rfl
  · intro none
    have given := kept fun stray =>
      none t.text (strays_of_isStray blank valid row formed stray)
    rw [rowText] at given
    rw [adoptNames_single whole, adopt, if_pos anonymous, given]
    rfl

theorem adoptNames_unnamed_int :
    let p : Parameter := ⟨"_0".toList, "int".toList, .regular⟩
    isAnonymous p.name ∧ parse "int".toList = .ok intTree ∧ (∀ c ∈ [' '], isBlank c) ∧
      adoptNames [p] " int".toList = [p] := by
  intro p
  have anonymous : isAnonymous p.name := by decide
  have space : ∀ c ∈ [' '], isBlank c := by decide
  refine ⟨anonymous, parse_int, space, ?_⟩
  obtain ⟨ts, d, spelled, derives, -, -, kept⟩ := adoptNames_unnamed anonymous parse_int space
  rw [tokens_of_word (by decide) (by decide)] at spelled
  cases spelled
  obtain rfl := derives.eq_of_single
  refine kept ?_
  intro w strays
  cases strays with
  | qualifier last => simp at last
  | alone apart => exact absurd apart (by decide)

def constInt : Tree := .mk ⟨true, none, false, 0, "int".toList⟩ (.base (.plain ["int".toList]))

theorem not_adoptNames_unnamed :
    let p : Parameter := ⟨"_0".toList, "int".toList, .regular⟩
    isAnonymous p.name ∧ parse "int const".toList = .ok constInt ∧
      adoptNames [p] "int const".toList = [{ p with name := "@const".toList }] ∧
      adoptNames [p] "int const".toList ≠ [p] := by
  intro p
  have parsed : parse "int const".toList = .ok constInt := by
    have second : tokens " const".toList = .ok [⟨.word, [' '], constWord⟩] :=
      tokens_eq_cons (by decide) rfl tokens_nil
    have first : tokens "int const".toList =
        .ok [⟨.word, [], "int".toList⟩, ⟨.word, [' '], constWord⟩] :=
      tokens_eq_cons (by decide) rfl second
    rw [parse, first]
    rfl
  have taken : adoptNames [p] "int const".toList = [{ p with name := "@const".toList }] := by
    decide +kernel
  refine ⟨by decide, parsed, taken, ?_⟩
  rw [taken]
  decide

end Apidoc.ArgumentList
