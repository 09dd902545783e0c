import Apidoc.Proofs.PrintedType.Depth

namespace Apidoc.PrintedType

def EndsWords (t : Token) : Prop := isCombining t.text = false

theorem endsWords_of_opening {t : Token} (same : t.text = ['<']) : EndsWords t := by
  simp [EndsWords, same, isCombining, combiningWords]

theorem IsName.split_unique {ws vs rest left : List Token} (first : IsName ws)
    (second : IsName vs) (same : ws ++ rest = vs ++ left) (behind : Follows EndsWords rest)
    (after : Follows EndsWords left) : ws = vs ∧ rest = left := by
  rcases first with ⟨t, rfl, -, single⟩ | ⟨nonempty, run⟩ <;>
    rcases second with ⟨u, rfl, -, lone⟩ | ⟨some, chain⟩
  · cases same
    exact ⟨rfl, rfl⟩
  · cases vs with
    | nil => exact absurd rfl some
    | cons u vs =>
      cases same
      have combining := (chain t (.head _)).2
      rw [single] at combining
      cases combining
  · cases ws with
    | nil => exact absurd rfl nonempty
    | cons t ws =>
      cases same
      have combining := (run u (.head _)).2
      rw [lone] at combining
      cases combining
  · have inside (t : Token) (member : t ∈ ws) := (run t member).2
    have within (t : Token) (member : t ∈ vs) := (chain t member).2
    obtain ⟨taken, remaining⟩ := Text.span_append (p := fun t : Token => isCombining t.text) inside
      behind
    obtain ⟨takes, remains⟩ := Text.span_append (p := fun t : Token => isCombining t.text) within
      after
    rw [same] at taken remaining
    exact ⟨taken.symm.trans takes, remaining.symm.trans remains⟩

theorem not_follows_cons {allowed : Token → Prop} {t : Token} {ts : List Token}
    (refused : ¬ allowed t) : ¬ Follows allowed (t :: ts) :=
  fun follows => refused (follows t rfl)

theorem toList_append_inj {a b : Option Token} {xs ys : List Token}
    (same : a.toList ++ xs = b.toList ++ ys) (both : a.isSome ↔ b.isSome) : a = b ∧ xs = ys := by
  cases a with
  | none =>
    cases b with
    | none => exact ⟨rfl, same⟩
    | some t => cases both.mpr rfl
  | some t =>
    cases b with
    | none => cases both.mp rfl
    | some u =>
      cases same
      exact ⟨rfl, rfl⟩

theorem lead_isSome_iff {lead : Option Token} {name : List Token} (leads : ∀ t ∈ lead, t.isConst)
    (first : lead = none → ∀ t, name.head? = some t → t.isConst = false) (nonempty : name ≠ [])
    (rest : List Token) :
    lead.isSome ↔ ∃ t, (lead.toList ++ (name ++ rest)).head? = some t ∧ t.isConst := by
  cases lead with
  | some t => simpa using leads t rfl
  | none =>
    have other := first rfl
    simp only [Option.isSome_none, Option.toList_none, List.nil_append,
      List.head?_append_of_ne_nil _ nonempty]
    simp
    intro t head
    exact other t head

mutual

theorem TypeNode.split_unique : (d e : TypeNode) → d.Valid → e.Valid → ∀ (rest left : List Token),
    Formed (d.yield ++ rest) → d.yield ++ rest = e.yield ++ left → Follows EndsType rest →
      Follows EndsType left → d = e ∧ rest = left
  | .mk lead sign name decorations, .mk lead' sign' name' decorations', valid, valid' => by
    intro rest left formed same behind after
    obtain ⟨leads, first, signs, named, decorated⟩ := valid
    obtain ⟨leads', first', signs', named', decorated'⟩ := valid'
    have nonempty := name.yield_ne_nil named
    have nonempty' := name'.yield_ne_nil named'
    have leading := lead_isSome_iff leads first (by simp [nonempty]) (decorations ++ rest)
    have leading' := lead_isSome_iff leads' first' (by simp [nonempty']) (decorations' ++ left)
    have signing := signLeads_append (sign.toList ++ name.yield ++ decorations)
      (by simp [nonempty]) behind
    have signing' := signLeads_append (sign'.toList ++ name'.yield ++ decorations')
      (by simp [nonempty']) after
    rw [← signs] at signing
    rw [← signs'] at signing'
    simp only [TypeNode.yield, List.append_assoc] at formed same leading leading' signing signing'
    rw [same, ← leading'] at leading
    obtain ⟨rfl, signEq⟩ := toList_append_inj same leading
    rw [signEq, signing'] at signing
    obtain ⟨rfl, nameEq⟩ := toList_append_inj signEq signing.symm
    have formed₁ := formed.append.2.append.2
    have formed₂ := formed₁
    rw [nameEq] at formed₂
    obtain ⟨rfl, eq⟩ := name.split_unique name' named named' _ _ formed₁ nameEq
      (follows_decorations formed₁.append.2.append.1 decorated behind)
      (follows_decorations formed₂.append.2.append.1 decorated' after)
    obtain ⟨taken, remaining⟩ := Text.span_append decorated fun t head => (behind t head).2.1
    obtain ⟨takes, remains⟩ := Text.span_append decorated' fun t head => (after t head).2.1
    rw [eq] at taken remaining
    obtain rfl := taken.symm.trans takes
    exact ⟨rfl, remaining.symm.trans remains⟩

theorem NameNode.split_unique : (d e : NameNode) → d.Valid → e.Valid → ∀ (rest left : List Token),
    Formed (d.yield ++ rest) → d.yield ++ rest = e.yield ++ left → Follows EndsName rest →
      Follows EndsName left → d = e ∧ rest = left
  | .base segment, .base segment', valid, valid' => by
    intro rest left formed same behind after
    obtain ⟨rfl, rfl⟩ := segment.split_unique segment' valid valid' _ _ formed same
      (behind.mono fun t ends => ends.1) (after.mono fun t ends => ends.1)
    exact ⟨rfl, rfl⟩
  | .base segment, .inside scope' colons' name', valid, ⟨outer', same', _⟩ => by
    intro rest left formed same behind after
    simp only [NameNode.yield, List.append_assoc, List.cons_append] at formed same
    obtain ⟨-, rfl⟩ := segment.split_unique scope' valid outer' _ _ formed same
      (behind.mono fun t ends => ends.1) (.cons (endsSegment_of_colons same'))
    exact absurd behind (not_follows_cons fun ends => ends.2 same')
  | .inside scope colons name, .base segment', ⟨outer, colon, _⟩, valid' => by
    intro rest left formed same behind after
    simp only [NameNode.yield, List.append_assoc, List.cons_append] at formed same
    obtain ⟨-, rfl⟩ := scope.split_unique segment' outer valid' _ _ formed same
      (.cons (endsSegment_of_colons colon)) (after.mono fun t ends => ends.1)
    exact absurd after (not_follows_cons fun ends => ends.2 colon)
  | .inside scope colons name, .inside scope' colons' name', ⟨outer, colon, inner⟩,
      ⟨outer', colon', inner'⟩ => by
    intro rest left formed same behind after
    simp only [NameNode.yield, List.append_assoc, List.cons_append] at formed same
    obtain ⟨rfl, eq⟩ := scope.split_unique scope' outer outer' _ _ formed same
      (.cons (endsSegment_of_colons colon)) (.cons (endsSegment_of_colons colon'))
    obtain ⟨rfl, more⟩ := List.cons.inj eq
    obtain ⟨rfl, rfl⟩ := name.split_unique name' inner inner' _ _ formed.append.2.cons.2 more
      behind after
    exact ⟨rfl, rfl⟩

theorem SegmentNode.split_unique : (d e : SegmentNode) → d.Valid → e.Valid →
    ∀ (rest left : List Token), Formed (d.yield ++ rest) → d.yield ++ rest = e.yield ++ left →
      Follows EndsSegment rest → Follows EndsSegment left → d = e ∧ rest = left
  | .plain words, .plain words', valid, valid' => by
    intro rest left formed same behind after
    obtain ⟨rfl, rfl⟩ := IsName.split_unique valid valid' same
      (behind.mono fun t ends => ends.1) (after.mono fun t ends => ends.1)
    exact ⟨rfl, rfl⟩
  | .plain words, .template words' opening' arguments' closing', valid, ⟨named', opens', _, _⟩ => by
    intro rest left formed same behind after
    simp only [SegmentNode.yield, List.append_assoc, List.cons_append] at formed same
    obtain ⟨-, rfl⟩ := IsName.split_unique valid named' same
      (behind.mono fun t ends => ends.1) (.cons (endsWords_of_opening opens'))
    exact absurd behind (not_follows_cons fun ends => ends.2 opens')
  | .template words opening arguments closing, .plain words', ⟨named, opens, _, _⟩, valid' => by
    intro rest left formed same behind after
    simp only [SegmentNode.yield, List.append_assoc, List.cons_append] at formed same
    obtain ⟨-, rfl⟩ := IsName.split_unique named valid' same
      (.cons (endsWords_of_opening opens)) (after.mono fun t ends => ends.1)
    exact absurd after (not_follows_cons fun ends => ends.2 opens)
  | .template words opening arguments closing, .template words' opening' arguments' closing',
      ⟨named, opens, listed, closes⟩, ⟨named', opens', listed', closes'⟩ => by
    intro rest left formed same behind after
    simp only [SegmentNode.yield, List.append_assoc, List.cons_append, List.nil_append]
      at formed same
    obtain ⟨rfl, eq⟩ := IsName.split_unique named named' same
      (.cons (endsWords_of_opening opens)) (.cons (endsWords_of_opening opens'))
    obtain ⟨rfl, more⟩ := List.cons.inj eq
    have inside := formed.append.2.cons.2
    have within := inside
    rw [more] at within
    obtain ⟨rfl, last⟩ := arguments.split_unique arguments' listed listed' _ _ inside more
      (.cons (endsArguments_of_closing inside.append.2.cons.1 closes))
      (.cons (endsArguments_of_closing within.append.2.cons.1 closes'))
    obtain ⟨rfl, rfl⟩ := List.cons.inj last
    exact ⟨rfl, rfl⟩

theorem ArgumentsNode.split_unique : (d e : ArgumentsNode) → d.Valid → e.Valid →
    ∀ (rest left : List Token), Formed (d.yield ++ rest) → d.yield ++ rest = e.yield ++ left →
      Follows EndsArguments rest → Follows EndsArguments left → d = e ∧ rest = left
  | .one type, .one type', valid, valid' => by
    intro rest left formed same behind after
    obtain ⟨rfl, rfl⟩ := type.split_unique type' valid valid' _ _ formed same
      (behind.mono fun t ends => ends.1) (after.mono fun t ends => ends.1)
    exact ⟨rfl, rfl⟩
  | .one type, .cons type' comma' others', valid, ⟨first', commas', _⟩ => by
    intro rest left formed same behind after
    have within := formed
    rw [same] at within
    simp only [ArgumentsNode.yield, List.append_assoc, List.cons_append] at formed same within
    obtain ⟨-, rfl⟩ := type.split_unique type' valid first' _ _ formed same
      (behind.mono fun t ends => ends.1)
      (.cons (endsType_of_mark within.append.2.cons.1 (.inl commas')))
    exact absurd behind (not_follows_cons fun ends => ends.2 commas')
  | .cons type comma others, .one type', ⟨first, commas, _⟩, valid' => by
    intro rest left formed same behind after
    simp only [ArgumentsNode.yield, List.append_assoc, List.cons_append] at formed same
    obtain ⟨-, rfl⟩ := type.split_unique type' first valid' _ _ formed same
      (.cons (endsType_of_mark formed.append.2.cons.1 (.inl commas)))
      (after.mono fun t ends => ends.1)
    exact absurd after (not_follows_cons fun ends => ends.2 commas)
  | .cons type comma others, .cons type' comma' others', ⟨first, commas, more⟩,
      ⟨first', commas', more'⟩ => by
    intro rest left formed same behind after
    have within := formed
    rw [same] at within
    simp only [ArgumentsNode.yield, List.append_assoc, List.cons_append] at formed same within
    obtain ⟨rfl, eq⟩ := type.split_unique type' first first' _ _ formed same
      (.cons (endsType_of_mark formed.append.2.cons.1 (.inl commas)))
      (.cons (endsType_of_mark within.append.2.cons.1 (.inl commas')))
    obtain ⟨rfl, next⟩ := List.cons.inj eq
    obtain ⟨rfl, rfl⟩ := others.split_unique others' more more' _ _ formed.append.2.cons.2 next
      behind after
    exact ⟨rfl, rfl⟩

end

theorem TypeNode.Derives.unique {d e : TypeNode} {ts : List Token} (formed : Formed ts)
    (first : d.Derives ts) (second : e.Derives ts) : d = e := by
  obtain ⟨valid, rfl⟩ := first
  obtain ⟨valid', same⟩ := second
  have none : Follows EndsType [] := by
    intro t head
    cases head
  rw [← List.append_nil d.yield] at formed
  exact (d.split_unique e valid valid' [] [] formed (by simp [same]) none none).1

/-- The parser reads a row of tokens to its end exactly when the grammar derives it. -/
theorem parseTokens_eq_ok_iff {ts : List Token} (formed : Formed ts) {tree : Tree} :
    parseTokens ts = .ok tree ↔ ∃ d : TypeNode, d.Derives ts ∧ d.tree = tree := by
  constructor
  · intro parsed
    simp only [parseTokens] at parsed
    split at parsed
    · cases parsed
    · rename_i read
      cases parsed
      obtain ⟨d, valid, value, yields⟩ := (reads _).1 formed read
      exact ⟨d, ⟨valid, by simp [yields]⟩, value⟩
    · cases parsed
  · intro derived
    obtain ⟨d, ⟨valid, rfl⟩, rfl⟩ := derived
    have read := d.read_eq valid [] (depthBound d.yield) (by simpa using formed)
      (fun t head => by cases head) (by simp only [depthBound]; omega)
    rw [List.append_nil] at read
    simp [parseTokens, read]

theorem parse_eq_ok_iff {s : Text} {tree : Tree} : parse s = .ok tree ↔
    ∃ ts, tokens s = .ok ts ∧ ∃ d : TypeNode, d.Derives ts ∧ d.tree = tree := by
  cases spelled : tokens s with
  | error c => simp [parse, spelled]
  | ok ts => simp [parse, spelled, parseTokens_eq_ok_iff (tokens_spell spelled).1]

/-- A text is a type exactly when it has tokens and the grammar derives them; the derivation is
then the only one, and the type is what it stands for. Every other text is an error, and the bound
on the depth has no part in either. -/
theorem parse_eq_ok_iff_derives (s : Text) :
    (∀ tree, parse s = .ok tree ↔
      ∃ ts, tokens s = .ok ts ∧ ∃ d : TypeNode, d.Derives ts ∧ d.tree = tree) ∧
    (∀ ts, tokens s = .ok ts → ∀ d e : TypeNode, d.Derives ts → e.Derives ts → d = e) ∧
    ((¬ ∃ ts, tokens s = .ok ts ∧ ∃ d : TypeNode, d.Derives ts) → ∃ e, parse s = .error e) ∧
    ∀ ts, tokens s = .ok ts → ∀ fuel, depthBound ts ≤ fuel →
      typeAt fuel ts = typeAt (depthBound ts) ts := by
  refine ⟨fun tree => parse_eq_ok_iff, ?_, ?_, ?_⟩
  · intro ts spelled d e first second
    exact first.unique (tokens_spell spelled).1 second
  · intro underived
    cases parsed : parse s with
    | error e => exact ⟨e, rfl⟩
    | ok tree =>
      obtain ⟨ts, spelled, d, derives, -⟩ := parse_eq_ok_iff.mp parsed
      exact absurd ⟨ts, spelled, d, derives⟩ underived
  · intro ts spelled fuel enough
    exact typeAt_of_le (tokens_spell spelled).1 enough

end Apidoc.PrintedType
