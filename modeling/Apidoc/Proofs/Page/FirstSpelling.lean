import Apidoc.Proofs.Page.BrokenType
import Apidoc.Proofs.Pattern.Preference
import Apidoc.Proofs.PrintedType.LeadingConst

namespace Apidoc.Page

open Computability Pattern PrintedType

variable {q : Pattern} {c x : Cursor}

theorem first_scope {f k rest : Text} {e : Char} (foreign : f ∈ foreignScope)
    (word : Text.IsWordRun k) (outside : Text.isWord e = false) (single : e ≠ ':')
    (split : c.rest = f ++ (k ++ e :: rest)) (leads : q.Leads (k ++ e :: rest))
    (first : ((seq anyScope q).ends c).head? = some x) :
    ∃ a, c.Passes f a ∧ (q.ends a).head? = some x := by
  rcases foreign with none | some
  · obtain rfl : f = [] := none
    obtain ⟨g, scope, a, passes, here⟩ := exists_spelling_of_head? spells_anyScope first
    rcases mem_foreignScope scope with rfl | ⟨w, rfl, run⟩
    · exact ⟨a, passes, here⟩
    · have same := split.symm.trans passes.rest
      obtain ⟨-, colon, -⟩ := Text.word_unique (x := rest) (y := ':' :: a.rest) word.2 run.2 outside
        Text.isWord_colon (by simpa using same)
      exact absurd colon single
  · obtain ⟨w, run, _, rfl, rfl⟩ := Language.mem_mul.mp some
    obtain ⟨g, scope, a, passes, here⟩ := exists_spelling_of_head?_optional
      (spells_wordRun.seq (spells_fixed _)) first split some (by simp) leads
    obtain ⟨v, run', _, rfl, rfl⟩ := Language.mem_mul.mp scope
    have same := split.symm.trans passes.rest
    obtain ⟨rfl, -, -⟩ := Text.word_unique (x := ':' :: (k ++ e :: rest)) (y := ':' :: a.rest) run.2
      run'.2 Text.isWord_colon Text.isWord_colon (by simpa using same)
    exact ⟨a, passes, here⟩

theorem first_own {sign : Option Sign} {scopes base : Pattern} {S B : Language Char}
    (outer : scopes.Spells S) (inner : base.Spells B) {f s p b rest : Text}
    (foreign : f ∈ foreignScope) (signed : s ∈ signSpelling sign) (scope : p ∈ S) (last : b ∈ B)
    (split : c.rest = f ++ (s ++ (p ++ b)) ++ rest) (leads : q.Leads rest)
    (first : ((seq (namePattern sign scopes base) q).ends c).head? = some x) :
    ∃ f' ∈ foreignScope, ∃ s' ∈ signSpelling sign, ∃ p' ∈ S, ∃ b' ∈ B, ∃ a,
      c.Passes (f' ++ (s' ++ (p' ++ b'))) a ∧ (q.ends a).head? = some x ∧
        (s ≠ [] → f' = f ∧ s' ≠ []) := by
  by_cases unsigned : s = []
  · obtain ⟨w, member, a, passes, here⟩ :=
      exists_spelling_of_head? (spells_namePattern sign outer inner) first
    obtain ⟨f', foreign', _, rest', rfl⟩ := Language.mem_mul.mp member
    obtain ⟨s', signed', _, name, rfl⟩ := Language.mem_mul.mp rest'
    obtain ⟨p', scope', b', base', rfl⟩ := Language.mem_mul.mp name
    exact ⟨f', foreign', s', signed', p', scope', b', base', a, passes, here, absurd unsigned⟩
  · cases sign with
    | none => exact absurd signed unsigned
    | some sign =>
      have marked := signed.resolve_left unsigned
      obtain ⟨_, rfl, g, ⟨nonempty, blank⟩, rfl⟩ := Language.mem_mul.mp marked
      obtain ⟨e, g, rfl⟩ := List.exists_cons_of_ne_nil nonempty
      have space := blank e (.head g)
      have word := isWordRun_sign sign
      have name : (scopes.seq base).Spells (S * B) := outer.seq inner
      have behind : ((scopes.seq base).seq q).Leads (p ++ b ++ rest) :=
        name.leads ⟨p, scope, b, last, rfl⟩ leads
      have lead : (((signPattern (some sign)).seq (scopes.seq base)).seq q).Leads
          (sign.text ++ e :: g ++ (p ++ b) ++ rest) :=
        ((spells_signPattern (some sign)).seq name).leads
          ⟨_, signed, _, ⟨p, scope, b, last, rfl⟩, rfl⟩ leads
      rw [List.append_assoc, List.append_assoc, List.cons_append] at lead
      have front : ((anyScope.seq (((signPattern (some sign)).seq (scopes.seq base)).seq q)).ends
          c).head? = some x := by
        rw [← ends_seq_assoc]
        exact first
      obtain ⟨a, passes, here⟩ := first_scope foreign word (Text.isWord_of_isBlank space)
        (Text.ne_of_isBlank space (by decide)) (by simpa using split) lead front
      have next : a.rest = sign.text ++ e :: g ++ (p ++ b ++ rest) :=
        passes.rest_eq (by simpa using split)
      rw [ends_seq_assoc] at here
      obtain ⟨s', signed', d, passes', here'⟩ := exists_spelling_of_head?_optional
        ((spells_fixed _).seq spells_someSpaces) here next marked unsigned behind
      obtain ⟨w, ⟨p', scope', b', base', rfl⟩, i, passes'', found⟩ :=
        exists_spelling_of_head? name here'
      refine ⟨f, foreign, s', .inr signed', p', scope', b', base', i,
        passes.trans (passes'.trans passes''), found, fun _ => ⟨rfl, ?_⟩⟩
      obtain ⟨_, rfl, _, _, rfl⟩ := Language.mem_mul.mp signed'
      simp [word.1]

theorem first_const {k s : Text} (const : k ∈ constSpelling) (split : c.rest = k ++ s)
    (leads : q.Leads s) (first : ((optionalConst.seq q).ends c).head? = some x) :
    ∃ k' ∈ constSpelling, ∃ a, c.Passes k' a ∧ (q.ends a).head? = some x ∧ (k ≠ [] → k' ≠ []) := by
  by_cases none : k = []
  · obtain ⟨k', const', a, passes, here⟩ := exists_spelling_of_head? spells_optionalConst first
    exact ⟨k', const', a, passes, here, absurd none⟩
  · obtain ⟨k', const', a, passes, here⟩ := exists_spelling_of_head?_optional
      ((spells_fixed _).seq spells_someSpaces) first split (const.resolve_left none) none leads
    refine ⟨k', .inr const', a, passes, here, fun _ => ?_⟩
    obtain ⟨_, rfl, g, _, rfl⟩ := Language.mem_mul.mp const'
    simp [constWord]

theorem const_unique {k k' n n' d y : Text} (const : k ∈ constSpelling)
    (const' : k' ∈ constSpelling) (keeps : k ≠ [] → k' ≠ [])
    (starts : n.head?.any Text.isWord) (starts' : n'.head?.any Text.isWord)
    (free : Unqualified (n ++ d)) (same : k ++ (n ++ d) = k' ++ (n' ++ y)) : k' = k := by
  have solid {w : Text} (starts : w.head?.any Text.isWord) (z : Text) :
      ∀ c, (w ++ z).head? = some c → Text.isBlank c = false := by
    intro c head
    cases w with
    | nil => cases starts
    | cons e w =>
      cases head
      exact Text.isBlank_of_isWord starts
  by_cases bare : k = []
  · subst bare
    by_contra some
    obtain ⟨g, rfl, space⟩ := (mem_constSpelling const').resolve_left some
    cases n' with
    | nil => cases starts'
    | cons e n' =>
      have outside := free g space (e :: n' ++ y) (by simpa using same) e rfl
      rw [show Text.isWord e from starts'] at outside
      cases outside
  · obtain ⟨g, rfl, -, space⟩ := (mem_constSpelling const).resolve_left bare
    obtain ⟨g', rfl, -, space'⟩ := (mem_constSpelling const').resolve_left (keeps bare)
    rw [List.append_assoc, List.append_assoc] at same
    obtain ⟨rfl, -⟩ := Text.span_unique space space' (solid starts d) (solid starts' y)
      (List.append_cancel_left same)
    rfl

section

variable {table : AliasTable} (words : table.OfWords) {type : Text} {form : Form} {path : Path}
  (parsed : parse type = .ok (.mk form path))

def nameChoices (table : AliasTable) (form : Form) (path : Path) : List Pattern :=
  namePattern form.sign (path.scopesPattern (path.allScopes table.extra))
    (path.lastPattern table.extra) :: (table.extra form.spelling ++ form.legacyPatterns)

def namePart (table : AliasTable) (form : Form) (path : Path) : Pattern :=
  .group (oneOf ((nameChoices table form path).map (group · .one))) .one

include words

theorem spells_namePart : (namePart table form path).Spells
    (path.ownName table.names form.sign + form.otherNames table.names) := by
  have own := spells_namePattern form.sign (spells_scopesPattern path (path.spells_scopes words))
    (path.spells_base words)
  exact spells_choices own
    (List.rel_append (spells_extra words form.spelling) (spells_legacyPatterns form))

include parsed

theorem first_name (breakable : IsBreakable table.names (.mk form path)) {n d rest : Text}
    (choice : n ∈ path.ownName table.names form.sign + form.otherNames table.names)
    (decorated : d ∈ form.decorationSpelling) (split : c.rest = n ++ (d ++ rest))
    (leads : q.Leads rest)
    (first : (((namePart table form path).seq (form.decoration.seq q)).ends c).head? = some x) :
    ∃ n' ∈ path.ownName table.names form.sign + form.otherNames table.names,
      ∃ d' ∈ form.decorationSpelling, ∃ a, c.Passes (n' ++ d') a ∧ (q.ends a).head? = some x ∧
        ∀ t ∈ trailing, ∀ z, n ++ d ≠ n' ++ (d' ++ (t ++ '\n' :: z)) := by
  have named : path.Named := named_of_parse parsed
  have behind : (form.decoration.seq q).Leads (d ++ rest) :=
    (spells_decoration form).leads decorated leads
  rcases choice with own | other
  · have outer := spells_scopesPattern path (path.spells_scopes words)
    have inner := path.spells_base words
    have name := (spells_namePattern form.sign outer inner).leads own behind
    have preferred := head?_seq_choices first (name.ends_ne_nil split)
    obtain ⟨f, foreign, _, tail, rfl⟩ := Language.mem_mul.mp own
    obtain ⟨s, sign, _, last, rfl⟩ := Language.mem_mul.mp tail
    obtain ⟨p, scope, b, base, rfl⟩ := Language.mem_mul.mp last
    obtain ⟨f', foreign', s', sign', p', scope', b', base', a, passes, here, follows⟩ :=
      first_own outer inner foreign sign scope base split behind preferred
    obtain ⟨d', decorated', e, passes', here'⟩ :=
      exists_spelling_of_head? (spells_decoration form) here
    have member : f' ++ (s' ++ (p' ++ b')) ∈ path.ownName table.names form.sign :=
      ⟨f', foreign', _, ⟨s', sign', _, ⟨p', scope', b', base', rfl⟩, rfl⟩, rfl⟩
    refine ⟨_, .inl member, d', decorated', e, passes.trans passes', here', ?_⟩
    intro t trails z
    exact own_unbroken words named breakable.scopes foreign sign scope base decorated foreign' sign'
      scope' base' decorated' trails follows
  · obtain ⟨n', choice', a, passes, here⟩ := exists_spelling_of_head? (spells_namePart words) first
    obtain ⟨d', decorated', e, passes', here'⟩ :=
      exists_spelling_of_head? (spells_decoration form) here
    refine ⟨n', choice', d', decorated', e, passes.trans passes', here', ?_⟩
    intro t trails z
    exact other_unbroken parsed words breakable other choice' decorated decorated' trails

/-- In a text that goes on with a documented spelling of a type, the first match of the type does
not end at a line break in the spelling. -/
theorem first_spelling {u rest : Text}
    (lines : '\n' ∈ u → IsBreakable table.names (.mk form path))
    (member : u ∈ (Tree.mk form path).documented freeSpace table.names)
    (split : c.rest = u ++ rest) (leads : q.Leads rest)
    (first : ((((Tree.mk form path).pattern table.extra).seq q).ends c).head? = some x) :
    ∃ w ∈ (Tree.mk form path).documented freeSpace table.names, ∃ a, c.Passes w a ∧
      (q.ends a).head? = some x ∧ ∀ t ∈ trailing, ∀ z, u ≠ w ++ (t ++ '\n' :: z) := by
  by_cases broken : '\n' ∈ u
  · have breakable := lines broken
    have named : path.Named := named_of_parse parsed
    obtain ⟨_, qualified, d, decorated, rfl⟩ := Language.mem_mul.mp member
    obtain ⟨k, const, n, choice, rfl⟩ := Language.mem_mul.mp qualified
    have name : (namePart table form path).Spells
        (path.ownName table.names form.sign + form.otherNames table.names) := spells_namePart words
    have behind : ((namePart table form path).seq (form.decoration.seq q)).Leads
        (n ++ (d ++ rest)) :=
      name.leads choice ((spells_decoration form).leads decorated leads)
    have parts : ((optionalConst.seq ((namePart table form path).seq
        (form.decoration.seq q))).ends c).head? = some x := by
      rw [← ends_seq_assoc, ← ends_seq_assoc]
      exact first
    have split : c.rest = k ++ (n ++ (d ++ rest)) := by simpa using split
    obtain ⟨k', const', a, passes, here, keeps⟩ := first_const const split behind parts
    by_cases same : k' = k
    · subst same
      obtain ⟨n', choice', d', decorated', e, passes', here', apart⟩ :=
        first_name words parsed breakable choice decorated (passes.rest_eq split) leads here
      refine ⟨k' ++ n' ++ d', ⟨_, ⟨k', const, n', choice', rfl⟩, d', decorated', rfl⟩, e,
        by simpa using passes.trans passes', here', ?_⟩
      intro t trails z broken
      exact apart t trails z (by simpa using broken)
    · obtain ⟨n', choice', e, passes', here'⟩ := exists_spelling_of_head? name here
      obtain ⟨d', decorated', i, passes'', here''⟩ :=
        exists_spelling_of_head? (spells_decoration form) here'
      refine ⟨k' ++ n' ++ d', ⟨_, ⟨k', const', n', choice', rfl⟩, d', decorated', rfl⟩, i,
        (passes.trans passes').trans passes'', here'', ?_⟩
      intro t _ z broken
      -- a spelling up to the break has the qualifier of the whole spelling
      apply same
      have starts : StartsWithWord (path.ownName table.names form.sign +
          form.otherNames table.names) := startsWithWord_name freeSpace table.names named words
      apply const_unique const const' keeps (starts n choice) (starts n' choice')
        (unqualified_name words named choice decorated)
      simpa using broken
  · obtain ⟨w, spelled, a, passes, here⟩ :=
      exists_spelling_of_head? (Tree.spells words (.mk form path)) first
    refine ⟨w, spelled, a, passes, here, ?_⟩
    rintro t - z rfl
    simp at broken

end

end Apidoc.Page
