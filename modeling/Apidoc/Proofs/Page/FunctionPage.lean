import Apidoc.Proofs.Page.BlockEnd
import Apidoc.Proofs.PrintedType.Language

namespace Apidoc.Page

open Pattern PrintedType

theorem fields_separated {mark : Pattern} {ps : List Pattern} (between : mark.fields = [])
    (parts : ∀ p ∈ ps, p.fields = []) : (separated mark ps).fields = [] := by
  induction ps with
  | nil => rfl
  | cons p ps ih =>
    obtain ⟨first, others⟩ := List.forall_mem_cons.mp parts
    cases ps with
    | nil => exact first
    | cons q ps => simp [separated, fields, first, between, ih others]

theorem captures_docs {layout : Layout} (closes : ClosesBlocks layout) {d rest : Text}
    (described : IsDescription d) {c x : Cursor}
    (split : c.rest = d ++ (List.replicate 4 '\n' ++ rest))
    (first : ((seq (.field .docs (all [.chars .word .one, .chars .any .lazyStar]))
      (functionEnd layout)).ends c).head? = some x) :
    x.captures = ⟨.docs, c.rest, d.length⟩ :: c.captures := by
  obtain ⟨docs, back, parts, ended, captures⟩ := exists_endsFirst closes.valid first
  suffices same : docs = d by rw [captures, same]
  by_contra other
  have more {a b t : Text} (eq : a = b ++ t) (apart : a ≠ b) : t ≠ [] := by
    rintro rfl
    exact apart (by rw [eq, List.append_nil])
  rcases List.append_eq_append_iff.mp (parts.symm.trans split) with
    ⟨t, eq, behind⟩ | ⟨t, eq, behind⟩
  · obtain ⟨w, ends, after, next⟩ := ended.ends
    exact described.not_endsBlock closes eq (more eq (Ne.symm other))
      (behind.symm.trans next.symm) ends
  · obtain ⟨n, enough⟩ := Nat.exists_eq_add_of_le closes.few
    have some : d ≠ [] := by
      rintro rfl
      cases described.word
    refine ended.first d t eq some (more eq other) ⟨_, endsBlock_replicate closes.valid, ?_⟩
    rw [← behind, enough, List.replicate_add _ n, List.append_assoc]
    exact List.prefix_append _ _

theorem takes_functionStart {before : Option Char} {w rest : Text} :
    functionStart.Takes before w rest ↔
      w = ['\n'] ∧ before = none ∨ w = "\n\n".toList ∨ w = " --\n".toList := by
  constructor
  · intro taken
    obtain ⟨x, _, rfl, start, rfl⟩ := taken
    rcases takes_group_one.mp start with ⟨rfl, first⟩ | mark | rfl
    · exact .inl ⟨rfl, first⟩
    · obtain rfl : x = " --".toList := takes_group_one.mp mark
      exact .inr (.inr rfl)
    · exact .inr (.inl rfl)
  · intro start
    rcases start with ⟨rfl, first⟩ | rfl | rfl
    · exact ⟨[], ['\n'], rfl, takes_group_one.mpr (.inl ⟨rfl, first⟩), rfl⟩
    · exact ⟨['\n'], ['\n'], rfl, takes_group_one.mpr (.inr (.inr rfl)), rfl⟩
    · exact ⟨" --".toList, ['\n'], rfl,
        takes_group_one.mpr (.inr (.inl (takes_group_one.mpr rfl))), rfl⟩

abbrev resultClass : CharClass := .oneOf (typeChars ++ [.char ','])

theorem takes_returnType {before : Option Char} {w rest : Text} :
    returnType.Takes before w rest ↔ ∀ c ∈ w, resultClass.accepts c := by
  constructor
  · intro taken
    rcases takes_group_optional.mp taken with rfl | result
    · exact fun _ absent => nomatch absent
    · exact (takes_chars_plus.mp result).2
  · intro allowed
    apply takes_group_optional.mpr
    by_cases none : w = []
    · exact .inl none
    · exact .inr (takes_chars_plus.mpr ⟨none, allowed⟩)

/-- A scope with double colons, perhaps with an ampersand between them. -/
def IsQualifier (scope q : Text) : Prop :=
  ∃ a, q = scope ++ (a ++ "::".toList) ∧
    (a = [] ∨ ∃ s, a = s ++ ['&'] ∧ ∀ c ∈ s, Text.isBlank c)

theorem takes_scopeOrBlank {scope : Text} {before : Option Char} {w rest : Text} :
    (scopeOrBlank scope).Takes before w rest ↔ w = [' '] ∨ IsQualifier scope w := by
  constructor
  · intro taken
    rcases takes_group_one.mp taken with qualified | rfl
    · obtain ⟨_, _, rfl, rfl, a, _, rfl, amp, rfl⟩ := takes_group_one.mp qualified
      refine .inr ⟨a, rfl, ?_⟩
      rcases takes_group_optional.mp amp with none | ⟨s, _, rfl, blank, rfl⟩
      · exact .inl none
      · exact .inr ⟨s, rfl, takes_chars_star.mp blank⟩
    · exact .inl rfl
  · intro qualifier
    apply takes_group_one.mpr
    rcases qualifier with rfl | ⟨a, rfl, amp⟩
    · exact .inr rfl
    · refine .inl (takes_group_one.mpr ⟨scope, _, rfl, rfl, a, _, rfl, ?_, rfl⟩)
      apply takes_group_optional.mpr
      rcases amp with rfl | ⟨s, rfl, blank⟩
      · exact .inl rfl
      · exact .inr ⟨s, ['&'], rfl, takes_chars_star.mpr blank, rfl⟩

theorem ends_scopeOrBlank {scope w : Text} (qualifier : w = [' '] ∨ IsQualifier scope w) :
    ∃ front c, w = front ++ [c] ∧ Text.isWord c = false := by
  rcases qualifier with rfl | ⟨a, rfl, -⟩
  · exact ⟨[], ' ', rfl, by decide⟩
  · exact ⟨scope ++ (a ++ [':']), ':', by simp, Text.isWord_colon⟩

theorem Block.unmarked_qualifier (b : Block) :
    ∀ c ∈ b.qualifier, c ≠ '\n' ∧ c ≠ ')' ∧ c ∉ openMarks := by
  unfold Block.qualifier
  split
  · decide
  · decide

theorem Block.qualifier_cases (b : Block) : b.qualifier = [] ∨ b.qualifier = " const".toList := by
  unfold Block.qualifier
  split
  · exact .inr rfl
  · exact .inl rfl

theorem fields_parameters (table : AliasTable) (complete : Bool) (ps : List Parameter) :
    (parametersPattern table complete ps).fields = [] := by
  cases ps with
  | nil => rfl
  | cons p ps =>
    refine List.append_eq_nil_iff.mpr ⟨fields_separated rfl ?_, rfl⟩
    intro q member
    obtain ⟨r, -, rfl⟩ := List.mem_map.mp member
    have type := fields_of_isPlain (isPlain_pattern r.type table complete)
    exact List.append_eq_nil_iff.mpr ⟨type, rfl⟩

theorem mem_ends_declarator {table : AliasTable} {complete : Bool} {f : Function} {c d : Cursor}
    (member : d ∈ (declarator table complete f).ends c) :
    ∃ s front a back t,
      c.Passes (f.documentedName ++ (s ++ '(' :: (front ++ (a ++ (back ++ ')' :: t))))) d ∧
      (∀ e ∈ s, Text.isBlank e) ∧ (∀ e ∈ front, Text.isBlank e) ∧
      (∀ e ∈ back, Text.isBlank e) ∧ (∀ e ∈ t, Text.isBlank e) ∧
      (∃ before rest, (parametersPattern table complete f.callParameters).Takes before a rest) ∧
      ∃ r, d.captures = ⟨.arguments, a ++ r, a.length⟩ :: c.captures := by
  obtain ⟨c₁, named, member⟩ := List.mem_flatMap.mp member
  obtain ⟨c₂, spaced, member⟩ := List.mem_flatMap.mp member
  obtain ⟨c₃, opened, member⟩ := List.mem_flatMap.mp member
  obtain ⟨c₄, fronted, member⟩ := List.mem_flatMap.mp member
  obtain ⟨c₅, listed, member⟩ := List.mem_flatMap.mp member
  obtain ⟨c₆, backed, member⟩ := List.mem_flatMap.mp member
  obtain ⟨c₇, closed, trailed⟩ := List.mem_flatMap.mp member
  obtain ⟨_, first, rfl, kept₁⟩ := mem_ends rfl named
  obtain ⟨s, second, blank₂, kept₂⟩ := mem_ends rfl spaced
  obtain ⟨_, third, rfl, kept₃⟩ := mem_ends rfl opened
  obtain ⟨front, fourth, blank₄, kept₄⟩ := mem_ends rfl fronted
  obtain ⟨a, fifth, taken, kept₅⟩ := mem_ends_field (fields_parameters table complete _) listed
  obtain ⟨back, sixth, blank₆, kept₆⟩ := mem_ends rfl backed
  obtain ⟨_, seventh, rfl, kept₇⟩ := mem_ends rfl closed
  obtain ⟨t, eighth, blank₈, kept₈⟩ := mem_ends rfl trailed
  refine ⟨s, front, a, back, t, ?_, takes_chars_star.mp blank₂, takes_chars_star.mp blank₄,
    takes_chars_star.mp blank₆, takes_chars_star.mp blank₈, ⟨_, _, taken⟩, c₅.rest, ?_⟩
  · have passes := first.trans (second.trans (third.trans (fourth.trans (fifth.trans
      (sixth.trans (seventh.trans eighth))))))
    exact passes
  · rw [kept₈, kept₇, kept₆, kept₅, kept₄, kept₃, kept₂, kept₁, fifth.rest]

theorem closing_not_mem_heading {t k m : Text} (trail : ∀ c ∈ t, Text.isBlank c)
    (const : k = [] ∨ k = constWord) (brackets : m = [] ∨ ∃ r, m = ' ' :: '[' :: r ∧ ')' ∉ r) :
    ')' ∉ t ++ (k ++ m) := by
  have first : ')' ∉ k := by
    rcases const with rfl | rfl
    · exact List.not_mem_nil
    · decide
  have second : ')' ∉ m := by
    rcases brackets with rfl | ⟨r, rfl, none⟩
    · exact List.not_mem_nil
    · simp [none]
  simp [closing_not_mem_blank trail, first, second]

theorem takes_defaultValue {value : Text} (some : value ≠ [])
    (solid : ∀ c ∈ value, c ∉ [',', '\r', '\n']) (before : Option Char) (rest : Text) :
    defaultValue.Takes before (" = ".toList ++ value) rest := by
  have gap : ∀ before rest, spaces.Takes before [' '] rest := fun _ _ =>
    takes_chars_star.mpr (by decide)
  have allowed : ∀ c ∈ value,
      (CharClass.noneOf [.char ',', .char '\r', .char '\n']).accepts c := by
    intro c member
    have other := solid c member
    simpa [CharClass.accepts, ClassItem.accepts] using other
  exact ⟨[' '], _, rfl, gap _ _, ['='], _, rfl, rfl, [' '], _, rfl, gap _ _, value, [],
    (List.append_nil value).symm, takes_chars_plus.mpr ⟨some, allowed⟩,
    takes_group_optional.mpr (.inl rfl)⟩

section

variable {table : AliasTable} {complete : Bool}

theorem takes_listed {p : Parameter} {q : Listed} (formed : q.WellFormed)
    (agree : (PrintedType.pattern p.type table complete).matchesAll q.type)
    (before : Option Char) (rest : Text) :
    (parameterPattern table complete p).Takes before q.text rest := by
  have type (rest : Text) : (PrintedType.pattern p.type table complete).Takes before q.type rest :=
    takes_anywhere (isPlain_pattern p.type table complete) (matchesAll_iff.mp agree) before rest
  cases q with
  | bare u =>
    exact ⟨u, [], (List.append_nil u).symm, type _, takes_group_optional.mpr (.inl rfl)⟩
  | named n value =>
    obtain ⟨named, lines⟩ := formed
    have behind (w : Text)
        (default : ∀ before, (group defaultValue .optional).Takes before w rest) :
        (parameterPattern table complete p).Takes before (n.type ++ (n.separator ++ (n.name ++ w)))
          rest := by
      refine ⟨n.type, _, rfl, type _, takes_group_optional.mpr (.inr ?_)⟩
      exact ⟨n.separator, _, rfl, takes_separator.mpr (named.separates before), n.name, w, rfl,
        takes_chars_plus.mpr named.word, default _⟩
    cases value with
    | none =>
      have bare := behind [] fun _ => takes_group_optional.mpr (.inl rfl)
      simpa [Listed.text, NamedType.text] using bare
    | some v =>
      obtain ⟨some, solid⟩ := lines v rfl
      have full := behind (" = ".toList ++ v) fun _ =>
        takes_group_optional.mpr (.inr (takes_defaultValue some solid _ _))
      simpa [Listed.text, NamedType.text] using full

theorem takes_arguments {ps : List Parameter} {qs : List Listed}
    (formed : ∀ q ∈ qs, q.WellFormed)
    (agree : List.Forall₂
      (fun p q => (PrintedType.pattern p.type table complete).matchesAll q.type) ps qs)
    (before : Option Char) (rest : Text) :
    (parametersPattern table complete ps).Takes before
      ([',', ' '].intercalate (qs.map Listed.text)) rest := by
  have separated {p : Parameter} {q : Listed} {ps : List Parameter} {qs : List Listed}
      (formed : ∀ r ∈ q :: qs, r.WellFormed)
      (first : (PrintedType.pattern p.type table complete).matchesAll q.type)
      (others : List.Forall₂
        (fun p q => (PrintedType.pattern p.type table complete).matchesAll q.type) ps qs)
      (before : Option Char) :
      (separated (all [comma, spaces]) ((p :: ps).map (parameterPattern table complete))).Takes
        before ([',', ' '].intercalate ((q :: qs).map Listed.text)) rest := by
    induction others generalizing p q before with
    | nil =>
      have single := takes_listed (formed q (.head _)) first before rest
      simpa [separated] using single
    | @cons p' q' ps qs next others ih =>
      have rest := ih (fun r member => formed r (.tail _ member)) next
      have here (rest : Text) :=
        takes_listed (formed q (.head _)) first before rest
      have mark (before : Option Char) (rest : Text) :
          (all [comma, spaces]).Takes before [',', ' '] rest :=
        takes_comma.mpr ⟨[' '], rfl, by decide⟩
      have whole : ([',', ' '].intercalate ((q :: q' :: qs).map Listed.text)) =
          q.text ++ ([',', ' '] ++ [',', ' '].intercalate ((q' :: qs).map Listed.text)) := by
        simp [List.intercalate]
      rw [whole]
      exact ⟨q.text, _, rfl, here _, [',', ' '], _, rfl, mark _ _, rest _⟩
  cases agree with
  | nil => exact takes_group_star.mpr (.inl rfl)
  | cons first others =>
    exact ⟨_, [], (List.append_nil _).symm, separated formed first others before,
      takes_group_star.mpr (.inl rfl)⟩

/-- Where a function with parameters like those of a block is called by the name of the block, the
parameters of the block stand in the call, and its description behind the heading. -/
theorem heading_of_call (words : table.OfWords) {page : FunctionPage} {b : Block}
    {before behind : List Block} (split : page.blocks = before ++ b :: behind)
    {ps : List Parameter} (spares : ∀ p ∈ ps, table.Spares p.type)
    (agree : List.Forall₂
      (fun p q => (PrintedType.pattern p.type table complete).matchesAll q.type) ps b.parameters)
    {w s front a back gap k m y rest : Text} {c : Option Char} (outside : EndsOutside w)
    (blank : ∀ e ∈ s, Text.isBlank e) (inner : ∀ e ∈ front, Text.isBlank e)
    (taken : (parametersPattern table complete ps).Takes c a rest)
    (outer : ∀ e ∈ back, Text.isBlank e) (trail : ∀ e ∈ gap, Text.isBlank e)
    (const : k = [] ∨ k = constWord) (brackets : m = [] ∨ ∃ r, m = ' ' :: '[' :: r ∧ ')' ∉ r)
    (text : page.text = w ++ (b.name ++ (s ++ '(' ::
      (front ++ (a ++ (back ++ ')' :: ((gap ++ (k ++ (m ++ ['\n']))) ++ y))))))) :
    a = b.arguments ∧ y = b.docs ++ (List.replicate 4 '\n' ++ page.textOf behind) := by
  have formed := page.formed b (by simp [split])
  have body : b.arguments ++ ')' :: (b.qualifier ++ '\n' ::
      (b.docs ++ (List.replicate 4 '\n' ++ page.textOf behind))) =
      front ++ (a ++ (back ++ ')' :: ((gap ++ (k ++ (m ++ ['\n']))) ++ y))) := by
    rw [page.body_of_call split outside blank text]
    simp [Block.body]
  have word : (b.docs ++ (List.replicate 4 '\n' ++ page.textOf behind)).head?.any Text.isWord := by
    obtain ⟨e, d, same, word⟩ := formed.described.exists_word
    simpa [same] using word
  have ends : '\n' ∈ gap ++ (k ++ (m ++ ['\n'])) := by simp
  have free : ')' ∉ gap ++ (k ++ (m ++ ['\n'])) := by
    simpa using closing_not_mem_heading trail const brackets
  -- the parameters of the block are taken as well, so both readings share all but what is unlisted
  obtain ⟨core, t, t', taken, listed, opened⟩ :=
    keepsOpen_of_parameters words spares taken (takes_arguments formed.listed agree none []) inner
      (by simp) (show _ = [] ++ (b.arguments ++ _) from body.symm)
  obtain ⟨rfl, behindList⟩ := arguments_unique formed.line formed.trimmed b.unmarked_qualifier word
    inner outer taken listed opened ends free body
  refine ⟨rfl, ?_⟩
  exact heading_unique trail const brackets b.qualifier_cases word
    (formed.described.unqualified_append (List.replicate 3 '\n' ++ page.textOf behind))
    (by simpa using behindList)

/-- Every match on a page keeps the parameters and the description of the block with the name of the
function. -/
theorem captures_functionBlock (words : table.OfWords) {layout : Layout}
    (closes : ClosesBlocks layout) {page : FunctionPage} {b : Block} {before behind : List Block}
    (split : page.blocks = before ++ b :: behind) {f : Function} (name : f.documentedName = b.name)
    (spares : ∀ p ∈ f.callParameters, table.Spares p.type)
    (agree : List.Forall₂
      (fun p q => (PrintedType.pattern p.type table complete).matchesAll q.type)
      f.callParameters b.parameters) {u v : Text} (parts : page.text = u ++ v)
    {d : Cursor} (first : ((functionBlock layout table complete f).ends (.between u v)).head? =
      some d) :
    ∃ r r', d.captures = [⟨.docs, b.docs ++ r, b.docs.length⟩,
      ⟨.arguments, b.arguments ++ r', b.arguments.length⟩] := by
  let good (d : Cursor) : Prop := ∃ r r', d.captures = [⟨.docs, b.docs ++ r, b.docs.length⟩,
    ⟨.arguments, b.arguments ++ r', b.arguments.length⟩]
  have formed := page.formed b (by simp [split])
  refine head?_seq good ?_ first
  intro c₁ started d first
  refine head?_seq good ?_ first
  intro c₂ returned d first
  refine head?_seq good ?_ first
  intro c₃ qualified d first
  refine head?_seq good ?_ first
  intro c₄ declared d first
  refine head?_seq good ?_ first
  intro c₅ ended d first
  obtain ⟨x₁, passes₁, -, kept₁⟩ := mem_ends rfl started
  obtain ⟨x₂, passes₂, -, kept₂⟩ := mem_ends rfl returned
  obtain ⟨x₃, passes₃, scope, kept₃⟩ := mem_ends rfl qualified
  obtain ⟨s, front, a, back, t, passes₄, blank, inner, outer, trail, ⟨_, _, taken⟩, r, kept₄⟩ :=
    mem_ends_declarator declared
  obtain ⟨_, passes₅, heading, kept₅⟩ := mem_ends rfl ended
  obtain ⟨k, m, rfl, const, brackets⟩ := takes_headingEnd heading
  -- the name is called where the declarator starts
  obtain ⟨x, e, rfl, mark⟩ := ends_scopeOrBlank (takes_scopeOrBlank.mp scope)
  have text : page.text = (u ++ (x₁ ++ (x₂ ++ x)) ++ [e]) ++ (b.name ++ (s ++ '(' ::
      (front ++ (a ++ (back ++ ')' :: ((t ++ (k ++ (m ++ ['\n']))) ++ c₅.rest)))))) := by
    have whole : v = _ :=
      (passes₁.trans (passes₂.trans (passes₃.trans (passes₄.trans passes₅)))).rest
    rw [parts, whole, name]
    simp
  obtain ⟨rfl, docs⟩ := heading_of_call words split spares agree (endsOutside_concat mark) blank
    inner taken outer trail const brackets text
  refine ⟨List.replicate 4 '\n' ++ page.textOf behind, r, ?_⟩
  rw [captures_docs closes formed.described docs first, docs, kept₅, kept₄, kept₃, kept₂, kept₁]
  rfl

theorem takes_functionBlock {layout : Layout} (valid : layout.IsValid) {f : Function} {b : Block}
    (formed : b.WellFormed) (name : f.documentedName = b.name)
    (agree : List.Forall₂
      (fun p q => (PrintedType.pattern p.type table complete).matchesAll q.type)
      f.callParameters b.parameters) (before : Option Char) (rest : Text) :
    (functionBlock layout table complete f).Takes before
      ("\n\n".toList ++ (b.heading (scopeName f.scope) ++ '(' :: (b.arguments ++ ')' ::
        (b.qualifier ++ '\n' :: (b.docs ++
          List.replicate (layout.trailingLow + layout.functionBlock) '\n'))))) rest := by
  have none (before : Option Char) (rest : Text) : spaces.Takes before [] rest :=
    takes_chars_star.mpr fun _ absent => nomatch absent
  have start (rest : Text) : functionStart.Takes before "\n\n".toList rest :=
    takes_functionStart.mpr (.inr (.inl rfl))
  have result (before : Option Char) (rest : Text) : returnType.Takes before b.result rest :=
    takes_returnType.mpr formed.result
  have scope (before : Option Char) (rest : Text) : (scopeOrBlank (scopeName f.scope)).Takes before
      (scopeName f.scope ++ "::".toList) rest :=
    takes_scopeOrBlank.mpr (.inr ⟨[], rfl, .inl rfl⟩)
  have qualifier : ∃ gap const, b.qualifier = gap ++ const ∧ (∀ c ∈ gap, Text.isBlank c) ∧
      (const = [] ∨ const = constWord) := by
    rcases b.qualifier_cases with none | const
    · exact ⟨[], [], none, by simp, .inl rfl⟩
    · exact ⟨[' '], constWord, const, by decide, .inr rfl⟩
  obtain ⟨gap, const, parts, blank, optional⟩ := qualifier
  have declared (before : Option Char) (rest : Text) : (declarator table complete f).Takes before
      (b.name ++ '(' :: (b.arguments ++ ')' :: gap)) rest :=
    ⟨b.name, _, rfl, name.symm, [], _, rfl, none _ _, ['('], _, rfl, rfl, [], _, rfl, none _ _,
      b.arguments, _, rfl, takes_arguments formed.listed agree _ _, [], _, rfl,
      none _ _, [')'], gap, rfl, rfl, takes_chars_star.mpr blank⟩
  have ending (before : Option Char) (rest : Text) :
      headingEnd.Takes before (const ++ ['\n']) rest :=
    ⟨const, _, rfl, takes_group_optional.mpr optional, [], _, rfl,
      takes_group_optional.mpr (.inl rfl), rfl⟩
  have docs (before : Option Char) (rest : Text) :
      (field .docs (all [.chars .word .one, .chars .any .lazyStar])).Takes before b.docs rest := by
    obtain ⟨c, d, same, word⟩ := formed.described.exists_word
    rw [same]
    exact ⟨[c], d, rfl, takes_chars_one.mpr ⟨c, rfl, word⟩,
      takes_chars_lazyStar.mpr fun _ _ => rfl⟩
  have whole : (functionBlock layout table complete f).Takes before ("\n\n".toList ++ (b.result ++
      ((scopeName f.scope ++ "::".toList) ++ ((b.name ++ '(' :: (b.arguments ++ ')' :: gap)) ++
        ((const ++ ['\n']) ++ (b.docs ++
          List.replicate (layout.trailingLow + layout.functionBlock) '\n')))))) rest :=
    ⟨_, _, rfl, start _, _, _, rfl, result _ _, _, _, rfl, scope _ _, _, _, rfl, declared _ _,
      _, _, rfl, ending _ _, _, _, rfl, docs _ _,
      (takes_functionEnd valid).mpr (endsBlock_replicate valid)⟩
  simpa [Block.heading, parts] using whole

end

/-- On a page of function blocks, a function whose parameter types match those of the block with its
name is found with the description and the parameters of that block. -/
theorem findFunction?_page {layout : Layout} (closes : ClosesBlocks layout) {table : AliasTable}
    (words : table.OfWords) (complete : Bool) (page : FunctionPage) {b : Block}
    (member : b ∈ page.blocks) {f : Function} (scope : scopeName f.scope = page.scope)
    (name : f.documentedName = b.name) (spares : ∀ p ∈ f.callParameters, table.Spares p.type)
    (agree : List.Forall₂
      (fun p q => (PrintedType.pattern p.type table complete).matchesAll q.type)
      f.callParameters b.parameters) :
    findFunction? layout table complete f page.text = .ok (some ⟨b.docs, b.arguments⟩) := by
  obtain ⟨earlier, later, split⟩ := List.append_of_mem member
  have formed := page.formed b member
  let good (m : Match) : Prop := m.get .docs = b.docs ∧ m.get .arguments = b.arguments
  have each : ∀ u v d, page.text = u ++ v →
      ((functionBlock layout table complete f).ends (.between u v)).head? = some d →
      good ⟨u.length, d⟩ := by
    intro u v d parts first
    obtain ⟨r, r', captures⟩ :=
      captures_functionBlock words closes split name spares agree parts first
    constructor
    · simp [Match.get, Match.get?, captures, Capture.text]
    · simp [Match.get, Match.get?, captures, Capture.text]
  -- an empty line stands in front of every block
  have lines : ∃ start, page.front ++ page.textOf earlier = start ++ "\n\n".toList := by
    rcases List.eq_nil_or_concat' earlier with rfl | ⟨others, c, rfl⟩
    · obtain ⟨start, eq⟩ := page.opened
      exact ⟨start, by simp [FunctionPage.textOf, eq]⟩
    · refine ⟨page.front ++ page.textOf others ++ (c.heading page.scope ++ '(' :: (c.arguments ++
        ')' :: (c.qualifier ++ '\n' :: (c.docs ++ "\n\n".toList)))), ?_⟩
      simp [FunctionPage.textOf, Block.text, Block.body, List.replicate]
  obtain ⟨start, eq⟩ := lines
  obtain ⟨n, more⟩ := Nat.exists_eq_add_of_le closes.few
  have closing : List.replicate 4 '\n' =
      List.replicate (layout.trailingLow + layout.functionBlock) '\n' ++ List.replicate n '\n' := by
    rw [more, List.replicate_add]
  have taken := takes_functionBlock closes.valid formed name agree (behind none start)
    (List.replicate n '\n' ++ page.textOf later)
  have text : page.text = start ++ (("\n\n".toList ++ (b.heading (scopeName f.scope) ++ '(' ::
      (b.arguments ++ ')' :: (b.qualifier ++ '\n' :: (b.docs ++
        List.replicate (layout.trailingLow + layout.functionBlock) '\n'))))) ++
      (List.replicate n '\n' ++ page.textOf later)) := by
    rw [page.text_eq split, eq, Block.body, closing, scope]
    simp only [List.append_assoc, List.cons_append]
  obtain ⟨m, found, docs, arguments⟩ := search?_of_takes each text taken
  simp [findFunction?, functionSearch, closes.valid, found, docs, arguments, Except.map]

def setterBlock : Block where
  result := "void ".toList
  name := "setIndent".toList
  parameters := [.named ⟨"long".toList, true, "indent".toList⟩ (some "-1".toList)]
  isConst := false
  docs := "Sets the indent.".toList

def getterBlock : Block where
  result := "int ".toList
  name := "indent".toList
  parameters := []
  isConst := true
  docs := "Returns the indent.".toList

def labelPage : FunctionPage where
  scope := "QLabel".toList
  front := "Member functions\n\n".toList
  blocks := [setterBlock, getterBlock]
  plain := by decide
  opened := ⟨"Member functions".toList, rfl⟩
  formed := by
    have setter : setterBlock.WellFormed := by
      refine ⟨by decide, ⟨by decide, by decide⟩, ?_, by decide,
        isTrimmed_of_ends (by decide) (by decide), isDescription_of_line (by decide)
          (by decide) (isTrimmed_of_ends (by decide) (by decide)) (by decide)⟩
      intro p member
      cases List.mem_singleton.mp member
      refine ⟨⟨⟨by decide, by decide⟩, fun direct => by cases direct⟩, ?_⟩
      intro v eq
      cases eq
      decide
    have getter : getterBlock.WellFormed :=
      ⟨by decide, ⟨by decide, by decide⟩, by simp [getterBlock], by decide,
        isTrimmed_of_ends (by decide) (by decide), isDescription_of_line (by decide)
          (by decide) (isTrimmed_of_ends (by decide) (by decide)) (by decide)⟩
    simp [setter, getter]
  distinct := by decide
  quiet := by
    have calls : ∀ name, ∀ b ∈ [setterBlock, getterBlock],
        ¬ Calls name b.arguments ∧ ¬ Calls name b.docs := by
      intro name
      have free : ∀ b ∈ [setterBlock, getterBlock], '(' ∉ b.arguments ∧ '(' ∉ b.docs := by
        simp only [List.forall_mem_cons]
        decide
      intro b member
      exact ⟨not_calls_of_free (free b member).1, not_calls_of_free (free b member).2⟩
    exact fun b _ => ⟨not_calls_of_free (by decide), calls b.name⟩

theorem findFunction?_page_setIndent :
    let label : Scope := ⟨"QLabel".toList, .classLike false, [], none⟩
    let f : Function := ⟨"setIndent".toList, "setIndent".toList, some label, none,
      [⟨"_0".toList, "int".toList, .regular⟩], []⟩
    ClosesBlocks {} ∧ AliasTable.empty.OfWords ∧ setterBlock ∈ labelPage.blocks ∧
      scopeName f.scope = labelPage.scope ∧ f.documentedName = setterBlock.name ∧
      (∀ p ∈ f.callParameters, AliasTable.empty.Spares p.type) ∧
      List.Forall₂
        (fun p q => (PrintedType.pattern p.type AliasTable.empty true).matchesAll q.type)
        f.callParameters setterBlock.parameters ∧
      findFunction? {} AliasTable.empty true f labelPage.text =
        .ok (some ⟨"Sets the indent.".toList, "long indent = -1".toList⟩) := by
  intro label f
  have words : AliasTable.empty.OfWords := fun _ _ absent => nomatch absent
  have member : setterBlock ∈ labelPage.blocks := .head _
  have spelled : tokens "int".toList = .ok [⟨.word, [], "int".toList⟩] :=
    tokens_of_word (by decide) (by decide +kernel)
  have parsed : parse "int".toList =
      .ok (.mk ⟨false, none, false, 0, "int".toList⟩ (.base (.plain ["int".toList]))) := by
    rw [parse, spelled]
    rfl
  have spares : ∀ p ∈ f.callParameters, AliasTable.empty.Spares p.type := by
    intro p member
    cases List.mem_singleton.mp member
    exact AliasTable.spares_of_parse parsed
  have agree : List.Forall₂
      (fun p q => (PrintedType.pattern p.type AliasTable.empty true).matchesAll q.type)
      f.callParameters setterBlock.parameters := by
    refine .cons ?_ .nil
    show (PrintedType.pattern "int".toList AliasTable.empty true).matchesAll "long".toList
    rw [pattern_of_parse parsed]
    decide +kernel
  exact ⟨closesBlocks_default, words, member, rfl, rfl, spares, agree,
    findFunction?_page closesBlocks_default words true labelPage member rfl rfl spares agree⟩

def shortBlock : Block where
  result := []
  name := "f".toList
  parameters := [.bare "a".toList]
  isConst := false
  docs := "b)\nFoo.".toList

def shortPage : FunctionPage where
  scope := "S".toList
  front := "\n\n".toList
  blocks := [shortBlock]
  plain := by decide
  opened := ⟨[], rfl⟩
  formed := by
    have described : IsDescription shortBlock.docs := by
      refine ⟨by decide, ?_, (isTrimmed_of_ends (by decide) (by decide)).last, ?_, ?_⟩
      · intro rest eq
        exact absurd (List.cons.inj eq).1 (by decide)
      · intro u l v eq lines
        obtain ⟨s, w, rfl, -, t, x, rfl, -⟩ := lines
        have once : shortBlock.docs.count '\n' = 1 := by decide
        rw [eq] at once
        simp only [List.count_append, List.count_cons_self] at once
        omega
      · intro u s m v eq _ mark
        obtain ⟨a, t, rfl, -⟩ := mark
        have none : '-' ∉ shortBlock.docs := by decide
        exact none (by simp [eq])
    rw [List.forall_mem_singleton]
    exact ⟨by decide, ⟨by decide, by decide⟩, by simp [shortBlock, Listed.WellFormed],
      by decide, isTrimmed_of_ends (by decide) (by decide), described⟩
  distinct := by decide
  quiet := by
    rw [List.forall_mem_singleton, List.forall_mem_singleton]
    exact ⟨not_calls_of_free (by decide), not_calls_of_free (by decide),
      not_calls_of_free (by decide)⟩

/-- The names of typedefs have to be words, and a type outside of the grammar must have none: else
one of the spellings of a type may go on behind another and take the end of the heading. -/
theorem findFunction?_page_longer_spelling :
    let scope : Scope := ⟨"S".toList, .classLike false, [], none⟩
    let f (type : Text) : Function := ⟨"f".toList, "f".toList, some scope, none,
      [⟨"_0".toList, type, .regular⟩], []⟩
    let named := AliasTable.ofAliases [⟨"a".toList, "a) b".toList, false⟩]
    let wordless := AliasTable.ofAliases
      [⟨"a) b".toList, "int".toList, false⟩, ⟨"a".toList, "int".toList, false⟩]
    shortBlock ∈ shortPage.blocks ∧ scopeName (some scope) = shortPage.scope ∧
      shortBlock.docs = "b)\nFoo.".toList ∧ shortBlock.arguments = "a".toList ∧
      named.OfWords ∧
      (PrintedType.pattern "a) b".toList named true).matchesAll "a".toList ∧
      findFunction? {} named true (f "a) b".toList) shortPage.text =
        .ok (some ⟨"Foo.".toList, "a)\nb".toList⟩) ∧
      wordless.Spares "int".toList ∧
      (PrintedType.pattern "int".toList wordless true).matchesAll "a".toList ∧
      findFunction? {} wordless true (f "int".toList) shortPage.text =
        .ok (some ⟨"Foo.".toList, "a)\nb".toList⟩) := by
  intro scope f named wordless
  have word (w : Text) (run : Text.IsWordRun w) : tokens w = .ok [⟨.word, [], w⟩] :=
    tokens_of_word run.1 run.2
  have short : PrintedType.read "a".toList =
      .tree (.mk ⟨false, none, false, 0, "a".toList⟩ (.base (.plain ["a".toList]))) := by
    rw [PrintedType.read, parse, word _ (by decide +kernel)]
    rfl
  have parsed : parse "int".toList =
      .ok (.mk ⟨false, none, false, 0, "int".toList⟩ (.base (.plain ["int".toList]))) := by
    rw [parse, word _ (by decide +kernel)]
    rfl
  have long : PrintedType.read "a) b".toList = .verbatim false "a) b".toList := by
    have behind : tokens ") b".toList = .error ')' := tokens_of_none (by decide +kernel)
    have failed : tokens "a) b".toList = .error ')' := by
      have found : lexeme? (Text.trimLeft "a) b".toList) =
          some (.word, "a".toList, ") b".toList) := by decide +kernel
      rw [tokens_of_lexeme found, behind]
      rfl
    rw [PrintedType.read, parse, failed]
    rfl
  have outer : PrintedType.pattern "a) b".toList named true = anySpelling
      [.seq anyScope (loosePattern "a) b".toList),
        namePattern none .empty (wordsPattern ["a".toList])] := by
    have names : named.names (canonical "a) b".toList) = ["a".toList] := by decide +kernel
    rw [PrintedType.pattern, long]
    simp only [Reading.pattern, Reading.bareName, Reading.spelling, AliasTable.extra, names]
    rw [List.map_singleton, short]
    rfl
  have inner : PrintedType.pattern "int".toList wordless true = .seq (anySpelling
      [namePattern none .empty (wordsPattern ["int".toList]),
        .seq anyScope (loosePattern "a) b".toList),
        namePattern none .empty (wordsPattern ["a".toList]),
        namePattern none .empty (.quoted "long".toList)]) .empty := by
    have names : wordless.names "int".toList = ["a) b".toList, "a".toList] := by decide +kernel
    rw [PrintedType.pattern, PrintedType.read, parsed]
    simp only [Reading.pattern, Reading.bareName, Reading.spelling, AliasTable.extra, Tree.form,
      names]
    rw [List.map_cons, List.map_singleton, long, short]
    rfl
  have text : shortPage.text = "\n\nS::f(a)\nb)\nFoo.\n\n\n\n".toList := by decide +kernel
  have callParameters (type : Text) :
      (f type).callParameters = [⟨"_0".toList, type, .regular⟩] := rfl
  have search (table : AliasTable) (type : Text) :
      functionSearch {} table true (f type) = .ok (functionBlock {} table true (f type)) := rfl
  refine ⟨.head _, rfl, rfl, rfl, AliasTable.ofWords_ofAliases ?_, ?_, ?_,
    AliasTable.spares_of_parse parsed, ?_, ?_⟩
  · rw [List.forall_mem_singleton]
    decide +kernel
  · rw [outer]
    decide +kernel
  · rw [findFunction?, search, functionBlock, declarator, callParameters, parametersPattern,
      List.map_singleton, parameterPattern, outer, text]
    exact congrArg Except.ok (by decide +kernel)
  · rw [inner]
    decide +kernel
  · rw [findFunction?, search, functionBlock, declarator, callParameters, parametersPattern,
      List.map_singleton, parameterPattern, inner, text]
    exact congrArg Except.ok (by decide +kernel)

end Apidoc.Page
