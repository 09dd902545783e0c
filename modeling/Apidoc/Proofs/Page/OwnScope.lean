import Apidoc.Proofs.Manual.Function
import Apidoc.Proofs.Page.FunctionPage

/-!
Whose function it is that a search finds. The name stands behind a space or behind the scope, but
the scope is also found at the end of a longer name: whatever stands between the start of the block
and the scope is read as the return type.
-/
namespace Apidoc.Page

open Pattern PrintedType

/-- A block starts with the line end that a page starts with, an empty line, or the mark of an entry
and a line end. -/
def IsOpening (above w : Text) : Prop :=
  w = ['\n'] ∧ above = [] ∨ w = "\n\n".toList ∨ w = " --\n".toList

theorem takes_opening {above w rest : Text} :
    functionStart.Takes (behind none above) w rest ↔ IsOpening above w := by
  rw [takes_functionStart, behind_eq_getLast?, Option.or_none, List.getLast?_eq_none_iff, IsOpening]

def declared (layout : Layout) (table : AliasTable) (complete : Bool) (f : Function) : Pattern :=
  all [declarator table complete f, headingEnd,
    .field .docs (all [.chars .word .one, .chars .any .lazyStar]), functionEnd layout]

/-- Behind a name, the parameters in parentheses, the rest of the heading, and the description. -/
def IsDeclared (text : FunctionText) (rest : Text) : Prop :=
  ∃ gap front back trail tail,
    rest = gap ++ '(' :: (front ++ (text.arguments ++ (back ++ ')' :: (trail ++ '\n' ::
      (text.docs ++ tail))))) ∧
    (∀ c ∈ gap, Text.isBlank c) ∧ (∀ c ∈ front, Text.isBlank c) ∧ (∀ c ∈ back, Text.isBlank c) ∧
    ')' ∉ trail

theorem IsDeclared.calls {text : FunctionText} {rest : Text} (called : IsDeclared text rest) :
    ∃ gap v, rest = gap ++ '(' :: v ∧ ∀ c ∈ gap, Text.isBlank c := by
  obtain ⟨gap, front, back, trail, tail, eq, blank, -⟩ := called
  exact ⟨gap, _, eq, blank⟩

theorem mem_ends_declared {layout : Layout} {table : AliasTable} {complete : Bool} {f : Function}
    {c d : Cursor} (member : d ∈ (declared layout table complete f).ends c) :
    ∃ text rest r r', c.rest = f.documentedName ++ rest ∧ IsDeclared text rest ∧
      d.captures = ⟨.docs, text.docs ++ r', text.docs.length⟩ ::
        ⟨.arguments, text.arguments ++ r, text.arguments.length⟩ :: c.captures := by
  obtain ⟨c₁, named, member⟩ := List.mem_flatMap.mp member
  obtain ⟨c₂, headed, member⟩ := List.mem_flatMap.mp member
  obtain ⟨c₃, described, ended⟩ := List.mem_flatMap.mp member
  obtain ⟨gap, front, a, back, t, passes₁, blank, inner, outer, trail, -, r, kept₁⟩ :=
    mem_ends_declarator named
  obtain ⟨_, passes₂, heading, kept₂⟩ := mem_ends rfl headed
  obtain ⟨k, m, rfl, const, brackets⟩ := takes_headingEnd heading
  obtain ⟨docs, passes₃, -, kept₃⟩ := mem_ends_field rfl described
  obtain ⟨w, passes₄, -, kept₄⟩ := mem_ends rfl ended
  have closed := closing_not_mem_heading trail const brackets
  refine ⟨⟨docs, a⟩, gap ++ '(' :: (front ++ (a ++ (back ++ ')' :: ((t ++ (k ++ m)) ++ '\n' ::
    (docs ++ c₃.rest))))), r, c₃.rest, ?_,
    ⟨gap, front, back, _, _, rfl, blank, inner, outer, closed⟩, ?_⟩
  · rw [passes₁.rest, passes₂.rest, passes₃.rest]
    simp
  · rw [kept₄, kept₃, kept₂, kept₁, passes₃.rest]

theorem functionBlock_eq (layout : Layout) (table : AliasTable) (complete : Bool) (f : Function) :
    functionBlock layout table complete f =
      seq functionStart (seq returnType (seq (scopeOrBlank (scopeName f.scope))
        (declared layout table complete f))) := rfl

/-- The scope in front of a name is its own: the name stands behind a space, or behind the scope,
which is not the end of a longer name. -/
def IsOwn (scope above qualifier : Text) : Prop :=
  qualifier = [' '] ∨ IsQualifier scope qualifier ∧ EndsOutside above

/-- Nowhere on the page is the name called behind a longer name that ends in the scope. -/
def NoLongerScope (scope name page : Text) : Prop :=
  ∀ u q s v, page = u ++ (q ++ (name ++ (s ++ '(' :: v))) → (∀ c ∈ s, Text.isBlank c) →
    IsQualifier scope q → EndsOutside u

theorem behind_of_ne_nil {w : Text} (some : w ≠ []) (before before' : Option Char) :
    behind before w = behind before' w := by
  cases w with
  | nil => exact absurd rfl some
  | cons c w => rfl

theorem takes_functionBlock_of_parts {layout : Layout} {table : AliasTable} {complete : Bool}
    {f : Function} {above opening result q w rest : Text} {before : Option Char}
    (opens : IsOpening above opening) (allowed : ∀ c ∈ result, resultClass.accepts c)
    (qualifier : q = [' '] ∨ IsQualifier (scopeName f.scope) q)
    (taken : (declared layout table complete f).Takes (behind before q) w rest) :
    (functionBlock layout table complete f).Takes (behind none above)
      (opening ++ (result ++ (q ++ w))) rest := by
  have some : q ≠ [] := by
    obtain ⟨front, c, rfl, -⟩ := ends_scopeOrBlank qualifier
    simp
  rw [functionBlock_eq]
  refine ⟨opening, _, rfl, takes_opening.mpr opens, result, _, rfl, takes_returnType.mpr allowed, q,
    w, rfl, takes_scopeOrBlank.mpr qualifier, ?_⟩
  rwa [behind_of_ne_nil some _ before]

/-- The heading that is found names the function behind a space or behind its scope, and is its own
on pages where no longer name ends in the scope. On other pages it may be another's: whatever the
characters between the start of the block and the scope are, the block is taken. -/
theorem findFunction?_ownScope {layout : Layout} {table : AliasTable} {complete : Bool}
    {f : Function} {page : Text} {text : FunctionText}
    (found : findFunction? layout table complete f page = .ok (some text)) :
    ∃ m above opening result qualifier rest,
      (functionBlock layout table complete f).search? page = some m ∧ m.start = above.length ∧
      page = above ++ (opening ++ (result ++ (qualifier ++ (f.documentedName ++ rest)))) ∧
      IsOpening above opening ∧ (∀ c ∈ result, resultClass.accepts c) ∧ IsDeclared text rest ∧
      (qualifier = [' '] ∨ IsQualifier (scopeName f.scope) qualifier) ∧
      (NoLongerScope (scopeName f.scope) f.documentedName page →
        IsOwn (scopeName f.scope) (above ++ (opening ++ result)) qualifier) ∧
      ∀ other, (∀ c ∈ other, resultClass.accepts c) →
        ∃ text', findFunction? layout table complete f
          (above ++ (opening ++ (other ++ (qualifier ++ (f.documentedName ++ rest))))) =
            .ok (some text') := by
  obtain ⟨valid, m, searched, rfl⟩ := findFunction?_eq_some found
  obtain ⟨above, v, d, rfl, first, rfl⟩ := searchFrom?_eq_some searched
  rw [functionBlock_eq] at first
  obtain ⟨opening, c₁, passes₁, start, kept₁, member⟩ :=
    mem_ends_seq rfl (List.mem_of_mem_head? first)
  obtain ⟨result, c₂, passes₂, returned, kept₂, member⟩ := mem_ends_seq rfl member
  obtain ⟨q, c₃, passes₃, scope, kept₃, member⟩ := mem_ends_seq rfl member
  obtain ⟨⟨docs, arguments⟩, rest, r, r', split, called, kept⟩ := mem_ends_declared member
  have opens := takes_opening.mp start
  have qualifier := takes_scopeOrBlank.mp scope
  have page : v = opening ++ (result ++ (q ++ (f.documentedName ++ rest))) := by
    have whole : v = _ := (passes₁.trans (passes₂.trans passes₃)).rest
    rw [whole, split]
    simp
  have text : FunctionText.mk ((⟨0 + above.length, d⟩ : Match).get .docs)
      ((⟨0 + above.length, d⟩ : Match).get .arguments) = ⟨docs, arguments⟩ := by
    simp [Match.get, Match.get?, kept, Capture.text]
  refine ⟨_, above, opening, result, q, rest, searched, Nat.zero_add _, congrArg (above ++ ·) page,
    opens, takes_returnType.mp returned, text ▸ called, qualifier, fun alone => ?_,
    fun other allowed => ?_⟩
  · obtain ⟨gap, v, rfl, blank⟩ := called.calls
    refine qualifier.imp id fun own => ⟨own, alone _ q gap v ?_ blank own⟩
    rw [page]
    simp
  · obtain ⟨w, passes, taken⟩ := (declared layout table complete f).faithful.sound member
    have whole := takes_functionBlock_of_parts opens allowed qualifier (passes₃.before ▸ taken)
    obtain ⟨m, again, -⟩ := searchFrom?_of_takes none 0 whole
    have same : above ++ (opening ++ (other ++ (q ++ w)) ++ d.rest) =
        above ++ (opening ++ (other ++ (q ++ (f.documentedName ++ rest)))) := by
      rw [← split, passes.rest]
      simp
    rw [same] at again
    exact ⟨_, by rw [findFunction?_of_valid valid, search?, again, Option.map_some]⟩

theorem eq_front_of_single {c : Char} {u v x y : Text} (single : (u ++ c :: v).count c = 1)
    (same : u ++ c :: v = x ++ c :: y) : x = u := by
  have free {a b : Text} (single : (a ++ c :: b).count c = 1) : c ∉ a := by
    rw [List.count_append, List.count_cons_self] at single
    exact List.count_eq_zero.mp (by omega)
  exact (Text.first_unique (free single) (free (same ▸ single)) same).1.symm

theorem IsQualifier.eq_front {scope above q front : Text} (word : Text.IsWordRun scope)
    (own : IsQualifier scope q) (same : above ++ q = front ++ (scope ++ "::".toList)) :
    above = front := by
  obtain ⟨a, rfl, amp⟩ := own
  have split : above ++ scope ++ a = front ++ scope := by
    rw [← List.append_assoc, ← List.append_assoc, ← List.append_assoc] at same
    exact (List.append_inj' same rfl).1
  rcases amp with rfl | ⟨s, rfl, -⟩
  · rw [List.append_nil] at split
    exact (List.append_inj' split rfl).1
  · have ends : EndsOutside (above ++ scope ++ s ++ ['&']) := endsOutside_concat (by decide)
    rw [List.append_assoc, split] at ends
    exact absurd (ends.eq_nil word.2) word.1

def clearFunction : Function :=
  ⟨"clear".toList, "clear".toList, some ⟨"QLabel".toList, .classLike false, [], none⟩, none, [], []⟩

def clearPage (result : Text) : Text :=
  "\n\n".toList ++ result ++ "QLabel::".toList ++ "clear()\nClears it.\n\n\n\n".toList

theorem clearPage_front {result u q v : Text} (single : (clearPage result).count 'c' = 1)
    (same : clearPage result = u ++ (q ++ ("clear".toList ++ v))) :
    u ++ q = "\n\n".toList ++ result ++ ("QLabel".toList ++ "::".toList) :=
  eq_front_of_single single (same.trans (List.append_assoc u q _).symm)

theorem findFunction?_ownScope_clear :
    findFunction? {} .empty true clearFunction (clearPage "void ".toList) =
        .ok (some ⟨"Clears it.".toList, []⟩) ∧
      NoLongerScope "QLabel".toList "clear".toList (clearPage "void ".toList) ∧
      ∃ above qualifier rest,
        clearPage "void ".toList = above ++ (qualifier ++ ("clear".toList ++ rest)) ∧
        IsDeclared ⟨"Clears it.".toList, []⟩ rest ∧ IsOwn "QLabel".toList above qualifier := by
  have found : findFunction? {} .empty true clearFunction (clearPage "void ".toList) =
      .ok (some ⟨"Clears it.".toList, []⟩) := by decide +kernel
  have plain : NoLongerScope "QLabel".toList "clear".toList (clearPage "void ".toList) := by
    intro u q s v same _ own
    have front := own.eq_front (by decide) (clearPage_front (by decide) same)
    rw [front]
    exact endsOutside_concat (u := "\n\nvoid".toList) (c := ' ') (by decide)
  obtain ⟨-, above, opening, result, qualifier, rest, -, -, same, -, -, called, -, own, -⟩ :=
    findFunction?_ownScope found
  refine ⟨found, plain, above ++ (opening ++ result), qualifier, rest, ?_, called, own plain⟩
  rw [List.append_assoc, List.append_assoc]
  exact same

theorem not_findFunction?_ownScope :
    findFunction? {} .empty true clearFunction (clearPage "void My".toList) =
        .ok (some ⟨"Clears it.".toList, []⟩) ∧
      ¬ ∃ above qualifier rest,
        clearPage "void My".toList = above ++ (qualifier ++ ("clear".toList ++ rest)) ∧
        IsOwn "QLabel".toList above qualifier := by
  refine ⟨by decide +kernel, ?_⟩
  rintro ⟨above, qualifier, rest, same, own⟩
  have front := clearPage_front (by decide) same
  rcases own with rfl | ⟨own, outside⟩
  · have last := congrArg List.getLast? front
    rw [List.getLast?_concat] at last
    exact absurd last (by decide)
  · rw [own.eq_front (by decide) front] at outside
    exact absurd (outside "\n\nvoid M".toList 'y' rfl) (by decide)

end Apidoc.Page
