import Apidoc.Page.ClassOverview
import Apidoc.Page.EnumBlock
import Apidoc.Page.PropertyEntry
import Apidoc.Proofs.Page.FunctionPage
import Apidoc.Proofs.PrintedType.Language

/-!
The patterns of pages are written in well-formed notation whatever text a declaration has: its
names, scopes and types stand for themselves and add no named part.
-/
namespace Apidoc

open Pattern Notation

/-- The numbers that a layout writes between braces are accepted there. -/
structure Layout.IsCounted (layout : Layout) : Prop where
  ordered : layout.IsValid
  trailing : layout.trailingHigh < countLimit
  functionBlock : layout.functionBlock < countLimit
  enumBlock : layout.enumBlock < countLimit
  classBlock : layout.classBlock < countLimit

theorem Layout.isCounted_default : Layout.IsCounted {} where
  ordered := by decide
  trailing := by decide
  functionBlock := by decide
  enumBlock := by decide
  classBlock := by decide

namespace Page

open PrintedType

section

variable (table : AliasTable) (complete : Bool)

theorem isPart_parametersPattern (ps : List Parameter) :
    IsPart (parametersPattern table complete ps) := by
  cases ps with
  | nil => exact ⟨rfl, rfl⟩
  | cons p ps =>
    have listed : IsPart (separated (all [comma, spaces])
        ((p :: ps).map (parameterPattern table complete))) := by
      apply isPart_separated ⟨rfl, rfl⟩
      intro q member
      obtain ⟨r, -, rfl⟩ := List.mem_map.mp member
      exact (isPart_pattern r.type table complete).seq ⟨rfl, rfl⟩
    exact listed.seq ⟨rfl, rfl⟩

theorem isPart_declarator (f : Function) : IsPart (declarator table complete f) := by
  have arguments : IsPart (.field .arguments (parametersPattern table complete f.callParameters)) :=
    ⟨(isPart_parametersPattern table complete f.callParameters).1, rfl⟩
  have closing : IsPart (all [spaces, .fixed ")".toList, spaces]) := ⟨rfl, rfl⟩
  exact IsPart.seq ⟨rfl, rfl⟩ (IsPart.seq ⟨rfl, rfl⟩ (IsPart.seq ⟨rfl, rfl⟩
    (IsPart.seq ⟨rfl, rfl⟩ (arguments.seq closing))))

variable {layout : Layout}

theorem isPart_functionEnd (counted : layout.IsCounted) : IsPart (functionEnd layout) := by
  have range : isRepeat (.between layout.trailingLow layout.trailingHigh) :=
    decide_eq_true ⟨counted.ordered, counted.trailing⟩
  have many : isRepeat (.exactly layout.functionBlock) := decide_eq_true counted.functionBlock
  have last : IsPart (.group (.group lineEnd (.exactly layout.functionBlock)) .one) :=
    isPart_group (isPart_group rfl many).1 rfl
  have choice : isWritable (.alt
      (.group (all [.chars (.char '&') .optional, .chars .nonblank .star, entryMark]) .one)
      (.group (.group lineEnd (.exactly layout.functionBlock)) .one)) :=
    Bool.and_eq_true_iff.mpr ⟨rfl, last.1⟩
  exact (isPart_group rfl range).seq (isPart_group choice rfl)

theorem isPart_functionBlock (counted : layout.IsCounted) (f : Function) :
    IsPart (functionBlock layout table complete f) := by
  have docs : IsPart (.field .docs (all [.chars .word .one, .chars .any .lazyStar])) := ⟨rfl, rfl⟩
  have heading : IsPart headingEnd := ⟨rfl, rfl⟩
  exact IsPart.seq ⟨rfl, rfl⟩ (IsPart.seq ⟨rfl, rfl⟩ (IsPart.seq ⟨rfl, rfl⟩
    ((isPart_declarator table complete f).seq
      (heading.seq (docs.seq (isPart_functionEnd counted))))))

theorem fields_functionBlock (f : Function) :
    (functionBlock layout table complete f).fields = [.arguments, .docs] := by
  have split : (functionBlock layout table complete f).fields =
      .arguments :: ((parametersPattern table complete f.callParameters).fields ++ []) ++
        [.docs] := rfl
  rw [split, fields_parameters]
  rfl

end

theorem isPart_propertyEntry (table : AliasTable) (name type : Text) :
    IsPart (propertyEntry table name type) := by
  have docs : IsPart (all [.group (all [someSpaces, .fixed "const".toList]) .optional,
      .fixed "\n".toList, .field .docs (.chars .any .lazyStar),
      .fixed "\nAccess functions:".toList]) := ⟨rfl, rfl⟩
  exact IsPart.seq ⟨rfl, rfl⟩ (IsPart.seq ⟨rfl, rfl⟩ (IsPart.seq ⟨rfl, rfl⟩
    (IsPart.seq ⟨rfl, rfl⟩ (IsPart.seq ⟨rfl, rfl⟩ ((isPart_pattern type table true).seq docs)))))

theorem fields_propertyEntry (table : AliasTable) (name type : Text) :
    (propertyEntry table name type).fields = [.docs] := by
  have split : (propertyEntry table name type).fields =
      (PrintedType.pattern type table true).fields ++ [.docs] := rfl
  rw [split, fields_of_isPlain (isPlain_pattern type table true)]
  rfl

theorem isPart_flagsName (scope : Text) : IsPart (flagsName scope) := by
  unfold flagsName
  split <;> exact ⟨rfl, rfl⟩

theorem fields_flagsName (scope : Text) : (flagsName scope).fields = [] := by
  unfold flagsName
  split <;> rfl

theorem isPart_enumBlock {layout : Layout} (counted : layout.IsCounted) (scope name : Text) :
    IsPart (enumBlock layout scope name) := by
  have flags : IsPart (all [spaces, .fixed "flags ".toList, flagsName scope, someSpaces]) :=
    IsPart.seq ⟨rfl, rfl⟩ (IsPart.seq ⟨rfl, rfl⟩ ((isPart_flagsName scope).seq ⟨rfl, rfl⟩))
  have docs : IsPart (.field .docs (.chars .any .lazyStar)) := ⟨rfl, rfl⟩
  have many : isRepeat (.exactly layout.enumBlock) := decide_eq_true counted.enumBlock
  have blank : IsPart (.chars (.char '\n') (.exactly layout.enumBlock)) := ⟨many, rfl⟩
  exact IsPart.seq ⟨rfl, rfl⟩ ((isPart_group flags.1 rfl).seq (docs.seq blank))

theorem fields_enumBlock (layout : Layout) (scope name : Text) :
    (enumBlock layout scope name).fields = [.docs] := by
  have split : (enumBlock layout scope name).fields = (flagsName scope).fields ++ [] ++ [.docs] := rfl
  rw [split, fields_flagsName]
  rfl

theorem isPart_memberName (scope item : Text) : IsPart (memberName scope item) := by
  unfold memberName
  split <;> exact ⟨rfl, rfl⟩

theorem fields_memberName (scope item : Text) : (memberName scope item).fields = [] := by
  unfold memberName
  split <;> rfl

theorem isPart_enumRow (scope name item : Text) (separator : Separator) :
    IsPart (enumRow scope name item separator) := by
  have column : IsPart separator.pattern := by cases separator <;> exact ⟨rfl, rfl⟩
  have docs : IsPart (all [.field .docs (.chars (.noneOf [.char '\n']) .lazyStar),
      .group (all [.fixed "&".toList, .chars .word .plus, .fixed ";".toList]) .optional,
      .fixed "\n".toList]) := ⟨rfl, rfl⟩
  have value : IsPart (.chars (.noneOf [.char '\t', .char '\n']) .lazyPlus) := ⟨rfl, rfl⟩
  have cells := (isPart_memberName scope item).seq (column.seq (value.seq (column.seq docs)))
  exact IsPart.seq ⟨rfl, rfl⟩ (IsPart.seq ⟨rfl, rfl⟩ (IsPart.seq ⟨rfl, rfl⟩
    (IsPart.seq ⟨rfl, rfl⟩ (IsPart.seq ⟨rfl, rfl⟩ (IsPart.seq ⟨rfl, rfl⟩ cells)))))

theorem fields_enumRow (scope name item : Text) (separator : Separator) :
    (enumRow scope name item separator).fields = [.docs] := by
  have split : (enumRow scope name item separator).fields = (memberName scope item).fields ++
      (separator.pattern.fields ++ (separator.pattern.fields ++ [.docs])) := rfl
  rw [split, fields_memberName]
  cases separator <;> rfl

theorem isPart_classOverview {layout : Layout} (counted : layout.IsCounted) (name : Text) :
    IsPart (classOverview layout name) := by
  have many : isRepeat (.atLeast layout.classBlock) := decide_eq_true counted.classBlock
  have blank : IsPart (.chars (.char '\n') (.atLeast layout.classBlock)) := ⟨many, rfl⟩
  exact IsPart.seq ⟨rfl, rfl⟩ (IsPart.seq ⟨rfl, rfl⟩ (IsPart.seq ⟨rfl, rfl⟩
    (IsPart.seq ⟨rfl, rfl⟩ (IsPart.seq ⟨rfl, rfl⟩ (IsPart.seq ⟨rfl, rfl⟩ blank)))))

/-- One of the texts stands in whatever the pattern takes. -/
def Carries (p : Pattern) (ts : List Text) : Prop :=
  ∀ before w rest, p.Takes before w rest → ∃ t ∈ ts, t <:+: w

section

variable {p q : Pattern} {ts us : List Text}

theorem carries_fixed (t : Text) : Carries (.fixed t) [t] :=
  fun _ _ _ taken => ⟨t, .head _, taken ▸ List.infix_rfl⟩

theorem carries_quoted (t : Text) : Carries (.quoted t) [t] :=
  fun _ _ _ taken => ⟨t, .head _, taken ▸ List.infix_rfl⟩

theorem Carries.seq_left (first : Carries p ts) (q : Pattern) : Carries (.seq p q) ts := by
  intro before w rest taken
  obtain ⟨u, v, rfl, left, -⟩ := taken
  obtain ⟨t, listed, inside⟩ := first _ _ _ left
  exact ⟨t, listed, inside.trans (List.infix_append' [] u v)⟩

theorem Carries.seq_right (p : Pattern) (second : Carries q ts) : Carries (.seq p q) ts := by
  intro before w rest taken
  obtain ⟨u, v, rfl, -, right⟩ := taken
  obtain ⟨t, listed, inside⟩ := second _ _ _ right
  exact ⟨t, listed, inside.trans (List.suffix_append u v).isInfix⟩

theorem carries_all {ps : List Pattern} (part : p ∈ ps) (body : Carries p ts) :
    Carries (all ps) ts := by
  induction ps with
  | nil => cases part
  | cons q ps ih =>
    cases ps with
    | nil =>
      rw [List.mem_singleton.mp part] at body
      exact body
    | cons r ps =>
      rcases List.mem_cons.mp part with rfl | other
      · exact body.seq_left _
      · exact (ih other).seq_right q

theorem Carries.alt (first : Carries p ts) (second : Carries q us) :
    Carries (.alt p q) (ts ++ us) := by
  intro before w rest taken
  rcases taken with left | right
  · obtain ⟨t, listed, inside⟩ := first _ _ _ left
    exact ⟨t, List.mem_append_left us listed, inside⟩
  · obtain ⟨t, listed, inside⟩ := second _ _ _ right
    exact ⟨t, List.mem_append_right ts listed, inside⟩

theorem Carries.group_one (body : Carries p ts) : Carries (.group p .one) ts :=
  fun _ _ _ taken => body _ _ _ (takes_group_one.mp taken)

theorem Carries.field (name : Field) (body : Carries p ts) : Carries (.field name p) ts := body

end

theorem carries_scopeOrBlank (scope : Text) : Carries (scopeOrBlank scope) [scope, [' ']] :=
  ((carries_all (.head _) (carries_quoted scope)).group_one.alt (carries_fixed [' '])).group_one

theorem carries_enumHeading (scope name : Text) :
    Carries (enumHeading scope name) [Scope.qualify scope name] :=
  carries_all (.tail _ (.head _)) (carries_quoted _)

theorem carries_memberName (scope item : Text) :
    Carries (memberName scope item) [if scope.isEmpty then item else Scope.qualify scope item] := by
  unfold memberName
  split
  · exact carries_all (.tail _ (.head _)) (carries_quoted item)
  · exact carries_quoted _

theorem carries_classOverview (layout : Layout) (name : Text) :
    Carries (classOverview layout name) ["The ".toList ++ name, "This class".toList] := by
  have named : Carries (all [.fixed "The ".toList, .quoted name]) ["The ".toList ++ name] := by
    intro before w rest taken
    obtain ⟨_, _, rfl, rfl, rfl⟩ := taken
    exact ⟨_, .head _, List.infix_rfl⟩
  have opening := (named.group_one.alt (carries_fixed "This class".toList).group_one).group_one
  exact carries_all (.head _) ((carries_all (.head _) opening).field .brief)

/-- No text of a declaration acts as notation. The patterns compile with the parts that are kept of
a match and no others, a match has the names of the declaration in it, and escaped text stands for
itself wherever it is read. -/
theorem search_patterns_compile (table : AliasTable) :
    (∀ complete f, ∃ p, functionSearch {} table complete f = .ok p ∧
      Compiles p [.arguments, .docs] ∧ Carries p [f.documentedName] ∧
      Carries p [scopeName f.scope, [' ']]) ∧
    (∀ name type, Compiles (propertyEntry table name type) [.docs] ∧
      Carries (propertyEntry table name type) [name]) ∧
    (∀ scope name, Compiles (enumBlock {} scope name) [.docs] ∧
      Carries (enumBlock {} scope name) [Scope.qualify scope name]) ∧
    (∀ scope name item separator, Compiles (enumRow scope name item separator) [.docs] ∧
      Carries (enumRow scope name item separator) [Scope.qualify scope name] ∧
      Carries (enumRow scope name item separator)
        [if scope.isEmpty then item else Scope.qualify scope item]) ∧
    (∀ name, Compiles (classOverview {} name) [.brief, .detailed] ∧
      Carries (classOverview {} name) ["The ".toList ++ name, "This class".toList]) ∧
    (∀ t, ∃ q, compile? (t.flatMap escapeQuoted) = some q ∧ q.fields = [] ∧
      ∀ before w rest, q.Takes before w rest ↔ w = t) ∧
    ∀ t frame outer r, readFrom? (t.flatMap escapeQuoted ++ r) (frame, outer) =
      readFrom? r (frame.pushText t, outer) := by
  have counted : Layout.IsCounted {} := Layout.isCounted_default
  refine ⟨?functions, ?properties, ?enums, ?rows, ?classes, compile?_escaped,
    readFrom?_chars symbol?_escapeQuoted⟩
  case functions =>
    intro complete f
    have name : Carries (declarator table complete f) [f.documentedName] :=
      carries_all (.head _) (carries_quoted f.documentedName)
    exact ⟨_, if_pos counted.ordered,
      compiles_of_fields (isPart_functionBlock table complete counted f).1
        (fields_functionBlock table complete f) (by decide),
      carries_all (.tail _ (.tail _ (.tail _ (.head _)))) name,
      carries_all (.tail _ (.tail _ (.head _))) (carries_scopeOrBlank (scopeName f.scope))⟩
  case properties =>
    intro name type
    exact ⟨compiles_of_fields (isPart_propertyEntry table name type).1
      (fields_propertyEntry table name type) (by decide),
      carries_all (by simp) (carries_quoted name)⟩
  case enums =>
    intro scope name
    exact ⟨compiles_of_fields (isPart_enumBlock counted scope name).1
      (fields_enumBlock {} scope name) (by decide),
      carries_all (.head _) (carries_enumHeading scope name)⟩
  case rows =>
    intro scope name item separator
    exact ⟨compiles_of_fields (isPart_enumRow scope name item separator).1
      (fields_enumRow scope name item separator) (by decide),
      carries_all (.head _) (carries_enumHeading scope name),
      carries_all (by simp) (carries_memberName scope item)⟩
  case classes =>
    intro name
    exact ⟨compiles_of_fields (isPart_classOverview counted name).1 rfl (by decide),
      carries_classOverview {} name⟩

end Page

end Apidoc
