import Apidoc.Proofs.ArgumentList.DocumentedNames
import Apidoc.Proofs.Page.FunctionPage
import Apidoc.Proofs.Page.Overload
import Apidoc.Proofs.PrintedType.Enclosed

/-!
Default values with commas in parentheses. The pieces of a list keep such a value whole. The pattern
of a declarator ends a default value at its first comma, and takes no closing parenthesis outside of
default values, so it does not match the list.
-/
namespace Apidoc.Page

open ArgumentList Pattern PrintedType Text

/-- As many parentheses close as open, and commas stand where some are open. -/
structure BalancesParentheses (s : Text) : Prop where
  closed : s.count ')' = s.count '('
  inside : ∀ u v, s = u ++ ',' :: v → u.count ')' < u.count '('

theorem balancesParentheses_iff {s : Text} : BalancesParentheses s ↔
    s.count ')' = s.count '(' ∧ ∀ n < s.length, s[n]? = some ',' →
      (s.take n).count ')' < (s.take n).count '(' := by
  constructor
  · rintro ⟨closed, inside⟩
    refine ⟨closed, fun n bound comma => inside _ (s.drop (n + 1)) ?_⟩
    obtain ⟨bound, eq⟩ := List.getElem?_eq_some_iff.mp comma
    rw [← eq, List.getElem_cons_drop, List.take_append_drop]
  · rintro ⟨closed, places⟩
    refine ⟨closed, ?_⟩
    rintro u v rfl
    have here := places u.length (by simp) (by simp)
    rwa [List.take_left] at here

instance (s : Text) : Decidable (BalancesParentheses s) :=
  decidable_of_iff _ balancesParentheses_iff.symm

theorem bracketDepth_eq_count {s : Text} (opening : '<' ∉ s) (closing : '>' ∉ s) :
    bracketDepth s = s.count '(' - s.count ')' := by
  rw [bracketDepth_eq, openings, closings, List.count_eq_zero.mpr opening,
    List.count_eq_zero.mpr closing, Nat.zero_add, Nat.zero_add]

namespace BalancesParentheses

variable {s : Text} (balanced : BalancesParentheses s)
include balanced

theorem enclosed (opening : '<' ∉ s) (closing : '>' ∉ s) : IsEnclosed 0 s := by
  refine ⟨by rw [bracketDepth_eq_count opening closing, balanced.closed, Int.sub_self], ?_⟩
  rintro u v rfl
  have open_comma := balanced.inside u v rfl
  rw [bracketDepth_eq_count (fun member => opening (List.mem_append_left _ member))
    fun member => closing (List.mem_append_left _ member)]
  omega

theorem exists_closing (comma : ',' ∈ s) : ∃ u v w, s = u ++ ',' :: (v ++ ')' :: w) := by
  obtain ⟨u, v, rfl⟩ := List.append_of_mem comma
  have open_comma := balanced.inside u v rfl
  have closed := balanced.closed
  have opening : ',' ≠ '(' := by decide
  have closing : ',' ≠ ')' := by decide
  rw [List.count_append, List.count_append, List.count_cons_of_ne opening,
    List.count_cons_of_ne closing] at closed
  obtain ⟨x, y, rfl⟩ := List.append_of_mem (List.count_pos_iff.mp (by omega : 0 < v.count ')'))
  exact ⟨u, x, y, rfl⟩

end BalancesParentheses

/-! What a declarator takes. -/

/-- Every closing parenthesis of the text stands behind an equals sign, without a comma between. -/
def ClosesBehindEquals (s : Text) : Prop :=
  ∀ u v, s = u ++ ')' :: v → ∃ x y, u = x ++ '=' :: y ∧ ',' ∉ y

theorem closesBehindEquals_of_free {s : Text} (free : ')' ∉ s) : ClosesBehindEquals s := by
  intro u v eq
  exact absurd (by simp [eq]) free

theorem closesBehindEquals_default {s : Text} (free : ',' ∉ s) : ClosesBehindEquals ('=' :: s) := by
  intro u v eq
  cases u with
  | nil => cases eq
  | cons c u =>
    obtain ⟨rfl, rfl⟩ := List.cons.inj eq
    exact ⟨[], u, rfl, fun member => free (List.mem_append_left _ member)⟩

theorem ClosesBehindEquals.append {s t : Text} (first : ClosesBehindEquals s)
    (second : ClosesBehindEquals t) : ClosesBehindEquals (s ++ t) := by
  intro u v eq
  rcases List.append_eq_append_iff.mp eq with ⟨w, rfl, rest⟩ | ⟨w, rfl, rest⟩
  · obtain ⟨x, y, rfl, free⟩ := second w v rest
    exact ⟨s ++ x, y, by simp, free⟩
  · cases w with
    | nil =>
      obtain ⟨x, y, eq', -⟩ := second [] v rest.symm
      simp at eq'
    | cons c w =>
      obtain ⟨rfl, -⟩ := List.cons.inj rest
      exact first u w rfl

theorem closesBehindEquals_of_unlisted {before : Option Char} {w rest : Text}
    (taken : unlistedParameter.Takes before w rest) : ClosesBehindEquals w := by
  obtain ⟨type, _, rfl, ⟨plain, -⟩, value, last, rfl, default, separator⟩ := taken
  have first : ')' ∉ type := by
    intro member
    have allowed := plain ')' member
    revert allowed
    decide
  obtain ⟨front, text, rfl, blank, free⟩ := comma_not_mem_defaultValue default
  have behind : ')' ∉ last := by
    rcases takes_group_optional.mp separator with rfl | comma
    · exact List.not_mem_nil
    · obtain ⟨space, rfl, blank⟩ := takes_comma.mp comma
      have gap := closing_not_mem_blank blank
      simp [gap]
  exact (closesBehindEquals_of_free first).append
    (((closesBehindEquals_of_free (closing_not_mem_blank blank)).append
      (closesBehindEquals_default free)).append (closesBehindEquals_of_free behind))

section

variable {table : AliasTable} (words : table.OfWords) {complete : Bool}
include words

theorem closesBehindEquals_of_parameter {p : Parameter} (accepted : ∃ t, parse p.type = .ok t)
    {before : Option Char} {w rest : Text}
    (taken : (parameterPattern table complete p).Takes before w rest) : ClosesBehindEquals w := by
  obtain ⟨t, parsed⟩ := accepted
  have reading : PrintedType.read p.type = .tree t := by rw [PrintedType.read, parsed]
  obtain ⟨type, behind, rfl, spelled, named⟩ := taken
  have own := closesBehindEquals_of_free (not_mem_of_tree words reading spelled).2
  obtain ⟨name, value, rfl, clear, free, value_eq⟩ := tail_of_takes named
  have plain : ')' ∉ name := clear.not_mem (by decide) (by decide)
  have default : ClosesBehindEquals value := by
    cases value with
    | nil => exact closesBehindEquals_of_free List.not_mem_nil
    | cons c value =>
      obtain rfl : c = '=' := by simpa using value_eq
      exact closesBehindEquals_default (List.not_mem_of_not_mem_cons free)
  exact own.append ((closesBehindEquals_of_free plain).append default)

theorem closesBehindEquals_of_separated {ps : List Parameter}
    (accepted : ∀ p ∈ ps, ∃ t, parse p.type = .ok t) {before : Option Char} {w rest : Text}
    (taken : (separated (all [comma, spaces])
      (ps.map (parameterPattern table complete))).Takes before w rest) : ClosesBehindEquals w := by
  induction ps generalizing before w with
  | nil =>
    cases taken
    exact closesBehindEquals_of_free List.not_mem_nil
  | cons p ps ih =>
    obtain ⟨first, others⟩ := List.forall_mem_cons.mp accepted
    cases ps with
    | nil => exact closesBehindEquals_of_parameter words first taken
    | cons q ps =>
      obtain ⟨u, _, rfl, own, mark, v, rfl, separator, rest⟩ := taken
      obtain ⟨space, rfl, blank⟩ := takes_comma.mp separator
      have gap : ')' ∉ ',' :: space := by simp [closing_not_mem_blank blank]
      exact (closesBehindEquals_of_parameter words first own).append
        ((closesBehindEquals_of_free gap).append (ih others rest))

theorem closesBehindEquals_of_parameters {ps : List Parameter}
    (accepted : ∀ p ∈ ps, ∃ t, parse p.type = .ok t) {before : Option Char} {w rest : Text}
    (taken : (parametersPattern table complete ps).Takes before w rest) : ClosesBehindEquals w := by
  have nil : ClosesBehindEquals [] := closesBehindEquals_of_free List.not_mem_nil
  have append (u v : Text) : ClosesBehindEquals u → ClosesBehindEquals v →
      ClosesBehindEquals (u ++ v) := ClosesBehindEquals.append
  cases ps with
  | nil => exact forall_of_group nil append (fun _ _ _ => closesBehindEquals_of_unlisted) taken
  | cons p ps =>
    obtain ⟨u, v, rfl, listed, extra⟩ := taken
    refine (closesBehindEquals_of_separated words accepted listed).append
      (forall_of_group nil append ?_ extra)
    intro _ _ _ one
    obtain ⟨_, _, rfl, rfl, space, w, rfl, blank, unlisted⟩ := one
    have gap : ')' ∉ ',' :: space := by
      simp [closing_not_mem_blank (takes_chars_star.mp blank)]
    have whole := (closesBehindEquals_of_free gap).append (closesBehindEquals_of_unlisted unlisted)
    simpa using whole

theorem closesBehindEquals_of_declarator {f : Function}
    (accepted : ∀ p ∈ f.callParameters, ∃ t, parse p.type = .ok t) {list : Text}
    (matched : (declarator table complete f).matchesAll
      (f.documentedName ++ '(' :: (list ++ [')']))) : ClosesBehindEquals list := by
  obtain ⟨_, _, whole, rfl, before, _, rfl, space, _, _, rfl, rfl, front, _, rfl, inner, own, _,
    rfl, taken, back, _, rfl, outer, _, behind, rfl, rfl, last⟩ := matchesAll_iff.mp matched
  have same := List.append_cancel_left whole
  obtain ⟨-, -, rfl⟩ := eq_of_brackets (m := front ++ (own ++ back)) (takes_chars_star.mp space)
    (takes_chars_star.mp last) (by simpa using same)
  have blank {w : Text} (blank : ∀ c ∈ w, isBlank c) :=
    closesBehindEquals_of_free (closing_not_mem_blank blank)
  exact (blank (takes_chars_star.mp inner)).append
    ((closesBehindEquals_of_parameters words accepted taken).append
      (blank (takes_chars_star.mp outer)))

end

theorem declarator_matches_of_takes {table : AliasTable} {complete : Bool} {f : Function}
    {list : Text} (taken : ∀ before rest,
      (parametersPattern table complete f.callParameters).Takes before list rest) :
    (declarator table complete f).matchesAll (f.documentedName ++ '(' :: (list ++ [')'])) := by
  have none : ∀ before rest, spaces.Takes before [] rest := fun _ _ =>
    takes_chars_star.mpr fun _ absent => nomatch absent
  rw [matchesAll_iff]
  exact ⟨f.documentedName, _, rfl, rfl, [], _, rfl, none _ _, ['('], _, rfl, rfl, [], _, rfl,
    none _ _, list, _, rfl, taken _ _, [], _, rfl, none _ _, [')'], [], rfl, rfl, none _ _⟩

/-! Lists of parameters with balanced default values. -/

/-- A parameter with a space in front of its name, and perhaps with a default value on one line that
balances its parentheses. -/
structure IsBalanced (d : Documented) : Prop where
  spaced : d.named.spaced
  word : IsWordRun d.named.name
  value : ∀ v ∈ d.value, v ≠ [] ∧ '\n' ∉ v ∧ '\r' ∉ v ∧ BalancesParentheses v

section

variable {table : AliasTable} {complete : Bool} {ps : List Parameter} {ds : List Documented}
  (balanced : ∀ d ∈ ds, IsBalanced d)
  (agree : List.Forall₂ (fun p d =>
    (PrintedType.pattern p.type table complete).matchesAll d.named.type) ps ds)
include balanced agree

theorem takes_documentedText (plain : ∀ d ∈ ds, ∀ v ∈ d.value, ',' ∉ v)
    (before : Option Char) (rest : Text) :
    (parametersPattern table complete ps).Takes before (documentedText ds) rest := by
  let listed (d : Documented) : Listed := .named d.named d.value
  have texts : ds.map Documented.text = (ds.map listed).map Listed.text := by
    rw [List.map_map]
    rfl
  have formed : ∀ q ∈ ds.map listed, q.WellFormed := by
    refine List.forall_mem_map.mpr ?_
    intro d member
    obtain ⟨spaced, word, value⟩ := balanced d member
    refine ⟨⟨word, fun direct => absurd spaced (by simp [direct])⟩, ?_⟩
    intro v own
    obtain ⟨some, line, feed, -⟩ := value v own
    refine ⟨some, fun c inside listed => ?_⟩
    simp only [List.mem_cons, List.not_mem_nil, or_false] at listed
    rcases listed with rfl | rfl | rfl
    · exact plain d member v own inside
    · exact feed inside
    · exact line inside
  rw [documentedText, texts]
  exact takes_arguments formed (List.forall₂_map_right_iff.mpr agree) before rest

theorem enclosed_of_balanced (accepted : ∀ p ∈ ps, ∃ t, parse p.type = .ok t)
    (names : ∀ type, ∀ name ∈ table.names type, Encloses name)
    (plain : ∀ d ∈ ds, ∀ v ∈ d.value, '<' ∉ v ∧ '>' ∉ v) : ∀ d ∈ ds, IsEnclosed 0 d.text := by
  induction agree with
  | nil => simp
  | cons first others ih =>
    obtain ⟨⟨t, parsed⟩, rest⟩ := List.forall_mem_cons.mp accepted
    obtain ⟨own, more⟩ := List.forall_mem_cons.mp balanced
    obtain ⟨single, behind⟩ := List.forall_mem_cons.mp plain
    refine List.forall_mem_cons.mpr ⟨Documented.enclosed_text ?_ own.word ?_, ih more rest behind⟩
    · exact takesEnclosed_pattern names (encloses_of_parse parsed) complete _ _ _
        (matchesAll_iff.mp first)
    · intro v member
      exact (own.value v member).2.2.2.enclosed (single v member).1 (single v member).2

end

theorem exists_of_mem_intercalate {s : Text} {ss : List Text} (member : s ∈ ss) :
    ∃ u v, [',', ' '].intercalate ss = u ++ (s ++ v) := by
  induction ss with
  | nil => cases member
  | cons t ss ih =>
    cases ss with
    | nil =>
      obtain rfl : s = t := List.mem_singleton.mp member
      exact ⟨[], [], by simp⟩
    | cons r ss =>
      rw [List.intercalate_cons_cons]
      rcases List.mem_cons.mp member with rfl | other
      · exact ⟨[], [',', ' '] ++ [',', ' '].intercalate (r :: ss), by simp⟩
      · obtain ⟨u, v, eq⟩ := ih other
        exact ⟨t ++ [',', ' '] ++ u, v, by rw [eq]; simp⟩

theorem exists_of_value {ds : List Documented} {d : Documented} (member : d ∈ ds) {v : Text}
    (own : v ∈ d.value) : ∃ front back, documentedText ds = front ++ (v ++ back) := by
  have listed : d.text ∈ ds.map Documented.text := List.mem_map_of_mem member
  obtain ⟨front, back, eq⟩ := exists_of_mem_intercalate listed
  have text : d.text = d.named.text ++ " = ".toList ++ v := by
    rw [Documented.text, Option.mem_def.mp own, Listed.text, List.append_assoc]
  refine ⟨front ++ (d.named.text ++ " = ".toList), back, ?_⟩
  rw [documentedText, eq, text]
  simp

/-- A list in which a parenthesis closes behind a comma, without an equals sign between them, is not
matched. -/
theorem not_matches_of_comma {table : AliasTable} (words : table.OfWords) {complete : Bool}
    {f : Function} (accepted : ∀ p ∈ f.callParameters, ∃ t, parse p.type = .ok t)
    {x y z : Text} (free : '=' ∉ y) :
    (declarator table complete f).matchesAll
      (f.documentedName ++ '(' :: (x ++ ',' :: (y ++ ')' :: z) ++ [')'])) = false := by
  by_contra matched
  have closes := closesBehindEquals_of_declarator words accepted (eq_true_of_ne_false matched)
  obtain ⟨u, v, eq, none⟩ := closes (x ++ ',' :: y) z (by simp)
  rcases List.append_eq_append_iff.mp eq with ⟨t, rfl, rest⟩ | ⟨t, rfl, rest⟩
  · cases t with
    | nil => cases rest
    | cons c t =>
      obtain ⟨-, rfl⟩ := List.cons.inj rest
      exact free (by simp)
  · cases t with
    | nil => cases rest
    | cons c t =>
      obtain ⟨-, rfl⟩ := List.cons.inj rest
      exact none (by simp)

/-- A list with balanced default values is matched if they have no commas. It is not matched if one
of them has a comma and no equals sign. Without angle brackets in default values, each parameter is
a piece of the list in either case. -/
theorem declarator_balancedDefaults {table : AliasTable} {complete : Bool} {f : Function}
    (accepted : ∀ p ∈ f.callParameters, ∃ t, parse p.type = .ok t) {ds : List Documented}
    (balanced : ∀ d ∈ ds, IsBalanced d)
    (agree : List.Forall₂ (fun p d =>
      (PrintedType.pattern p.type table complete).matchesAll d.named.type) f.callParameters ds) :
    let text := f.documentedName ++ '(' :: (documentedText ds ++ [')'])
    ((∀ d ∈ ds, ∀ v ∈ d.value, ',' ∉ v) → (declarator table complete f).matchesAll text) ∧
      (table.OfWords → (∃ d ∈ ds, ∃ v ∈ d.value, ',' ∈ v ∧ '=' ∉ v) →
        (declarator table complete f).matchesAll text = false) ∧
      ((∀ type, ∀ name ∈ table.names type, Encloses name) →
        (∀ d ∈ ds, ∀ v ∈ d.value, '<' ∉ v ∧ '>' ∉ v) → ∀ d rest, ds = d :: rest →
          pieces (documentedText ds) = d.text :: rest.map fun e => ' ' :: e.text) := by
  refine ⟨?_, ?_, ?_⟩
  · intro plain
    exact declarator_matches_of_takes (takes_documentedText balanced agree plain)
  · rintro words ⟨d, member, v, own, comma, free⟩
    obtain ⟨-, -, -, parentheses⟩ := (balanced d member).value v own
    obtain ⟨x, y, z, rfl⟩ := parentheses.exists_closing comma
    obtain ⟨front, back, eq⟩ := exists_of_value member own
    have list : documentedText ds = (front ++ x) ++ ',' :: (y ++ ')' :: (z ++ back)) := by
      rw [eq]
      simp
    rw [list]
    exact not_matches_of_comma words accepted fun inside => free (by simp [inside])
  · rintro names plain d rest rfl
    exact pieces_documentedText (enclosed_of_balanced balanced agree accepted names plain)

theorem declarator_balancedDefaults_call :
    let f := unary "f".toList "int".toList
    let d : Documented := ⟨⟨"int".toList, true, "a".toList⟩, some "max(0)".toList⟩
    (∀ p ∈ f.callParameters, ∃ t, parse p.type = .ok t) ∧ IsBalanced d ∧
      List.Forall₂ (fun p d =>
        (PrintedType.pattern p.type .empty true).matchesAll d.named.type) f.callParameters [d] ∧
      (declarator .empty true f).matchesAll "f(int a = max(0))".toList := by
  intro f d
  have callParameters : f.callParameters = [⟨"_0".toList, "int".toList, .regular⟩] := rfl
  have accepted : ∀ p ∈ f.callParameters, ∃ t, parse p.type = .ok t := by
    rw [callParameters]
    simpa using ⟨_, parse_int⟩
  have balanced : IsBalanced d := by
    refine ⟨rfl, by decide, ?_⟩
    rintro _ ⟨⟩
    decide
  have agree : List.Forall₂ (fun p (d : Documented) =>
      (PrintedType.pattern p.type .empty true).matchesAll d.named.type) f.callParameters [d] := by
    refine .cons ?_ .nil
    rw [PrintedType.pattern, read_int]
    decide
  refine ⟨accepted, balanced, agree, ?_⟩
  refine (declarator_balancedDefaults accepted ?_ agree).1 ?_
  · simpa using balanced
  · simp only [List.forall_mem_singleton]
    rintro _ ⟨⟩
    decide

def pointTree : Tree :=
  .mk ⟨false, none, false, 0, "QPoint".toList⟩ (.base (.plain ["QPoint".toList]))

theorem parse_point : parse "QPoint".toList = .ok pointTree := by
  rw [parse, tokens_of_word (by decide) (by decide)]
  rfl

theorem not_declarator_balancedDefaults :
    let f := unary "f".toList "QPoint".toList
    let d : Documented := ⟨⟨"QPoint".toList, true, "p".toList⟩, some "QPoint(0, 0)".toList⟩
    (∀ p ∈ f.callParameters, ∃ t, parse p.type = .ok t) ∧ IsBalanced d ∧
      (PrintedType.pattern "QPoint".toList .empty true).matchesAll "QPoint".toList ∧
      f.documentedName ++ '(' :: (documentedText [d] ++ [')']) =
        "f(QPoint p = QPoint(0, 0))".toList ∧
      pieces (documentedText [d]) = [d.text] ∧
      (declarator .empty true f).matchesAll "f(QPoint p = QPoint(0, 0))".toList = false := by
  intro f d
  have callParameters : f.callParameters = [⟨"_0".toList, "QPoint".toList, .regular⟩] := rfl
  have accepted : ∀ p ∈ f.callParameters, ∃ t, parse p.type = .ok t := by
    rw [callParameters]
    simpa using ⟨_, parse_point⟩
  have balanced : IsBalanced d := by
    refine ⟨rfl, by decide, ?_⟩
    rintro _ ⟨⟩
    decide
  have own : (PrintedType.pattern "QPoint".toList .empty true).matchesAll "QPoint".toList := by
    rw [pattern_of_parse parse_point]
    decide
  have words : AliasTable.empty.OfWords := fun _ _ none => nomatch none
  have free : '=' ∉ " 0".toList := by decide
  have text : "f(QPoint p = QPoint(0, 0))".toList = f.documentedName ++
      '(' :: ("QPoint p = QPoint(0".toList ++ ',' :: (" 0".toList ++ ')' :: []) ++ [')']) := by
    decide
  refine ⟨accepted, balanced, own, by decide, by decide, ?_⟩
  rw [text]
  exact not_matches_of_comma words accepted free

end Apidoc.Page
