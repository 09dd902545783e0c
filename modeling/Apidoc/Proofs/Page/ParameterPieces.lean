import Apidoc.Proofs.ArgumentList.Pieces
import Apidoc.Proofs.Page.FunctionPage
import Apidoc.Proofs.PrintedType.Enclosed

namespace Apidoc.Page

open ArgumentList Pattern PrintedType Text

/-- Default values close their brackets: behind an equals sign outside of brackets, they are closed
at the next comma. -/
def ClosesDefaults (arguments : Text) : Prop :=
  ∀ i < arguments.length, arguments[i]? = some '=' → bracketDepth (arguments.take i) = 0 →
    bracketDepth ((arguments.drop (i + 1)).takeWhile (· ≠ ',')) = 0

instance (arguments : Text) : Decidable (ClosesDefaults arguments) :=
  inferInstanceAs (Decidable (∀ i < arguments.length, _))

theorem ClosesDefaults.closed {arguments u v rest : Text} (closes : ClosesDefaults arguments)
    (parts : arguments = u ++ '=' :: (v ++ rest)) (level : bracketDepth u = 0) (free : ',' ∉ v)
    (ends : rest = [] ∨ rest.head? = some ',') : bracketDepth v = 0 := by
  have inside : ∀ c ∈ v, decide (c ≠ ',') = true := fun c member =>
    decide_eq_true (ne_of_mem_of_not_mem member free)
  have outside : ∀ c, rest.head? = some c → decide (c ≠ ',') = false := by
    intro c head
    rcases ends with rfl | comma
    · cases head
    · rw [comma] at head
      cases head
      rfl
  have value : (v ++ rest).takeWhile (· ≠ ',') = v := (span_append inside outside).1
  have front : arguments.take u.length = u := by rw [parts, List.take_left]
  have back : arguments.drop (u.length + 1) = v ++ rest := by
    rw [parts, List.drop_length_add_append]
    rfl
  have closed := closes u.length (by simp [parts]) (by simp [parts]) (by rw [front, level])
  rwa [back, value] at closed

/-- The pattern of a parameter takes the piece, up to white space in front. -/
def Documents (table : AliasTable) (complete : Bool) (p : Parameter) (piece : Text) : Prop :=
  ∃ gap w before rest, piece = gap ++ w ∧ (∀ c ∈ gap, isBlank c) ∧
    (parameterPattern table complete p).Takes before w rest

theorem IsClear.unmarked {w : Text} (clear : IsClear w) : IsUnmarked w := by
  have outside : ∀ c ∈ listMarks, isBlank c = false ∧ isWord c = false := by decide
  exact fun c mark => clear.not_mem (outside c mark).1 (outside c mark).2

section

variable {table : AliasTable} (names : ∀ type, ∀ name ∈ table.names type, Encloses name)
  {complete : Bool} {arguments : Text} (closes : ClosesDefaults arguments)
include names closes

theorem enclosed_of_parameter {p : Parameter} (encloses : Encloses p.type) {before : Option Char}
    {front gap w tail rest : Text} (taken : (parameterPattern table complete p).Takes before w rest)
    (parts : arguments = front ++ (gap ++ w ++ tail)) (level : bracketDepth front = 0)
    (blank : ∀ c ∈ gap, isBlank c) (ends : tail = [] ∨ tail.head? = some ',') :
    IsEnclosed 0 (gap ++ w) := by
  obtain ⟨t, n, rfl, type, name⟩ := taken
  obtain ⟨u, v, rfl, clear, free, value⟩ := tail_of_takes name
  have typed := takesEnclosed_pattern names encloses complete _ _ _ type
  have enclosed := ((unmarked_of_blank blank).enclosed 0).append
    (typed.append (clear.unmarked.enclosed 0))
  have default : IsEnclosed 0 v := by
    cases v with
    | nil => exact IsUnmarked.enclosed (fun _ _ => List.not_mem_nil) 0
    | cons c v =>
      rcases value with none | equals
      · cases none
      · cases equals
        have split : arguments = (front ++ (gap ++ (t ++ u))) ++ '=' :: (v ++ tail) := by
          simp [parts]
        have outside : bracketDepth (front ++ (gap ++ (t ++ u))) = 0 := by
          rw [bracketDepth_append, level, enclosed.closed]
          rfl
        have closed := closes.closed split outside (List.not_mem_of_not_mem_cons free) ends
        have weight : bracketWeight '=' = 0 := rfl
        exact isEnclosed_of_no_comma (by rw [bracketDepth_cons, weight, closed]; rfl) free 0
  simpa using enclosed.append default

theorem pieces_of_separated {p : Parameter} {ps : List Parameter}
    (encloses : ∀ q ∈ p :: ps, Encloses q.type) {before : Option Char}
    {front gap w tail rest : Text}
    (taken : (separated (all [comma, spaces])
      ((p :: ps).map (parameterPattern table complete))).Takes before w rest)
    (parts : arguments = front ++ (gap ++ w ++ tail)) (level : bracketDepth front = 0)
    (blank : ∀ c ∈ gap, isBlank c) (ends : tail = [] ∨ tail.head? = some ',') :
    ∃ own more, pieces (gap ++ w ++ tail) = own ++ more ∧
      List.Forall₂ (Documents table complete) (p :: ps) own := by
  induction ps generalizing p before front gap w with
  | nil =>
    have enclosed :=
      enclosed_of_parameter names closes (encloses p (.head _)) taken parts level blank ends
    have own : Documents table complete p (gap ++ w) := ⟨gap, w, before, rest, rfl, blank, taken⟩
    cases tail with
    | nil =>
      exact ⟨[gap ++ w], [], by rw [List.append_nil, pieces_of_enclosed enclosed]; rfl,
        .cons own .nil⟩
    | cons c tail =>
      rcases ends with none | comma
      · cases none
      · cases comma
        exact ⟨[gap ++ w], pieces tail, pieces_append_comma enclosed tail, .cons own .nil⟩
  | cons q ps ih =>
    obtain ⟨d, _, rfl, first, _, b, rfl, mark, others⟩ := taken
    obtain ⟨space, rfl, free⟩ := takes_comma.mp mark
    have split : arguments = front ++ (gap ++ d ++ ',' :: (space ++ b ++ tail)) := by
      simp [parts]
    have enclosed :=
      enclosed_of_parameter names closes (encloses p (.head _)) first split level blank (.inr rfl)
    have later : arguments = (front ++ (gap ++ d ++ [','])) ++ (space ++ b ++ tail) := by
      simp [split]
    have outside : bracketDepth (front ++ (gap ++ d ++ [','])) = 0 := by
      rw [bracketDepth_append, bracketDepth_append, level, enclosed.closed]
      rfl
    obtain ⟨own, more, eq, documented⟩ :=
      ih (fun r member => encloses r (.tail _ member)) others later outside free
    refine ⟨(gap ++ d) :: own, more, ?_, .cons ⟨gap, d, _, _, rfl, blank, first⟩ documented⟩
    have whole : gap ++ (d ++ (',' :: space ++ b)) ++ tail =
        gap ++ d ++ ',' :: (space ++ b ++ tail) := by simp
    rw [whole, pieces_append_comma enclosed, eq]
    rfl

/-- The first pieces of a list are those of the parameters of a call; more may follow. -/
theorem pieces_of_parameters {ps : List Parameter} (encloses : ∀ p ∈ ps, Encloses p.type)
    {before : Option Char} {rest : Text}
    (taken : (parametersPattern table complete ps).Takes before arguments rest) :
    ∃ own more, pieces arguments = own ++ more ∧ List.Forall₂ (Documents table complete) ps own := by
  cases ps with
  | nil => exact ⟨[], pieces arguments, rfl, .nil⟩
  | cons p ps =>
    obtain ⟨w, tail, parts, listed, extra⟩ := taken
    have ends : tail = [] ∨ tail.head? = some ',' := by
      rcases takes_group_star.mp extra with none | ⟨_, _, rfl, ⟨_, _, rfl, rfl, -⟩, -⟩
      · exact .inl none
      · exact .inr rfl
    have split : arguments = [] ++ ([] ++ w ++ tail) := parts
    obtain ⟨own, more, eq, documented⟩ :=
      pieces_of_separated names closes encloses listed split rfl (by simp) ends
    exact ⟨own, more, by rw [split]; exact eq, documented⟩

end

theorem takes_of_findFunction? {layout : Layout} {table : AliasTable} {complete : Bool}
    {f : Function} {page : Text} {text : FunctionText}
    (found : findFunction? layout table complete f page = .ok (some text)) :
    ∃ before rest, (parametersPattern table complete f.callParameters).Takes before
      text.arguments rest := by
  obtain ⟨-, m, matched, rfl⟩ := findFunction?_eq_some found
  obtain ⟨u, v, d, -, first, rfl⟩ := searchFrom?_eq_some matched
  obtain ⟨c₁, started, member⟩ := List.mem_flatMap.mp (List.mem_of_mem_head? first)
  obtain ⟨c₂, returned, member⟩ := List.mem_flatMap.mp member
  obtain ⟨c₃, qualified, member⟩ := List.mem_flatMap.mp member
  obtain ⟨c₄, declared, member⟩ := List.mem_flatMap.mp member
  obtain ⟨c₅, headed, member⟩ := List.mem_flatMap.mp member
  obtain ⟨c₆, described, ended⟩ := List.mem_flatMap.mp member
  obtain ⟨-, -, -, kept₁⟩ := mem_ends rfl started
  obtain ⟨-, -, -, kept₂⟩ := mem_ends rfl returned
  obtain ⟨-, -, -, kept₃⟩ := mem_ends rfl qualified
  obtain ⟨-, -, a, -, -, -, -, -, -, -, ⟨before, rest, taken⟩, r, kept₄⟩ :=
    mem_ends_declarator declared
  obtain ⟨-, -, -, kept₅⟩ := mem_ends rfl headed
  obtain ⟨w, -, -, kept₆⟩ := mem_ends_field rfl described
  obtain ⟨-, -, -, kept₇⟩ := mem_ends rfl ended
  have captures : d.captures = [⟨.docs, c₅.rest, w.length⟩, ⟨.arguments, a ++ r, a.length⟩] := by
    rw [kept₇, kept₆, kept₅, kept₄, kept₃, kept₂, kept₁]
  have arguments : (⟨0 + u.length, d⟩ : Match).get .arguments = a := by
    simp [Match.get, Match.get?, captures, Capture.text]
  exact ⟨before, rest, arguments ▸ taken⟩

end Apidoc.Page
