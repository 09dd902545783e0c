import Apidoc.ArgumentList
import Apidoc.Proofs.Text.Brackets
import Apidoc.Proofs.Text.Words

namespace Apidoc.ArgumentList

open Text

theorem piecesFrom_cons (depth : Int) (c : Char) (s : Text) :
    piecesFrom depth (c :: s) =
      if c = ',' ∧ depth = 0 then [] :: piecesFrom depth s
      else consHead c (piecesFrom (depth + bracketWeight c) s) := by
  rw [piecesFrom, bracketWeight]
  split
  · rename_i opening
    have other : c ≠ ',' := by rcases opening with rfl | rfl <;> decide
    rw [if_neg fun comma => other comma.1]
  · split
    · rename_i closing
      have other : c ≠ ',' := by rcases closing with rfl | rfl <;> decide
      rw [if_neg fun comma => other comma.1]
      rfl
    · rw [Int.add_zero]

theorem piecesFrom_ne_nil (depth : Int) (s : Text) : piecesFrom depth s ≠ [] := by
  cases s with
  | nil => exact List.cons_ne_nil _ _
  | cons c s =>
    rw [piecesFrom_cons]
    split
    · exact List.cons_ne_nil _ _
    · exact consHead_ne_nil c _

/-- No comma of the text cuts a list that comes to it at this depth. -/
def IsUncut (depth : Int) (s : Text) : Prop :=
  ∀ u v, s = u ++ ',' :: v → depth + bracketDepth u ≠ 0

theorem isUncut_zero_iff {s : Text} :
    IsUncut 0 s ↔ ∀ u v, s = u ++ ',' :: v → bracketDepth u ≠ 0 := by
  simp only [IsUncut, Int.zero_add]

theorem isUncut_of_enclosed {s : Text} (enclosed : IsEnclosed 0 s) : IsUncut 0 s := by
  intro u v eq
  have inside := enclosed.inside u v eq
  omega

theorem isUncut_cons {depth : Int} {c : Char} {s : Text} :
    IsUncut depth (c :: s) ↔ ¬ (c = ',' ∧ depth = 0) ∧ IsUncut (depth + bracketWeight c) s := by
  constructor
  · intro uncut
    refine ⟨?_, ?_⟩
    · rintro ⟨rfl, rfl⟩
      exact uncut [] s rfl rfl
    · intro u v eq
      have later := uncut (c :: u) v (congrArg (c :: ·) eq)
      rwa [bracketDepth_cons, ← Int.add_assoc] at later
  · rintro ⟨whole, uncut⟩ u v eq
    cases u with
    | nil =>
      obtain ⟨rfl, -⟩ := List.cons.inj eq
      simpa using whole
    | cons d u =>
      obtain ⟨rfl, rest⟩ := List.cons.inj eq
      have later := uncut u v rest
      rwa [bracketDepth_cons, ← Int.add_assoc]

theorem piecesFrom_append {depth : Int} {u : Text} (uncut : IsUncut depth u) (v : Text) :
    piecesFrom depth (u ++ v) =
      (piecesFrom (depth + bracketDepth u) v).modifyHead (u ++ ·) := by
  induction u generalizing depth with
  | nil =>
    rw [bracketDepth_nil, Int.add_zero, List.nil_append]
    cases piecesFrom depth v <;> rfl
  | cons c u ih =>
    obtain ⟨whole, rest⟩ := isUncut_cons.mp uncut
    rw [List.cons_append, piecesFrom_cons, if_neg whole, ih rest, bracketDepth_cons,
      ← Int.add_assoc]
    cases pieces : piecesFrom (depth + bracketWeight c + bracketDepth u) v with
    | nil => exact absurd pieces (piecesFrom_ne_nil _ v)
    | cons w ws => rfl

theorem pieces_of_uncut {u : Text} (uncut : IsUncut 0 u) : pieces u = [u] := by
  have whole := piecesFrom_append uncut []
  rw [List.append_nil] at whole
  rw [pieces, whole]
  exact congrArg (fun w : Text => [w]) (List.append_nil u)

theorem pieces_append_of_level {u : Text} (level : bracketDepth u = 0) (uncut : IsUncut 0 u)
    (v : Text) : pieces (u ++ v) = (pieces v).modifyHead (u ++ ·) := by
  rw [pieces, piecesFrom_append uncut, level]
  rfl

theorem pieces_comma {u : Text} (level : bracketDepth u = 0) (uncut : IsUncut 0 u) (v : Text) :
    pieces (u ++ ',' :: v) = u :: pieces v := by
  have cut : pieces (',' :: v) = [] :: pieces v := rfl
  rw [pieces_append_of_level level uncut, cut, List.modifyHead_cons, List.append_nil]

theorem pieces_of_enclosed {u : Text} (enclosed : IsEnclosed 0 u) : pieces u = [u] :=
  pieces_of_uncut (isUncut_of_enclosed enclosed)

theorem pieces_append {u : Text} (enclosed : IsEnclosed 0 u) (v : Text) :
    pieces (u ++ v) = (pieces v).modifyHead (u ++ ·) :=
  pieces_append_of_level enclosed.closed (isUncut_of_enclosed enclosed) v

theorem pieces_append_comma {u : Text} (enclosed : IsEnclosed 0 u) (v : Text) :
    pieces (u ++ ',' :: v) = u :: pieces v :=
  pieces_comma enclosed.closed (isUncut_of_enclosed enclosed) v

theorem pieces_intercalate {s : Text} {ss : List Text} (enclosed : ∀ t ∈ s :: ss, IsEnclosed 0 t) :
    pieces ([',', ' '].intercalate (s :: ss)) = s :: ss.map (' ' :: ·) := by
  induction ss generalizing s with
  | nil =>
    rw [List.intercalate_singleton]
    exact pieces_of_enclosed (enclosed s (.head _))
  | cons t ss ih =>
    have space : IsUnmarked [' '] := isUnmarked_of_forall (p := isBlank) (by decide) (by decide)
    have whole : [',', ' '].intercalate (s :: t :: ss) =
        s ++ ',' :: ([' '] ++ [',', ' '].intercalate (t :: ss)) := by
      rw [List.intercalate_cons_cons]
      simp
    rw [whole, pieces_append_comma (enclosed s (.head _)), pieces_append (space.enclosed 0),
      ih fun u member => enclosed u (.tail _ member)]
    rfl

end Apidoc.ArgumentList
