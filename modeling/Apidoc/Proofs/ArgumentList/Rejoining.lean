import Apidoc.Proofs.ArgumentList.Pieces

/-!
Lists that are cut and joined again. The pieces of a list are the only texts that give the list with
commas between them and that no comma of theirs cuts, where each but the last closes as many brackets
as it opens.
-/
namespace Apidoc.ArgumentList

open Text

/-- The texts give the list with commas between them. All but the last close as many brackets as
they open, and in front of a comma of one of them it is not so. -/
structure IsCut (s : Text) (ss : List Text) : Prop where
  some : ss ≠ []
  joined : [','].intercalate ss = s
  level : ∀ t ∈ ss.dropLast, openings t = closings t
  inner : ∀ t ∈ ss, ∀ u v, t = u ++ ',' :: v → openings u ≠ closings u

theorem isUncut_iff {s : Text} :
    IsUncut 0 s ↔ ∀ u v, s = u ++ ',' :: v → openings u ≠ closings u := by
  simp only [isUncut_zero_iff, ne_eq, bracketDepth_eq_zero_iff]

theorem exists_first_cut (depth : Int) (s : Text) : IsUncut depth s ∨
    ∃ u v, s = u ++ ',' :: v ∧ depth + bracketDepth u = 0 ∧ IsUncut depth u := by
  induction s generalizing depth with
  | nil => exact .inl (by simp [IsUncut])
  | cons c s ih =>
    by_cases here : c = ',' ∧ depth = 0
    · obtain ⟨rfl, rfl⟩ := here
      exact .inr ⟨[], s, rfl, rfl, by simp [IsUncut]⟩
    · rcases ih (depth + bracketWeight c) with uncut | ⟨u, v, rfl, level, uncut⟩
      · exact .inl (isUncut_cons.mpr ⟨here, uncut⟩)
      · refine .inr ⟨c :: u, v, rfl, ?_, isUncut_cons.mpr ⟨here, uncut⟩⟩
        rw [bracketDepth_cons, ← Int.add_assoc, level]

namespace IsCut

theorem single {s : Text} (uncut : IsUncut 0 s) : IsCut s [s] where
  some := List.cons_ne_nil _ _
  joined := List.intercalate_singleton
  level := by simp
  inner := List.forall_mem_singleton.mpr (isUncut_iff.mp uncut)

theorem cons {u v : Text} {ss : List Text} (level : bracketDepth u = 0) (uncut : IsUncut 0 u)
    (cut : IsCut v ss) : IsCut (u ++ ',' :: v) (u :: ss) where
  some := List.cons_ne_nil _ _
  joined := by
    rw [List.intercalate_cons_of_ne_nil cut.some, cut.joined, List.append_assoc]
    rfl
  level := by
    rw [List.dropLast_cons_of_ne_nil cut.some, List.forall_mem_cons]
    exact ⟨bracketDepth_eq_zero_iff.mp level, cut.level⟩
  inner := List.forall_mem_cons.mpr ⟨isUncut_iff.mp uncut, cut.inner⟩

theorem tail {s t : Text} {ss : List Text} (cut : IsCut s (t :: ss)) (some : ss ≠ []) :
    IsCut ([','].intercalate ss) ss where
  some := some
  joined := rfl
  level u member := by
    refine cut.level u ?_
    rw [List.dropLast_cons_of_ne_nil some]
    exact .tail t member
  inner u member := cut.inner u (.tail t member)

theorem pieces_eq {s : Text} {ss : List Text} (cut : IsCut s ss) : pieces s = ss := by
  induction ss generalizing s with
  | nil => exact absurd rfl cut.some
  | cons t ss ih =>
    have uncut : IsUncut 0 t := isUncut_iff.mpr (cut.inner t (.head ss))
    cases ss with
    | nil =>
      obtain rfl : t = s := List.intercalate_singleton.symm.trans cut.joined
      exact pieces_of_uncut uncut
    | cons t' ss =>
      have others : t' :: ss ≠ [] := List.cons_ne_nil _ _
      have level : bracketDepth t = 0 := bracketDepth_eq_zero_iff.mpr (cut.level t (.head _))
      have whole : s = t ++ ',' :: [','].intercalate (t' :: ss) := by
        rw [← cut.joined, List.intercalate_cons_of_ne_nil others, List.append_assoc]
        rfl
      rw [whole, pieces_comma level uncut, ih (cut.tail others)]

end IsCut

theorem isCut_pieces (s : Text) : IsCut s (pieces s) := by
  rcases exists_first_cut 0 s with uncut | ⟨u, v, eq, level, uncut⟩
  · rw [pieces_of_uncut uncut]
    exact .single uncut
  · have shorter : v.length < s.length := by
      rw [eq, List.length_append, List.length_cons]
      omega
    rw [Int.zero_add] at level
    rw [eq, pieces_comma level uncut]
    exact .cons level uncut (isCut_pieces v)
termination_by s.length

/-- A list is its pieces with commas between them, and no other texts that are cut like these give
it. So texts that are cut like these are the pieces of the list that they give. -/
theorem pieces_eq_iff {s : Text} {ss : List Text} : pieces s = ss ↔ IsCut s ss :=
  ⟨fun eq => eq ▸ isCut_pieces s, IsCut.pieces_eq⟩

/-- Brackets that close before they open count as well. -/
example : pieces "a>,b<,c)(,(d,e)".toList = ["a>,b<", "c)(", "(d,e)"].map String.toList := by
  decide

end Apidoc.ArgumentList
