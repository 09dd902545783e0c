import Apidoc.Text.Basic
import Mathlib.Data.List.Infix

namespace Apidoc.Text

/-- Replacing `old` by `new` makes the first text the second. -/
inductive Replaced (old new : Text) : Text → Text → Prop
  | none {s : Text} : ¬ old <:+: s → Replaced old new s s
  | first {u s t : Text} : (∀ x y, u = x ++ y → y ≠ [] → ¬ old <+: y ++ (old ++ s)) →
      Replaced old new s t → Replaced old new (u ++ (old ++ s)) (u ++ (new ++ t))

variable {old new s t : Text} {c : Char}

theorem replaceFrom_other (other : ¬ old <+: c :: s) :
    replaceFrom old new 0 (c :: s) = c :: replaceFrom old new 0 s := by
  have starts : ¬ old.isPrefixOf (c :: s) := fun starts =>
    other (List.isPrefixOf_iff_prefix.mp starts)
  rw [replaceFrom, if_neg starts]

theorem replaceFrom_skip (w s : Text) :
    replaceFrom old new w.length (w ++ s) = replaceFrom old new 0 s := by
  induction w with
  | nil => rfl
  | cons c w ih => exact ih

theorem replaceFrom_occurrence (some : old ≠ []) (s : Text) :
    replaceFrom old new 0 (old ++ s) = new ++ replaceFrom old new 0 s := by
  obtain ⟨c, rest, rfl⟩ := List.exists_cons_of_ne_nil some
  have starts : (c :: rest).isPrefixOf (c :: (rest ++ s)) :=
    List.isPrefixOf_iff_prefix.mpr (List.prefix_append (c :: rest) s)
  rw [List.cons_append, replaceFrom, if_pos starts]
  exact congrArg (new ++ ·) (replaceFrom_skip rest s)

theorem Replaced.cons (other : ¬ old <+: c :: s) (replaced : Replaced old new s t) :
    Replaced old new (c :: s) (c :: t) := by
  cases replaced with
  | none absent =>
    refine .none fun inside => ?_
    exact (List.infix_cons_iff.mp inside).elim other absent
  | @first u s t earlier rest =>
    refine .first (u := c :: u) ?_ rest
    intro x y split some
    cases x with
    | nil =>
      obtain rfl : c :: u = y := split
      exact other
    | cons d x => exact earlier x y (List.cons.inj split).2 some

theorem Replaced.eq_replaceFrom (some : old ≠ []) (replaced : Replaced old new s t) :
    t = replaceFrom old new 0 s := by
  induction replaced with
  | @none s absent =>
    induction s with
    | nil => rfl
    | cons c s ih =>
      rw [List.infix_cons_iff, not_or] at absent
      rw [replaceFrom_other absent.1, ← ih absent.2]
  | @first u s t earlier _ ih =>
    induction u with
    | nil =>
      rw [List.nil_append, List.nil_append, replaceFrom_occurrence some, ← ih]
    | cons c u more =>
      have here : ¬ old <+: c :: (u ++ (old ++ s)) :=
        earlier [] (c :: u) rfl (List.cons_ne_nil c u)
      have later := more fun x y split => earlier (c :: x) y (congrArg (c :: ·) split)
      rw [List.cons_append, List.cons_append, replaceFrom_other here, ← later]

theorem replaced_replaceFrom (some : old ≠ []) (s : Text) :
    Replaced old new s (replaceFrom old new 0 s) := by
  -- an occurrence is passed as a whole, so the induction is on the length
  induction length : s.length using Nat.strong_induction_on generalizing s with
  | _ n ih =>
    cases s with
    | nil => exact .none fun inside => some (List.infix_nil.mp inside)
    | cons c s =>
      by_cases starts : old <+: c :: s
      · obtain ⟨rest, split⟩ := starts
        have shorter : rest.length < n := by
          rw [← length, ← split, List.length_append]
          exact Nat.lt_add_of_pos_left (List.length_pos_iff.mpr some)
        rw [← split, replaceFrom_occurrence some]
        refine .first (u := []) ?_ (ih _ shorter rest rfl)
        intro x y none something
        exact absurd (List.append_eq_nil_iff.mp none.symm).2 something
      · rw [replaceFrom_other starts]
        exact .cons starts (ih s.length (by rw [← length]; exact Nat.lt_succ_self _) s rfl)

theorem replaced_iff (some : old ≠ []) : Replaced old new s t ↔ t = replaceAll old new s := by
  rw [replaceAll, if_neg (by simpa using some)]
  constructor
  · exact Replaced.eq_replaceFrom some
  · rintro rfl
    exact replaced_replaceFrom some s

theorem replaceAll_of_not_mem (absent : c ∉ s) (new : Text) : replaceAll [c] new s = s := by
  have none : ¬ [c] <:+: s := by rwa [List.singleton_infix_iff]
  exact ((replaced_iff (List.cons_ne_nil c [])).mp (.none none)).symm

end Apidoc.Text
