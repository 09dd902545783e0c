import Apidoc.Proofs.Pattern.Takes
import Mathlib.Data.List.Basic

namespace Apidoc

theorem Times.allows_one {n : Nat} : Times.one.Allows n ↔ n = 1 := by
  constructor
  · intro allowed
    exact Nat.le_antisymm (allowed.2 0 rfl) allowed.1
  · intro one
    subst one
    exact ⟨Nat.le_refl 1, fun _ _ => Nat.le_add_right ..⟩

theorem Times.allows_optional {n : Nat} : Times.optional.Allows n ↔ n = 0 ∨ n = 1 := by
  rw [← Nat.le_one_iff_eq_zero_or_eq_one]
  constructor
  · intro allowed
    simpa [Times.low] using allowed.2 1 rfl
  · intro few
    refine ⟨Nat.zero_le n, ?_⟩
    intro extra eq
    cases eq
    simpa [Times.low] using few

theorem Times.allows_star (n : Nat) : Times.star.Allows n :=
  ⟨Nat.zero_le n, fun _ none => nomatch none⟩

theorem Times.allows_lazyStar (n : Nat) : Times.lazyStar.Allows n :=
  ⟨Nat.zero_le n, fun _ none => nomatch none⟩

theorem Times.allows_plus {n : Nat} : Times.plus.Allows n ↔ 0 < n :=
  and_iff_left fun _ none => nomatch none

theorem Times.allows_lazyPlus {n : Nat} : Times.lazyPlus.Allows n ↔ 0 < n :=
  and_iff_left fun _ none => nomatch none

theorem Times.allows_atLeast {k n : Nat} : (Times.atLeast k).Allows n ↔ k ≤ n :=
  and_iff_left fun _ none => nomatch none

theorem Times.allows_between {low high n : Nat} (valid : low ≤ high) :
    (Times.between low high).Allows n ↔ low ≤ n ∧ n ≤ high := by
  have top : low + (high - low) = high := Nat.add_sub_of_le valid
  constructor
  · intro allowed
    have most := allowed.2 (high - low) rfl
    exact ⟨allowed.1, Nat.le_trans most (Nat.le_of_eq top)⟩
  · intro bounds
    refine ⟨bounds.1, ?_⟩
    intro extra eq
    cases eq
    exact Nat.le_trans bounds.2 (Nat.le_of_eq top.symm)

theorem Times.allows_exactly {k n : Nat} : (Times.exactly k).Allows n ↔ n = k := by
  constructor
  · intro allowed
    have most := allowed.2 (k - k) rfl
    exact Nat.le_antisymm (by simpa [Times.low] using most) allowed.1
  · intro same
    subst same
    exact ⟨Nat.le_refl n, fun _ _ => Nat.le_add_right ..⟩

namespace Pattern

variable {p : Pattern} {cls : CharClass} {before : Option Char} {w rest : Text}

theorem takes_chars_one : (chars cls .one).Takes before w rest ↔ ∃ c, w = [c] ∧ cls.accepts c := by
  rw [Takes, Times.allows_one, List.length_eq_one_iff]
  constructor
  · intro taken
    obtain ⟨all, c, rfl⟩ := taken
    exact ⟨c, rfl, all c (.head _)⟩
  · intro taken
    obtain ⟨c, rfl, accepted⟩ := taken
    exact ⟨by simpa using accepted, c, rfl⟩

theorem takes_chars_star : (chars cls .star).Takes before w rest ↔ ∀ c ∈ w, cls.accepts c :=
  and_iff_left (Times.allows_star w.length)

theorem takes_chars_lazyStar :
    (chars cls .lazyStar).Takes before w rest ↔ ∀ c ∈ w, cls.accepts c :=
  and_iff_left (Times.allows_lazyStar w.length)

theorem takes_chars_plus :
    (chars cls .plus).Takes before w rest ↔ w ≠ [] ∧ ∀ c ∈ w, cls.accepts c := by
  rw [Takes, Times.allows_plus, List.length_pos_iff]
  exact and_comm

theorem takes_group_one : (group p .one).Takes before w rest ↔ p.Takes before w rest := by
  simp only [Takes, Times.allows_one, exists_eq_left, TakesTimes]
  constructor
  · intro taken
    obtain ⟨u, v, rfl, body, rfl⟩ := taken
    simpa using body
  · intro body
    exact ⟨w, [], (List.append_nil w).symm, body, rfl⟩

theorem takes_group_optional :
    (group p .optional).Takes before w rest ↔ w = [] ∨ p.Takes before w rest := by
  constructor
  · intro taken
    obtain ⟨n, allowed, taken⟩ := taken
    rcases Times.allows_optional.mp allowed with rfl | rfl
    · exact .inl taken
    · exact .inr (takes_group_one.mp ⟨1, Times.allows_one.mpr rfl, taken⟩)
  · intro taken
    rcases taken with none | body
    · exact ⟨0, Times.allows_optional.mpr (.inl rfl), none⟩
    · obtain ⟨n, one, taken⟩ := takes_group_one.mpr body
      exact ⟨n, Times.allows_optional.mpr (.inr (Times.allows_one.mp one)), taken⟩

theorem takes_group_star : (group p .star).Takes before w rest ↔
    w = [] ∨ ∃ u v, w = u ++ v ∧ p.Takes before u (v ++ rest) ∧
      (group p .star).Takes (behind before u) v rest := by
  constructor
  · intro taken
    obtain ⟨n, -, taken⟩ := taken
    cases n with
    | zero => exact .inl taken
    | succ n =>
      obtain ⟨u, v, eq, first, others⟩ := taken
      exact .inr ⟨u, v, eq, first, n, Times.allows_star n, others⟩
  · intro taken
    rcases taken with none | ⟨u, v, eq, first, n, -, others⟩
    · exact ⟨0, Times.allows_star 0, none⟩
    · exact ⟨n + 1, Times.allows_star (n + 1), u, v, eq, first, others⟩

theorem takes_all_cons {ps : List Pattern} : (all (p :: ps)).Takes before w rest ↔
    ∃ u v, w = u ++ v ∧ p.Takes before u (v ++ rest) ∧ (all ps).Takes (behind before u) v rest := by
  cases ps with
  | nil =>
    constructor
    · intro taken
      exact ⟨w, [], (List.append_nil w).symm, taken, rfl⟩
    · intro taken
      obtain ⟨u, v, rfl, first, rfl⟩ := taken
      simpa [all] using first
  | cons q ps => exact Iff.rfl

theorem takes_oneOf {ps : List Pattern} (some : ps ≠ []) :
    (oneOf ps).Takes before w rest ↔ ∃ p ∈ ps, p.Takes before w rest := by
  induction ps with
  | nil => exact absurd rfl some
  | cons p ps ih =>
    cases ps with
    | nil => simp [oneOf]
    | cons q ps =>
      rw [List.exists_mem_cons_iff, ← ih (List.cons_ne_nil q ps)]
      exact Iff.rfl

end Pattern

end Apidoc
