import Apidoc.Proofs.Pattern.Parts
import Mathlib.Computability.Language

/-!
Patterns that look at nothing but the text they take. Such a pattern spells a language, and the
languages of its parts make up its own.
-/
namespace Apidoc.Pattern

open Computability

/-- The pattern takes the words of the language, whatever stands around them. -/
def Spells (p : Pattern) (L : Language Char) : Prop :=
  ∀ before w rest, p.Takes before w rest ↔ w ∈ L

variable {p q : Pattern} {L M : Language Char}

theorem Spells.matchesAll_iff (spelled : p.Spells L) {s : Text} : p.matchesAll s ↔ s ∈ L := by
  rw [Pattern.matchesAll_iff]
  exact spelled none s []

theorem spells_empty : empty.Spells 1 := fun _ _ _ => Iff.rfl

theorem spells_fixed (t : Text) : (fixed t).Spells {t} := fun _ _ _ => Iff.rfl

theorem spells_quoted (t : Text) : (quoted t).Spells {t} := fun _ _ _ => Iff.rfl

theorem Spells.seq (first : p.Spells L) (second : q.Spells M) : (p.seq q).Spells (L * M) := by
  intro before w rest
  rw [Language.mem_mul]
  constructor
  · intro taken
    obtain ⟨u, v, rfl, left, right⟩ := taken
    exact ⟨u, (first _ _ _).mp left, v, (second _ _ _).mp right, rfl⟩
  · intro member
    obtain ⟨u, left, v, right, rfl⟩ := member
    exact ⟨u, v, rfl, (first _ _ _).mpr left, (second _ _ _).mpr right⟩

theorem Spells.alt (first : p.Spells L) (second : q.Spells M) : (p.alt q).Spells (L + M) := by
  intro before w rest
  rw [Language.mem_add]
  exact or_congr (first _ _ _) (second _ _ _)

theorem Spells.takesTimes (body : p.Spells L) (n : Nat) (before : Option Char) (w rest : Text) :
    TakesTimes p.Takes n before w rest ↔ w ∈ L ^ n := by
  induction n generalizing before w with
  | zero =>
    rw [pow_zero]
    exact Iff.rfl
  | succ n ih =>
    rw [pow_succ', Language.mem_mul]
    constructor
    · intro taken
      obtain ⟨u, v, rfl, left, right⟩ := taken
      exact ⟨u, (body _ _ _).mp left, v, (ih _ _).mp right, rfl⟩
    · intro member
      obtain ⟨u, left, v, right, rfl⟩ := member
      exact ⟨u, v, rfl, (body _ _ _).mpr left, (ih _ _).mpr right⟩

theorem Spells.group (body : p.Spells L) (times : Times) :
    (group p times).Spells {w | ∃ n, times.Allows n ∧ w ∈ L ^ n} := by
  intro before w rest
  exact exists_congr fun n => and_congr_right fun _ => body.takesTimes n before w rest

theorem Spells.group_one (body : p.Spells L) : (p.group .one).Spells L :=
  fun before w rest => takes_group_one.trans (body before w rest)

theorem Spells.group_optional (body : p.Spells L) : (p.group .optional).Spells (1 + L) := by
  intro before w rest
  rw [takes_group_optional, Language.mem_add, body before w rest]
  exact Iff.rfl

theorem Spells.group_plus (body : p.Spells L) : (p.group .plus).Spells (L * L∗) := by
  intro before w rest
  rw [body.group .plus before w rest, Language.mem_mul]
  constructor
  · intro member
    obtain ⟨n, some, power⟩ := member
    obtain ⟨k, rfl⟩ := Nat.exists_eq_succ_of_ne_zero (Times.allows_plus.mp some).ne'
    rw [pow_succ', Language.mem_mul] at power
    obtain ⟨u, first, v, others, rfl⟩ := power
    rw [Language.mem_pow] at others
    obtain ⟨parts, rfl, -, all⟩ := others
    exact ⟨u, first, _, Language.join_mem_kstar all, rfl⟩
  · intro member
    obtain ⟨u, first, v, others, rfl⟩ := member
    obtain ⟨parts, rfl, all⟩ := Language.mem_kstar.mp others
    refine ⟨parts.length + 1, Times.allows_plus.mpr (Nat.succ_pos _), ?_⟩
    rw [pow_succ', Language.mem_mul]
    exact ⟨u, first, _, Language.mem_pow.mpr ⟨parts, rfl, rfl, all⟩, rfl⟩

theorem spells_all {ps : List Pattern} {Ls : List (Language Char)}
    (parts : List.Forall₂ Spells ps Ls) : (all ps).Spells Ls.prod := by
  induction parts with
  | nil => exact spells_empty
  | @cons p L ps Ls first others ih =>
    cases others with
    | nil =>
      rw [List.prod_cons, List.prod_nil, mul_one]
      exact first
    | cons => exact first.seq ih

theorem spells_oneOf {p : Pattern} {L : Language Char} {ps : List Pattern}
    {Ls : List (Language Char)} (first : p.Spells L) (others : List.Forall₂ Spells ps Ls) :
    (oneOf (p :: ps)).Spells (L + Ls.sum) := by
  induction others generalizing p L with
  | nil =>
    rw [List.sum_nil, add_zero]
    exact first
  | cons second _ ih =>
    rw [List.sum_cons]
    exact first.alt (ih second)

end Apidoc.Pattern
