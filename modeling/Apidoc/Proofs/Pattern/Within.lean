import Apidoc.Proofs.Pattern.Search

namespace Apidoc.Pattern

/-- Whatever `p` takes is taken by `q` at the same place. -/
def Within (p q : Pattern) : Prop :=
  ∀ before w rest, p.Takes before w rest → q.Takes before w rest

variable {p p' q q' : Pattern}

theorem Within.refl (p : Pattern) : p.Within p := fun _ _ _ taken => taken

theorem Within.seq (first : p.Within p') (second : q.Within q') :
    (seq p q).Within (seq p' q') := by
  intro before w rest taken
  obtain ⟨u, v, rfl, left, right⟩ := taken
  exact ⟨u, v, rfl, first _ _ _ left, second _ _ _ right⟩

theorem within_alt_left (p q : Pattern) : p.Within (.alt p q) := fun _ _ _ => .inl

theorem within_alt_right (p q : Pattern) : q.Within (.alt p q) := fun _ _ _ => .inr

theorem Within.group_one (body : p.Within q) : p.Within (.group q .one) :=
  fun _ _ _ taken => takes_group_one.mpr (body _ _ _ taken)

theorem Within.group_optional (body : p.Within q) : p.Within (.group q .optional) :=
  fun _ _ _ taken => takes_group_optional.mpr (.inr (body _ _ _ taken))

theorem within_optional_of_empty (q : Pattern) : empty.Within (.group q .optional) :=
  fun _ _ _ none => takes_group_optional.mpr (.inl none)

theorem Within.field (name : Field) (body : p.Within q) :
    (field name p).Within (field name q) := body

theorem within_all {ps qs : List Pattern} (parts : List.Forall₂ Within ps qs) :
    (all ps).Within (all qs) := by
  induction parts with
  | nil => exact .refl _
  | cons first others ih =>
    intro before w rest taken
    obtain ⟨u, v, rfl, left, right⟩ := takes_all_cons.mp taken
    exact takes_all_cons.mpr ⟨u, v, rfl, first _ _ _ left, ih _ _ _ right⟩

theorem within_separated (mark : Pattern) {ps qs : List Pattern}
    (parts : List.Forall₂ Within ps qs) : (separated mark ps).Within (separated mark qs) := by
  induction parts with
  | nil => exact .refl _
  | cons first others ih =>
    cases others with
    | nil => exact first
    | cons => exact first.seq ((Within.refl mark).seq ih)

theorem Within.search? (within : p.Within q) {s : Text} {m : Match}
    (found : p.search? s = some m) : ∃ m', q.search? s = some m' ∧ m'.start ≤ m.start := by
  obtain ⟨u, v, d, rfl, first, rfl⟩ := searchFrom?_eq_some found
  obtain ⟨w, passes, taken⟩ := p.faithful.sound (List.mem_of_mem_head? first)
  have split : v = w ++ d.rest := passes.rest
  obtain ⟨m', later, bound⟩ := searchFrom?_of_takes none 0 (within _ _ _ taken)
  rw [← split] at later
  exact ⟨m', later, bound⟩

end Apidoc.Pattern
