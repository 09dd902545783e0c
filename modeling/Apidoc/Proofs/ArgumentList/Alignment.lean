import Apidoc.Proofs.ArgumentList.Adoption

/-!
Which piece of a list names which parameter. The list gives the parameters of a call, but meets all
parameters, behind the left operand if it has one piece less than there are parameters.
-/
namespace Apidoc.ArgumentList

def ahead (role : Role) (ps : List Parameter) (i : Nat) : Nat :=
  (ps.take i).countP (·.role = role)

/-- In front of the place stand as many implicit parameters as left operands are put in front of a
list with so many more pieces than the call has parameters. -/
def AlignedAt (ps : List Parameter) (more i : Nat) : Prop :=
  ahead .implicit ps i = if ps.countP (·.role = .implicit) = more + 1 then 1 else 0

instance (ps : List Parameter) (more i : Nat) : Decidable (AlignedAt ps more i) :=
  inferInstanceAs (Decidable (_ = _))

theorem countP_roles (ps : List Parameter) :
    ps.countP (·.role = .regular) + ps.countP (·.role = .implicit) = ps.length := by
  induction ps with
  | nil => rfl
  | cons p ps ih =>
    cases role : p.role with
    | regular => simp [role, ← ih]; omega
    | implicit => simp [role, ← ih]; omega

theorem ahead_add {ps : List Parameter} {i : Nat} (inside : i ≤ ps.length) :
    ahead .regular ps i + ahead .implicit ps i = i := by
  rw [ahead, ahead, countP_roles, List.length_take, Nat.min_eq_left inside]

theorem getElem?_ahead {ps : List Parameter} {i : Nat} {p : Parameter} (there : ps[i]? = some p)
    (regular : p.role = .regular) :
    (ps.filter (·.role = .regular))[ahead .regular ps i]? = some p := by
  obtain ⟨bound, rfl⟩ := List.getElem?_eq_some_iff.mp there
  have split : ps.filter (·.role = .regular) = (ps.take i).filter (·.role = .regular) ++
      ps[i] :: (ps.drop (i + 1)).filter (·.role = .regular) := by
    rw [← List.filter_cons_of_pos (by simpa using regular), ← List.drop_eq_getElem_cons bound,
      ← List.filter_append, List.take_append_drop]
  rw [split, ahead, List.countP_eq_length_filter, List.getElem?_append_right (Nat.le_refl _),
    Nat.sub_self]
  rfl

/-- An aligned parameter of the call meets the piece at its place among them. -/
theorem getElem?_adoptNames {ps : List Parameter} {arguments : Text} {i more : Nat} {p : Parameter}
    {piece : Text} (there : ps[i]? = some p)
    (count : (pieces arguments).length = ps.countP (·.role = .regular) + more)
    (own : (pieces arguments)[ahead .regular ps i]? = some piece) (aligned : AlignedAt ps more i) :
    (adoptNames ps arguments)[i]? = some (adopt p piece) := by
  obtain ⟨bound, -⟩ := List.getElem?_eq_some_iff.mp there
  have place := ahead_add (Nat.le_of_lt bound)
  have all := countP_roles ps
  have met : (operands ps.length arguments)[i]? = some piece := by
    rw [AlignedAt] at aligned
    rw [operands]
    split at aligned
    · rename_i short
      rw [if_pos (by omega), ← place, aligned]
      exact own
    · rename_i full
      rw [if_neg (by omega), ← place, aligned]
      exact own
  rw [adoptNames_eq, getElem?_adoptEach, there, met]
  rfl

end Apidoc.ArgumentList
