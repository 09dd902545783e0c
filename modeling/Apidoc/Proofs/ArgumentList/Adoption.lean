import Apidoc.ArgumentList

namespace Apidoc.ArgumentList

def operands (count : Nat) (arguments : Text) : List Text :=
  if (pieces arguments).length + 1 = count then leftOperand :: pieces arguments
  else pieces arguments

theorem adoptNames_eq (ps : List Parameter) (arguments : Text) :
    adoptNames ps arguments = adoptEach ps (operands ps.length arguments) := rfl

theorem adoptNames_single {s : Text} (whole : pieces s = [s]) (p : Parameter) :
    adoptNames [p] s = [adopt p s] := by
  rw [adoptNames, whole]
  rfl

@[simp] theorem adopt_type (p : Parameter) (s : Text) : (adopt p s).type = p.type := by
  unfold adopt
  split <;> rfl

@[simp] theorem adopt_role (p : Parameter) (s : Text) : (adopt p s).role = p.role := by
  unfold adopt
  split <;> rfl

theorem adopt_of_named {p : Parameter} (named : isAnonymous p.name = false) (s : Text) :
    adopt p s = p := by
  rw [adopt, if_neg (by simp [named])]

theorem adopt_adopt (p : Parameter) (s : Text) : adopt (adopt p s) s = adopt p s := by
  cases anonymous : isAnonymous p.name with
  | false => rw [adopt_of_named anonymous, adopt_of_named anonymous]
  | true =>
    have first : adopt p s = { p with name := (nameIn? s).getD p.name } := by
      rw [adopt, if_pos anonymous]
    rw [first, adopt]
    split
    · cases nameIn? s <;> rfl
    · rfl

@[simp] theorem adoptEach_nil (ps : List Parameter) : adoptEach ps [] = ps := by
  cases ps <;> rfl

@[simp] theorem length_adoptEach (ps : List Parameter) (ss : List Text) :
    (adoptEach ps ss).length = ps.length := by
  induction ps generalizing ss with
  | nil => rfl
  | cons p ps ih =>
    cases ss with
    | nil => rfl
    | cons s ss => simp [adoptEach, ih]

theorem getElem?_adoptEach (ps : List Parameter) (ss : List Text) (i : Nat) :
    (adoptEach ps ss)[i]? = ps[i]?.map fun p => (ss[i]?).elim p (adopt p) := by
  induction ps generalizing ss i with
  | nil => rfl
  | cons p ps ih =>
    cases ss with
    | nil => simp
    | cons s ss =>
      cases i with
      | zero => rfl
      | succ i => exact ih ss i

theorem adoptEach_adoptEach (ps : List Parameter) (ss : List Text) :
    adoptEach (adoptEach ps ss) ss = adoptEach ps ss := by
  induction ps generalizing ss with
  | nil => rfl
  | cons p ps ih =>
    cases ss with
    | nil => rfl
    | cons s ss => rw [adoptEach, adoptEach, adopt_adopt, ih]

theorem types_adoptEach (role : Role) (ps : List Parameter) (ss : List Text) :
    ((adoptEach ps ss).filter (·.role = role)).map (·.type) =
      (ps.filter (·.role = role)).map (·.type) := by
  induction ps generalizing ss with
  | nil => rfl
  | cons p ps ih =>
    cases ss with
    | nil => rfl
    | cons s ss =>
      rw [adoptEach, List.filter_cons, List.filter_cons, adopt_role]
      split
      · rw [List.map_cons, List.map_cons, adopt_type, ih]
      · exact ih ss

theorem adoptNames_adoptNames (ps : List Parameter) (arguments : Text) :
    adoptNames (adoptNames ps arguments) arguments = adoptNames ps arguments := by
  simp only [adoptNames_eq, length_adoptEach, adoptEach_adoptEach]

end Apidoc.ArgumentList
