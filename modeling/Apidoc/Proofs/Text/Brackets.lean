import Apidoc.Text.Basic
import Mathlib.Data.List.Basic

namespace Apidoc.Text

def bracketWeight (c : Char) : Int :=
  if c = '<' ∨ c = '(' then 1 else if c = '>' ∨ c = ')' then -1 else 0

/-- The brackets that a text opens and does not close. -/
def bracketDepth : Text → Int
  | [] => 0
  | c :: s => bracketWeight c + bracketDepth s

def listMarks : List Char := ['<', '(', '>', ')', ',']

@[simp] theorem bracketDepth_nil : bracketDepth [] = 0 := rfl

@[simp] theorem bracketDepth_cons (c : Char) (s : Text) :
    bracketDepth (c :: s) = bracketWeight c + bracketDepth s := rfl

@[simp] theorem bracketDepth_append (u v : Text) :
    bracketDepth (u ++ v) = bracketDepth u + bracketDepth v := by
  induction u with
  | nil => exact (Int.zero_add _).symm
  | cons c u ih => rw [List.cons_append, bracketDepth_cons, ih, bracketDepth_cons, Int.add_assoc]

theorem bracketWeight_of_not_mem {c : Char} (other : c ∉ listMarks) : bracketWeight c = 0 := by
  simp only [listMarks, List.mem_cons, not_or] at other
  simp [bracketWeight, other]

def openings (s : Text) : Nat := s.count '<' + s.count '('

def closings (s : Text) : Nat := s.count '>' + s.count ')'

theorem bracketDepth_eq (s : Text) : bracketDepth s = openings s - closings s := by
  induction s with
  | nil => rfl
  | cons c s ih =>
    have weight : (openings (c :: s) : Int) - closings (c :: s) =
        bracketWeight c + (openings s - closings s) := by
      simp only [openings, closings, List.count_cons, bracketWeight, beq_iff_eq]
      split_ifs <;> simp_all <;> omega
    rw [bracketDepth_cons, ih, weight]

theorem bracketDepth_eq_zero_iff {s : Text} : bracketDepth s = 0 ↔ openings s = closings s := by
  rw [bracketDepth_eq]
  omega

def IsUnmarked (s : Text) : Prop := ∀ c ∈ listMarks, c ∉ s

theorem IsUnmarked.bracketDepth {s : Text} (unmarked : IsUnmarked s) : bracketDepth s = 0 := by
  induction s with
  | nil => rfl
  | cons c s ih =>
    have first : c ∉ listMarks := fun mark => unmarked c mark (.head s)
    have others : IsUnmarked s := fun d mark member => unmarked d mark (.tail c member)
    rw [bracketDepth_cons, bracketWeight_of_not_mem first, ih others, Int.zero_add]

theorem IsUnmarked.append {u v : Text} (first : IsUnmarked u) (second : IsUnmarked v) :
    IsUnmarked (u ++ v) := by
  intro c mark
  rw [List.mem_append]
  exact not_or.mpr ⟨first c mark, second c mark⟩

theorem isUnmarked_of_forall {p : Char → Bool} {s : Text} (all : ∀ c ∈ s, p c)
    (none : ∀ c ∈ listMarks, p c = false) : IsUnmarked s := by
  intro c mark member
  have outside := none c mark
  rw [all c member] at outside
  cases outside

/-- The text closes its brackets, and its commas stand inside of brackets when so many were opened
before. -/
structure IsEnclosed (opened : Nat) (s : Text) : Prop where
  closed : bracketDepth s = 0
  inside : ∀ u v, s = u ++ ',' :: v → 0 < opened + bracketDepth u

theorem isEnclosed_of_no_comma {s : Text} (closed : bracketDepth s = 0) (none : ',' ∉ s)
    (opened : Nat) : IsEnclosed opened s :=
  ⟨closed, fun u v eq => absurd (by simp [eq]) none⟩

theorem IsUnmarked.enclosed {s : Text} (unmarked : IsUnmarked s) (opened : Nat) :
    IsEnclosed opened s :=
  isEnclosed_of_no_comma unmarked.bracketDepth (unmarked ',' (by decide)) opened

theorem IsEnclosed.append {opened : Nat} {u v : Text} (first : IsEnclosed opened u)
    (second : IsEnclosed opened v) : IsEnclosed opened (u ++ v) := by
  refine ⟨by rw [bracketDepth_append, first.closed, second.closed]; rfl, ?_⟩
  intro x y eq
  rcases List.append_eq_append_iff.mp eq with ⟨z, rfl, tail⟩ | ⟨z, front, tail⟩
  · rw [bracketDepth_append, first.closed, Int.zero_add]
    exact second.inside z y tail
  · cases z with
    | nil =>
      have whole := second.inside [] y tail.symm
      obtain rfl : u = x := by simpa using front
      rwa [first.closed]
    | cons c z =>
      obtain ⟨rfl, -⟩ := List.cons.inj tail
      exact first.inside x z front

theorem IsEnclosed.mono {opened more : Nat} {s : Text} (enclosed : IsEnclosed opened s)
    (le : opened ≤ more) : IsEnclosed more s := by
  refine ⟨enclosed.closed, ?_⟩
  intro u v eq
  have deep := enclosed.inside u v eq
  omega

theorem isEnclosed_comma (opened : Nat) : IsEnclosed (opened + 1) [','] := by
  refine ⟨rfl, ?_⟩
  intro u v eq
  cases u with
  | nil => simp
  | cons c u => simp at eq

theorem IsEnclosed.bracketed {opened : Nat} {s : Text} (inner : IsEnclosed (opened + 1) s) :
    IsEnclosed opened ('<' :: (s ++ ['>'])) := by
  have opening : bracketWeight '<' = 1 := rfl
  have closing : bracketDepth ['>'] = -1 := rfl
  refine ⟨by rw [bracketDepth_cons, bracketDepth_append, inner.closed, opening, closing]; rfl, ?_⟩
  intro u v eq
  cases u with
  | nil => cases eq
  | cons c u =>
    obtain ⟨rfl, tail⟩ := List.cons.inj eq
    have deeper : 0 < (opened + 1 : Nat) + bracketDepth u := by
      rcases List.append_eq_append_iff.mp tail with ⟨z, rfl, last⟩ | ⟨z, front, last⟩
      · cases z with
        | nil => cases last
        | cons d z =>
          have lengths := congrArg List.length last
          simp at lengths
      · cases z with
        | nil => cases last
        | cons d z =>
          obtain ⟨rfl, -⟩ := List.cons.inj last
          exact inner.inside u z front
    rw [bracketDepth_cons, opening]
    omega

end Apidoc.Text
