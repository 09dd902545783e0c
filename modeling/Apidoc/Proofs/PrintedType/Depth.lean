import Apidoc.Proofs.PrintedType.Parser

namespace Apidoc.PrintedType

/-- One more step of depth changes nothing for rows of tokens that it is large enough for. -/
def Settles {α : Type} (read : Nat → List Token → Parsed α) (extra fuel : Nat) : Prop :=
  ∀ ts, Formed ts → 4 * ts.length + extra ≤ fuel → read (fuel + 1) ts = read fuel ts

theorem segmentAt_settles {fuel : Nat} (below : Settles argumentsAt 5 fuel) :
    Settles segmentAt 2 (fuel + 1) := by
  intro ts formed enough
  simp only [segmentAt]
  cases named : nameAt ts with
  | error e => rfl
  | ok value =>
    obtain ⟨words, ts₁⟩ := value
    obtain ⟨ws, name, -, rfl⟩ := nameAt_sound formed named
    simp only
    cases opened : accept? ['<'] ts₁ with
    | none => rfl
    | some ts₂ =>
      obtain ⟨opening, rfl, -⟩ := accept?_eq_some.mp opened
      have some := List.length_pos_iff.mpr name.ne_nil
      have same := below ts₂ formed.append.2.cons.2 (by simp at enough; omega)
      simp only [same]

theorem pathAt_settles {fuel : Nat} (segments : Settles segmentAt 2 fuel)
    (paths : Settles pathAt 3 fuel) : Settles pathAt 3 (fuel + 1) := by
  intro ts formed enough
  have same := segments ts formed (by omega)
  rw [pathAt, pathAt, same]
  cases first : segmentAt fuel ts with
  | error e => rfl
  | ok value =>
    obtain ⟨segment, ts₁⟩ := value
    obtain ⟨d, valid, -, rfl⟩ := (reads fuel).2.2.1 formed first
    simp only
    cases joined : accept? [':', ':'] ts₁ with
    | none => rfl
    | some ts₂ =>
      obtain ⟨colons, rfl, -⟩ := accept?_eq_some.mp joined
      have some := List.length_pos_iff.mpr (d.yield_ne_nil valid)
      have others := paths ts₂ formed.append.2.cons.2 (by simp at enough; omega)
      simp only [others]

theorem typeAt_settles {fuel : Nat} (paths : Settles pathAt 3 fuel) :
    Settles typeAt 4 (fuel + 1) := by
  intro ts formed enough
  obtain ⟨lead, ts₁, rfl, -, -, qualified⟩ := constAt_cases ts
  obtain ⟨sign, ts₂, rfl, -, signed⟩ := signAt_cases ts₁
  have same := paths ts₂ formed.append.2.append.2 (by simp at enough; omega)
  rw [typeAt, typeAt, qualified]
  simp only [signed, same]

theorem argumentsAt_settles {fuel : Nat} (types : Settles typeAt 4 fuel)
    (arguments : Settles argumentsAt 5 fuel) : Settles argumentsAt 5 (fuel + 1) := by
  intro ts formed enough
  have same := types ts formed (by omega)
  rw [argumentsAt, argumentsAt, same]
  cases first : typeAt fuel ts with
  | error e => rfl
  | ok value =>
    obtain ⟨type, ts₁⟩ := value
    obtain ⟨d, valid, -, rfl⟩ := (reads fuel).1 formed first
    simp only
    cases more : accept? [','] ts₁ with
    | none => rfl
    | some ts₂ =>
      obtain ⟨comma, rfl, -⟩ := accept?_eq_some.mp more
      have some := List.length_pos_iff.mpr (d.yield_ne_nil valid)
      have others := arguments ts₂ formed.append.2.cons.2 (by simp at enough; omega)
      simp only [others]

theorem settles (fuel : Nat) : Settles typeAt 4 fuel ∧ Settles pathAt 3 fuel ∧
    Settles segmentAt 2 fuel ∧ Settles argumentsAt 5 fuel := by
  induction fuel with
  | zero => exact ⟨fun _ _ _ => by omega, fun _ _ _ => by omega, fun _ _ _ => by omega,
      fun _ _ _ => by omega⟩
  | succ fuel ih =>
    obtain ⟨types, paths, segments, arguments⟩ := ih
    exact ⟨typeAt_settles paths, pathAt_settles segments paths, segmentAt_settles arguments,
      argumentsAt_settles types arguments⟩

/-- A larger bound on the depth reads the same. -/
theorem typeAt_of_le {ts : List Token} (formed : Formed ts) {fuel : Nat}
    (enough : depthBound ts ≤ fuel) : typeAt fuel ts = typeAt (depthBound ts) ts := by
  induction fuel, enough using Nat.le_induction with
  | base => rfl
  | succ fuel enough ih => exact ((settles fuel).1 ts formed enough).trans ih

end Apidoc.PrintedType
