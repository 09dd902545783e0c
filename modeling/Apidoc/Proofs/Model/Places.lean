import Mathlib.Data.List.Basic

namespace Apidoc

variable {α β : Type}

theorem modify_comm {f g : α → α} (commute : ∀ a, f (g a) = g (f a)) (i j : Nat) (l : List α) :
    (l.modify i f).modify j g = (l.modify j g).modify i f := by
  by_cases same : i = j
  · have both : g ∘ f = f ∘ g := funext fun a => (commute a).symm
    rw [same, List.modify_modify_eq, List.modify_modify_eq, both]
  · exact List.modify_modify_ne f g l same

theorem set_eq_modify_of_getElem? {f : α → α} {l : List α} {i : Nat} {a : α}
    (there : l[i]? = some a) : l.set i (f a) = l.modify i f := by
  rw [List.modify_eq_set_getElem?, there]
  rfl

theorem modify_of_getElem?_eq_none {f : α → α} {l : List α} {i : Nat} (beyond : l[i]? = none) :
    l.modify i f = l := by
  rw [List.modify_eq_set_getElem?, beyond]
  rfl

theorem map_getElem?_modify {f : α → α} {read : α → β} (keeps : ∀ a, read (f a) = read a)
    (i j : Nat) (l : List α) : ((l.modify i f)[j]?).map read = l[j]?.map read := by
  rw [List.getElem?_modify]
  cases l[j]? with
  | none => rfl
  | some a =>
    by_cases same : i = j
    · simp [same, keeps]
    · simp [same]

theorem map_modify {f : α → α} {g : α → α} (commute : ∀ a, f (g a) = g (f a)) (i : Nat)
    (l : List α) : (l.modify i f).map g = (l.map g).modify i f := by
  apply List.ext_getElem?
  intro j
  rw [List.getElem?_map, List.getElem?_modify, List.getElem?_modify, List.getElem?_map]
  cases l[j]? with
  | none => rfl
  | some a =>
    by_cases same : i = j
    · simp [same, commute]
    · simp [same]

theorem forall_mem_modify {f : α → α} {p : α → Prop} {l : List α} (all : ∀ a ∈ l, p a)
    (keeps : ∀ a, p a → p (f a)) (i : Nat) : ∀ a ∈ l.modify i f, p a := by
  intro b member
  obtain ⟨j, at_place⟩ := List.mem_iff_getElem?.mp member
  rw [List.getElem?_modify] at at_place
  obtain ⟨a, there, rfl⟩ := Option.map_eq_some_iff.mp at_place
  have before := all a (List.mem_of_getElem? there)
  split
  · exact keeps a before
  · exact before

end Apidoc
