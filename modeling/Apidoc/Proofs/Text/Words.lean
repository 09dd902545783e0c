import Apidoc.Proofs.Text.Character

namespace Apidoc.Text

def IsSolid (w : Text) : Prop := w ≠ [] ∧ ∀ c ∈ w, isBlank c = false

instance (w : Text) : Decidable (IsSolid w) :=
  inferInstanceAs (Decidable (w ≠ [] ∧ ∀ c ∈ w, isBlank c = false))

theorem consHead_ne_nil (c : Char) (ws : List Text) : consHead c ws ≠ [] := by
  cases ws <;> exact List.cons_ne_nil _ _

theorem consHead_append {c : Char} {ws : List Text} (some : ws ≠ []) (vs : List Text) :
    consHead c (ws ++ vs) = consHead c ws ++ vs := by
  obtain ⟨w, ws, rfl⟩ := List.exists_cons_of_ne_nil some
  rfl

theorem words_ne_nil {c : Char} (solid : isBlank c = false) (s : Text) : words (c :: s) ≠ [] := by
  rw [words, if_neg (by simp [solid])]
  split
  · exact List.cons_ne_nil _ _
  · exact consHead_ne_nil c _

theorem words_append_blank {b : Char} (blank : isBlank b) (u v : Text) :
    words (u ++ b :: v) = words u ++ words v := by
  induction u with
  | nil => simp [words, blank]
  | cons c u ih =>
    rw [List.cons_append, words, words, ih]
    cases here : isBlank c with
    | true => simp
    | false =>
      cases u with
      | nil => simp [words, blank]
      | cons d u =>
        cases next : isBlank d with
        | true => simp [next]
        | false => simp [next, consHead_append (words_ne_nil next u)]

theorem words_eq_nil_iff {s : Text} : words s = [] ↔ ∀ c ∈ s, isBlank c := by
  induction s with
  | nil => simp [words]
  | cons c s ih =>
    cases here : isBlank c with
    | true => rw [words, if_pos here, ih, List.forall_mem_cons, and_iff_right here]
    | false => simp [words_ne_nil here s, here]

theorem words_of_solid {w : Text} (solid : IsSolid w) : words w = [w] := by
  obtain ⟨some, solid⟩ := solid
  induction w with
  | nil => exact absurd rfl some
  | cons c w ih =>
    have here : isBlank c = false := solid c (.head w)
    cases w with
    | nil => simp [words, here]
    | cons d w =>
      have next : isBlank d = false := solid d (.tail c (.head w))
      rw [words, ih (List.cons_ne_nil d w) fun e member => solid e (.tail c member)]
      simp [here, next, consHead]

theorem words_append_of_solid {w : Text} (solid : IsSolid w) {v : Text}
    (apart : ∀ c, v.head? = some c → isBlank c) : words (w ++ v) = w :: words v := by
  cases v with
  | nil => rw [List.append_nil, words_of_solid solid]; rfl
  | cons b v =>
    have blank : isBlank b := apart b rfl
    have rest : words (b :: v) = words v := words_append_blank blank [] v
    rw [words_append_blank blank, words_of_solid solid, rest]
    rfl

end Apidoc.Text
