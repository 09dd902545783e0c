import Apidoc.Text.Basic
import Mathlib.Data.List.Infix

namespace Apidoc.Text

theorem occursIn_iff {part text : Text} : part.occursIn text ↔ part <:+: text := by
  induction text with
  | nil => simp [occursIn]
  | cons c cs ih =>
    rw [occursIn, Bool.or_eq_true, ih, List.isPrefixOf_iff_prefix, List.infix_cons_iff]

theorem isPrefixOf_drop (u w v : Text) : w.isPrefixOf ((u ++ (w ++ v)).drop u.length) := by
  rw [List.drop_left, List.isPrefixOf_iff_prefix]
  exact List.prefix_append w v

variable {part u v : Text} {mark : Char}

theorem prefix_append_cons_iff (outside : mark ∉ part) : part <+: u ++ mark :: v ↔ part <+: u := by
  constructor
  · intro starts
    obtain ⟨rest, eq⟩ := starts
    rcases List.append_eq_append_iff.mp eq with ⟨t, front, -⟩ | ⟨t, front, back⟩
    · exact ⟨t, front.symm⟩
    · cases t with
      | nil => rw [front, List.append_nil]
      | cons c t =>
        obtain ⟨rfl, -⟩ := List.cons.inj back
        exact absurd (by rw [front]; simp) outside
  · exact fun starts => starts.trans (List.prefix_append u _)

theorem infix_append_cons_iff (outside : mark ∉ part) :
    part <:+: u ++ mark :: v ↔ part <:+: u ∨ part <:+: v := by
  induction u with
  | nil =>
    have start : part <+: [] ++ mark :: v ↔ part <+: [] := prefix_append_cons_iff outside
    rw [List.nil_append] at start ⊢
    rw [List.infix_cons_iff, start, List.infix_nil, List.prefix_nil]
  | cons c u ih =>
    have start : part <+: (c :: u) ++ mark :: v ↔ part <+: c :: u := prefix_append_cons_iff outside
    rw [List.cons_append] at start ⊢
    rw [List.infix_cons_iff, List.infix_cons_iff, start, ih, or_assoc]

theorem infix_append_iff
    (apart : (∀ c ∈ u.getLast?, c ∉ part) ∨ ∀ c ∈ v.head?, c ∉ part) :
    part <:+: u ++ v ↔ part <:+: u ∨ part <:+: v := by
  constructor
  · intro inside
    rcases apart with last | first
    · rcases List.eq_nil_or_concat' u with rfl | ⟨u, c, rfl⟩
      · exact .inr inside
      · rw [List.append_assoc] at inside
        have outside : c ∉ part := last c (by simp)
        rcases (infix_append_cons_iff outside).mp inside with front | back
        · exact .inl (front.trans (List.prefix_append u [c]).isInfix)
        · exact .inr back
    · cases v with
      | nil =>
        rw [List.append_nil] at inside
        exact .inl inside
      | cons c v =>
        have outside : c ∉ part := first c rfl
        rcases (infix_append_cons_iff outside).mp inside with front | back
        · exact .inl front
        · exact .inr (back.trans (List.suffix_cons c v).isInfix)
  · rintro (front | back)
    · exact front.trans (List.prefix_append u v).isInfix
    · exact back.trans (List.suffix_append u v).isInfix

end Apidoc.Text
