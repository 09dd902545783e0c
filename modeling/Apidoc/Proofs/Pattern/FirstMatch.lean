import Apidoc.Proofs.Pattern.Search
import Apidoc.Proofs.Text.Character

/-!
What the first match of a pattern keeps on a text that is known from there on. Rows of parts are
told from their last part to their first: each part goes as far as it prefers, provided that the
parts behind it can go on from there.
-/
namespace Apidoc.Pattern

/-- On this text there is a match, and the first one keeps these named parts. -/
def Keeps (p : Pattern) (s : Text) (kept : List Capture) : Prop :=
  ∀ c : Cursor, c.rest = s → ∃ x, (p.ends c).head? = some x ∧ x.captures = kept ++ c.captures

variable {p q : Pattern} {w s t : Text} {kept : List Capture}

theorem Keeps.ends_ne_nil (keeps : p.Keeps s kept) {c : Cursor} (rest : c.rest = s) :
    p.ends c ≠ [] := by
  obtain ⟨x, first, -⟩ := keeps c rest
  exact List.ne_nil_of_mem (List.mem_of_mem_head? first)

theorem keeps_of_unnamed (unnamed : p.fields = [])
    (leads : ∀ c : Cursor, c.rest = s → p.ends c ≠ []) : p.Keeps s [] := by
  intro c rest
  obtain ⟨x, first⟩ := Option.isSome_iff_exists.mp (List.isSome_head?.mpr (leads c rest))
  exact ⟨x, first, silent_of_fields unnamed (List.mem_of_mem_head? first)⟩

theorem Keeps.fixed (behind : q.Keeps s kept) (t : Text) :
    (seq (.fixed t) q).Keeps (t ++ s) kept := by
  intro c rest
  obtain ⟨d, passed⟩ := Cursor.stepText?_of_rest rest
  have passes := Cursor.stepText?_eq_some passed
  obtain ⟨x, first, captures⟩ := behind d (passes.rest_eq rest)
  have places : (seq (.fixed t) q).ends c = q.ends d := by simp [ends, passed]
  refine ⟨x, places ▸ first, ?_⟩
  rw [captures, stepText?_captures passed]

theorem ends_fixed_of_other {c : Cursor} (other : ¬ t <+: c.rest) :
    (seq (.fixed t) q).ends c = [] := by
  by_contra more
  obtain ⟨_, rest, split, _, v, rfl, rfl, -⟩ := ends_ne_nil_iff.mp more
  exact other ⟨v ++ rest, by rw [split, List.append_assoc]⟩

/-- The part starts nowhere inside of the free text in front of the rest. -/
def StartsBehind (p : Pattern) (w s : Text) : Prop :=
  ∀ u v, w = u ++ v → v ≠ [] → ∀ c : Cursor, c.rest = v ++ s → p.ends c = []

theorem startsBehind_fixed (some : t ≠ []) (foreign : t.head some ∉ t.tail) (absent : ¬ t <:+: w)
    (s : Text) : (seq (.fixed t) q).StartsBehind w (t ++ s) := by
  rintro u v rfl further c rest
  apply ends_fixed_of_other
  rw [rest]
  rintro ⟨z, same⟩
  have behind : t ++ s = t.head some :: (t.tail ++ s) := by
    rw [← List.cons_append, List.cons_head_tail]
  obtain ⟨y, rfl⟩ := Text.append_of_foreign foreign further (behind ▸ same.symm)
  exact absent ⟨u, y, List.append_assoc ..⟩

/-- Free text goes up to the first place where the rest starts. -/
theorem Keeps.free (behind : q.Keeps s kept) (first : q.StartsBehind w s) :
    (seq (.chars .any .lazyStar) q).Keeps (w ++ s) kept := by
  intro c rest
  obtain ⟨d, passes, same, found⟩ := Cursor.head?_stops rest
    (fun u v e split some near => first u v split some e
      (near.rest_eq (rest.trans (by rw [split, List.append_assoc]))))
    (fun e far => behind.ends_ne_nil (far.rest_eq rest))
  obtain ⟨x, here, captures⟩ := behind d (passes.rest_eq rest)
  exact ⟨x, found.trans here, by rw [captures, same]⟩

theorem Keeps.someSpaces (behind : q.Keeps s kept) (some : w ≠ [])
    (blank : ∀ c ∈ w, Text.isBlank c) (solid : ∀ c ∈ s.head?, Text.isBlank c = false) :
    (seq someSpaces q).Keeps (w ++ s) kept := by
  intro c rest
  have longest : ∀ u v, s = u ++ v → (∀ a ∈ u, CharClass.blank.accepts a) →
      Times.plus.Allows (w ++ u).length → u = [] := by
    rintro u v rfl white -
    cases u with
    | nil => rfl
    | cons a u => exact absurd (white a (.head u)) (by simp [CharClass.accepts, solid a rfl])
  have accepted : ∀ a ∈ w, CharClass.blank.accepts a := blank
  have allowed := Times.allows_plus.mpr (List.length_pos_iff.mpr some)
  obtain ⟨d, passes, same, found⟩ := Cursor.head?_stops_of_greedy (g := q.ends) rfl rest accepted
    allowed longest (fun e far => behind.ends_ne_nil (far.rest_eq rest))
  obtain ⟨x, here, captures⟩ := behind d (passes.rest_eq rest)
  exact ⟨x, found.trans here, by rw [captures, same]⟩

/-- A named part that ends in free text, from the place `a` on where that text starts. -/
theorem Keeps.named (behind : q.Keeps s kept) (first : q.StartsBehind w s) {times : Times}
    (few : times.isLazy) (allowed : times.Allows w.length) {c a : Cursor} {front : Text}
    (passes : c.Passes front a) (same : a.captures = c.captures) (rest : a.rest = w ++ s)
    (name : Field) : ∃ x,
      ((a.stops .any times).flatMap fun e => q.ends (e.keep name c)).head? = some x ∧
        x.captures = kept ++ ⟨name, front ++ (w ++ s), (front ++ w).length⟩ :: c.captures := by
  have accepted : ∀ a ∈ w, CharClass.any.accepts a := fun _ _ => rfl
  obtain ⟨d, far, silent, found⟩ := Cursor.head?_stops_of_lazy
    (g := fun e => q.ends (e.keep name c)) few rest accepted allowed
    (fun u v e split some near => first u v split some (e.keep name c)
      (near.rest_eq (rest.trans (by rw [split, List.append_assoc]))))
    (fun e far => behind.ends_ne_nil (c := e.keep name c) (far.rest_eq rest))
  obtain ⟨x, here, captures⟩ := behind (d.keep name c) (far.rest_eq rest)
  have offset := (passes.trans far).offset
  have start : c.rest = front ++ (w ++ s) := by rw [passes.rest, rest]
  refine ⟨x, found.trans here, ?_⟩
  rw [captures, Cursor.keep, silent, same, offset, Nat.add_sub_cancel_left, start]

theorem Keeps.field (behind : q.Keeps s kept) (first : q.StartsBehind w s) (name : Field) :
    (seq (.field name (.chars .any .lazyStar)) q).Keeps (w ++ s)
      (kept ++ [⟨name, w ++ s, w.length⟩]) := by
  intro c rest
  obtain ⟨x, found, captures⟩ := behind.named first rfl (Times.allows_lazyStar _) (.refl c) rfl rest
    name
  have places : (seq (.field name (.chars .any .lazyStar)) q).ends c =
      (c.stops .any .lazyStar).flatMap fun e => q.ends (e.keep name c) := by
    simp only [ends, List.flatMap_map]
  refine ⟨x, places ▸ found, ?_⟩
  rw [captures, List.append_assoc]
  rfl

theorem Keeps.openedField (behind : q.Keeps s kept) (first : q.StartsBehind w s) (some : w ≠ [])
    {front : Text} (unnamed : p.fields = [])
    (only : ∀ before u v, front ++ (w ++ s) = u ++ v → (p.Takes before u v ↔ u = front))
    (name : Field) : (seq (.field name (seq p (.chars .any .lazyPlus))) q).Keeps
      (front ++ (w ++ s)) (kept ++ [⟨name, front ++ (w ++ s), (front ++ w).length⟩]) := by
  intro c rest
  have places : (seq (.field name (seq p (.chars .any .lazyPlus))) q).ends c =
      (p.ends c).flatMap fun a =>
        (a.stops .any .lazyPlus).flatMap fun e => q.ends (e.keep name c) := by
    simp only [ends, List.flatMap_map, List.flatMap_assoc]
  have opens (a : Cursor) (inside : a ∈ p.ends c) : ∃ x,
      ((a.stops .any .lazyPlus).flatMap fun e => q.ends (e.keep name c)).head? = Option.some x ∧
        x.captures =
          kept ++ ⟨name, front ++ (w ++ s), (front ++ w).length⟩ :: c.captures := by
    obtain ⟨u, passes, taken, same⟩ := mem_ends unnamed inside
    obtain rfl := (only c.before u a.rest (rest.symm.trans passes.rest)).mp taken
    exact behind.named first rfl (Times.allows_lazyPlus.mpr (List.length_pos_iff.mpr some)) passes
      same (passes.rest_eq rest) name
  have taken := (only c.before front (w ++ s) rfl).mpr rfl
  obtain ⟨a, inside, -⟩ := p.faithful.complete rest taken
  obtain ⟨y, here, -⟩ := opens a inside
  have some : (seq (.field name (seq p (.chars .any .lazyPlus))) q).ends c ≠ [] := by
    rw [places]
    exact List.ne_nil_of_mem (List.mem_flatMap.mpr ⟨a, inside, List.mem_of_mem_head? here⟩)
  obtain ⟨x, found⟩ := Option.isSome_iff_exists.mp (List.isSome_head?.mpr some)
  refine ⟨x, found, ?_⟩
  rw [places] at found
  obtain ⟨a, inside, here⟩ := exists_of_head?_flatMap found
  obtain ⟨y, here', captures⟩ := opens a inside
  obtain rfl := Option.some.inj (here.symm.trans here')
  rw [captures, List.append_assoc]
  rfl

end Apidoc.Pattern
