import Apidoc.Proofs.Pattern.Search
import Apidoc.Proofs.Pattern.Spells

namespace Apidoc

theorem Cursor.Passes.eq {c d e : Cursor} {w : Text} (first : c.Passes w d) (second : c.Passes w e)
    (kept : d.captures = c.captures) (kept' : e.captures = c.captures) : d = e := by
  have rest := List.append_cancel_left (first.rest.symm.trans second.rest)
  obtain ⟨before, offset, rest', captures⟩ := d
  cases e
  cases rest
  cases first.before.trans second.before.symm
  cases first.offset.trans second.offset.symm
  cases kept.trans kept'.symm
  rfl

namespace Pattern

variable {p q r : Pattern} {c b : Cursor}

theorem ends_seq_assoc (p q r : Pattern) (c : Cursor) :
    (seq (seq p q) r).ends c = (seq p (seq q r)).ends c :=
  List.flatMap_assoc

theorem ends_group_one (p : Pattern) (c : Cursor) : (group p .one).ends c = p.ends c := by
  simp [ends, Times.low, Times.extra?, Times.high?, endsExactly, endsUpTo]

theorem ends_oneOf {ps : List Pattern} (some : ps ≠ []) (c : Cursor) :
    (oneOf ps).ends c = ps.flatMap fun p => p.ends c := by
  induction ps with
  | nil => exact absurd rfl some
  | cons p ps ih =>
    cases ps with
    | nil => simp [oneOf]
    | cons q ps =>
      rw [List.flatMap_cons, ← ih (List.cons_ne_nil q ps)]
      rfl

theorem ends_group_optional (p : Pattern) (c : Cursor) : (group p .optional).ends c =
    ((p.ends c).filter fun a => c.offset < a.offset) ++ [c] := by
  have kept (l : List Cursor) : (l.flatMap fun a => if c.offset < a.offset then [a] else []) =
      l.filter fun a => c.offset < a.offset := by
    induction l with
    | nil => rfl
    | cons a l ih =>
      rw [List.flatMap_cons, ih, List.filter_cons]
      split <;> simp [*]
  simp [ends, Times.low, Times.extra?, Times.high?, Times.isLazy, endsExactly, endsUpTo, kept]

theorem head?_seq_optional_cases (first : ((seq (group p .optional) q).ends c).head? = some b)
    (further : ∀ a ∈ p.ends c, c.offset < a.offset) :
    ((seq p q).ends c).head? = some b ∨ (q.ends c).head? = some b := by
  have all : ((p.ends c).filter fun a => c.offset < a.offset) = p.ends c :=
    List.filter_eq_self.mpr fun a member => decide_eq_true (further a member)
  have parts : (seq (group p .optional) q).ends c = (seq p q).ends c ++ q.ends c := by
    show ((group p .optional).ends c).flatMap q.ends = _
    rw [ends_group_optional, all, List.flatMap_append, List.flatMap_singleton]
    rfl
  rw [parts, List.head?_append, Option.or_eq_some_iff] at first
  exact first.imp_right And.right

theorem head?_seq_optional (first : ((seq (group p .optional) q).ends c).head? = some b)
    (leads : ∃ a ∈ p.ends c, c.offset < a.offset ∧ q.ends a ≠ []) :
    ∃ a ∈ p.ends c, (q.ends a).head? = some b := by
  obtain ⟨a, member, further, more⟩ := leads
  have passed : ((p.ends c).filter fun a => c.offset < a.offset).flatMap q.ends ≠ [] := by
    obtain ⟨d, inside⟩ := List.exists_mem_of_ne_nil _ more
    refine List.ne_nil_of_mem (List.mem_flatMap.mpr ⟨a, ?_, inside⟩)
    exact List.mem_filter.mpr ⟨member, by simpa using further⟩
  have parts : (seq (group p .optional) q).ends c =
      ((p.ends c).filter fun a => c.offset < a.offset).flatMap q.ends ++ [c].flatMap q.ends := by
    show ((group p .optional).ends c).flatMap q.ends = _
    rw [ends_group_optional, List.flatMap_append]
  rw [parts, List.head?_append_of_ne_nil _ passed] at first
  obtain ⟨e, inside, here⟩ := exists_of_head?_flatMap first
  exact ⟨e, List.mem_of_mem_filter inside, here⟩

theorem ends_seq_choices {ps : List Pattern} (some : ps ≠ []) (q : Pattern) (c : Cursor) :
    (seq (group (oneOf (ps.map (group · .one))) .one) q).ends c =
      ps.flatMap fun p => (seq p q).ends c := by
  have places : (group (oneOf (ps.map (group · .one))) .one).ends c =
      ps.flatMap fun p => p.ends c := by
    rw [ends_group_one, ends_oneOf (by simpa using some), List.flatMap_map]
    simp only [ends_group_one]
  calc (seq (group (oneOf (ps.map (group · .one))) .one) q).ends c
    _ = (ps.flatMap fun p => p.ends c).flatMap q.ends := by rw [← places]; rfl
    _ = ps.flatMap fun p => (seq p q).ends c := List.flatMap_assoc

theorem head?_seq_choices {ps : List Pattern}
    (first : ((seq (group (oneOf ((p :: ps).map (group · .one))) .one) q).ends c).head? = some b)
    (leads : (seq p q).ends c ≠ []) : ((seq p q).ends c).head? = some b := by
  rw [ends_seq_choices (List.cons_ne_nil p ps), List.flatMap_cons,
    List.head?_append_of_ne_nil _ leads] at first
  exact first

/-- The pattern matches a start of the text, whatever stands in front. -/
def Leads (p : Pattern) (s : Text) : Prop :=
  ∀ before, ∃ w rest, s = w ++ rest ∧ p.Takes before w rest

variable {L : Language Char} {s w : Text}

theorem Leads.ends_ne_nil (leads : p.Leads s) (split : c.rest = s) : p.ends c ≠ [] := by
  obtain ⟨w, rest, rfl, taken⟩ := leads c.before
  exact ends_ne_nil_iff.mpr ⟨w, rest, split, taken⟩

theorem Spells.leads (spelled : p.Spells L) (member : w ∈ L) (leads : q.Leads s) :
    (p.seq q).Leads (w ++ s) := by
  intro before
  obtain ⟨v, rest, rfl, taken⟩ := leads (behind before w)
  exact ⟨w ++ v, rest, by simp, w, v, rfl, (spelled _ _ _).mpr member, taken⟩

theorem exists_spelling_of_head? (spelled : p.Spells L)
    (first : ((seq p q).ends c).head? = some b) :
    ∃ w ∈ L, ∃ a, c.Passes w a ∧ (q.ends a).head? = some b := by
  obtain ⟨a, member, here⟩ := exists_of_head?_seq first
  obtain ⟨w, passes, taken⟩ := p.faithful.sound member
  exact ⟨w, (spelled _ _ _).mp taken, a, passes, here⟩

theorem exists_spelling_of_head?_optional (spelled : p.Spells L)
    (first : ((seq (group p .optional) q).ends c).head? = some b) (split : c.rest = w ++ s)
    (member : w ∈ L) (nonempty : w ≠ []) (leads : q.Leads s) :
    ∃ v ∈ L, ∃ a, c.Passes v a ∧ (q.ends a).head? = some b := by
  obtain ⟨d, inside, passes⟩ := p.faithful.complete split ((spelled _ _ _).mpr member)
  have further : c.offset < d.offset := by
    rw [passes.offset]
    exact Nat.lt_add_of_pos_right (List.length_pos_iff.mpr nonempty)
  obtain ⟨a, member, here⟩ := head?_seq_optional first
    ⟨d, inside, further, leads.ends_ne_nil (passes.rest_eq split)⟩
  obtain ⟨v, passes, taken⟩ := p.faithful.sound member
  exact ⟨v, (spelled _ _ _).mp taken, a, passes, here⟩

end Pattern

end Apidoc
