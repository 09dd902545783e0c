import Apidoc.Proofs.PrintedType.Accepted

namespace Apidoc.PrintedType

/-- The depth behind a row that is read at a depth. There is none if a bracket closes that was not
opened. -/
def nesting : Nat → List Token → Option Nat
  | depth, [] => some depth
  | depth, t :: ts =>
    if t.text = ['<'] then nesting (depth + 1) ts
    else if t.text = ['>'] then
      match depth with
      | 0 => none
      | depth + 1 => nesting depth ts
    else nesting depth ts

theorem nesting_append (depth : Nat) (ts us : List Token) :
    nesting depth (ts ++ us) = (nesting depth ts).bind (nesting · us) := by
  induction ts generalizing depth with
  | nil => rfl
  | cons t ts ih =>
    simp only [List.cons_append, nesting]
    split
    · exact ih _
    · split
      · cases depth with
        | zero => rfl
        | succ depth => exact ih depth
      · exact ih depth

theorem nesting_add {depth behind : Nat} {ts : List Token} (read : nesting depth ts = some behind)
    (more : Nat) : nesting (depth + more) ts = some (behind + more) := by
  induction ts generalizing depth with
  | nil =>
    cases read
    rfl
  | cons t ts ih =>
    simp only [nesting] at read ⊢
    split at read
    · rename_i opening
      rw [if_pos opening, Nat.add_right_comm]
      exact ih read
    · rename_i other
      rw [if_neg other]
      split at read
      · rename_i closing
        rw [if_pos closing]
        cases depth with
        | zero => cases read
        | succ depth =>
          rw [Nat.add_right_comm]
          exact ih read
      · rename_i inert
        rw [if_neg inert]
        exact ih read

/-- A row closes exactly the brackets that it opens. -/
def Balanced (ts : List Token) : Prop := nesting 0 ts = some 0

def Token.IsInert (t : Token) : Prop := t.text ≠ ['<'] ∧ t.text ≠ ['>']

theorem Token.IsPlain.inert {t : Token} (plain : t.IsPlain) : t.IsInert := ⟨plain.1, plain.2.1⟩

theorem nesting_cons {t : Token} (inert : t.IsInert) (depth : Nat) (ts : List Token) :
    nesting depth (t :: ts) = nesting depth ts := by
  simp [nesting, inert.1, inert.2]

theorem balanced_nil : Balanced [] := rfl

theorem Balanced.append {ts us : List Token} (first : Balanced ts) (second : Balanced us) :
    Balanced (ts ++ us) := by
  rw [Balanced, nesting_append, first]
  exact second

theorem Balanced.right {ts us : List Token} (whole : Balanced (ts ++ us)) (first : Balanced ts) :
    Balanced us := by
  rwa [Balanced, nesting_append, first] at whole

theorem balanced_of_inert {ts : List Token} (inert : ∀ t ∈ ts, t.IsInert) : Balanced ts := by
  induction ts with
  | nil => rfl
  | cons t ts ih =>
    obtain ⟨first, others⟩ := List.forall_mem_cons.mp inert
    rw [Balanced, nesting_cons first]
    exact ih others

theorem Balanced.bracketed {ts : List Token} (balanced : Balanced ts) {opening closing : Token}
    (opens : opening.text = ['<']) (closes : closing.text = ['>']) :
    Balanced (opening :: (ts ++ [closing])) := by
  have inner := nesting_add balanced 1
  simp [Balanced, nesting, opens, nesting_append, inner, closes]

/-- The mark never stands outside of brackets. -/
def Sealed (mark : Text) (ts : List Token) : Prop :=
  ∀ us c vs, ts = us ++ c :: vs → c.text = mark → ¬ Balanced us

theorem sealed_of_inert {mark : Text} {ts : List Token} (other : ∀ t ∈ ts, t.text ≠ mark) :
    Sealed mark ts := by
  intro us c vs eq same
  exact absurd same (other c (by simp [eq]))

theorem Sealed.append {mark : Text} {ts us : List Token} (first : Sealed mark ts)
    (balanced : Balanced ts) (second : Sealed mark us) : Sealed mark (ts ++ us) := by
  intro xs c ys eq same level
  rcases List.append_eq_append_iff.mp eq with ⟨zs, rfl, tail⟩ | ⟨zs, front, tail⟩
  · exact second zs c ys tail same (level.right balanced)
  · cases zs with
    | nil =>
      obtain rfl : ts = xs := by simpa using front
      exact second [] c ys tail.symm same balanced_nil
    | cons d zs =>
      obtain ⟨rfl, -⟩ := List.cons.inj tail
      exact first xs c zs front same level

theorem Balanced.sealed {ts : List Token} (balanced : Balanced ts) {opening closing : Token}
    (opens : opening.text = ['<']) (closes : closing.text = ['>']) {mark : Text}
    (other : mark ≠ ['<']) (other' : mark ≠ ['>']) :
    Sealed mark (opening :: (ts ++ [closing])) := by
  intro us c vs eq same level
  cases us with
  | nil =>
    cases eq
    exact other (same.symm.trans opens)
  | cons u us =>
    obtain ⟨rfl, tail⟩ := List.cons.inj eq
    rcases List.append_eq_append_iff.mp tail with ⟨zs, -, last⟩ | ⟨zs, front, -⟩
    · cases zs with
      | nil =>
        cases last
        exact other' (same.symm.trans closes)
      | cons z zs =>
        have lengths := congrArg List.length last
        simp at lengths
    · -- the row in front of the mark is deeper than the brackets
      rw [Balanced, front, nesting_append] at balanced
      obtain ⟨depth, read, -⟩ := Option.bind_eq_some_iff.mp balanced
      have deeper := nesting_add read 1
      rw [Balanced, nesting, if_pos opens, deeper] at level
      cases level

theorem not_balanced_closing {closing : Token} (closes : closing.text = ['>']) (ts : List Token) :
    ¬ Balanced (closing :: ts) := by
  intro balanced
  simp [Balanced, nesting, closes] at balanced

theorem closing_unique {ts ts' us us' : List Token} {closing closing' : Token}
    (closes : closing.text = ['>']) (closes' : closing'.text = ['>']) (balanced : Balanced ts)
    (balanced' : Balanced ts') (same : ts ++ closing :: us = ts' ++ closing' :: us') :
    ts = ts' ∧ us = us' := by
  rcases List.append_eq_append_iff.mp same with ⟨zs, rfl, tail⟩ | ⟨zs, rfl, tail⟩
  · cases zs with
    | nil => exact ⟨by simp, (List.cons.inj tail).2⟩
    | cons z zs =>
      obtain ⟨rfl, -⟩ := List.cons.inj tail
      exact absurd (balanced'.right balanced) (not_balanced_closing closes zs)
  · cases zs with
    | nil => exact ⟨by simp, (List.cons.inj tail).2.symm⟩
    | cons z zs =>
      obtain ⟨rfl, -⟩ := List.cons.inj tail
      exact absurd (balanced.right balanced') (not_balanced_closing closes' zs)

/-- The first mark outside of brackets is where a sealed row ends. -/
theorem first_mark_unique {mark : Text} {ts ts' us us' : List Token} {c c' : Token}
    (marked : c.text = mark) (marked' : c'.text = mark) (balanced : Balanced ts)
    (balanced' : Balanced ts') (free : Sealed mark ts) (free' : Sealed mark ts')
    (same : ts ++ c :: us = ts' ++ c' :: us') : ts = ts' ∧ us = us' := by
  rcases List.append_eq_append_iff.mp same with ⟨zs, rfl, tail⟩ | ⟨zs, rfl, tail⟩
  · cases zs with
    | nil => exact ⟨by simp, (List.cons.inj tail).2⟩
    | cons z zs =>
      obtain ⟨rfl, -⟩ := List.cons.inj tail
      exact absurd balanced (free' ts c zs rfl marked)
  · cases zs with
    | nil => exact ⟨by simp, (List.cons.inj tail).2.symm⟩
    | cons z zs =>
      obtain ⟨rfl, -⟩ := List.cons.inj tail
      exact absurd balanced' (free ts' c' zs rfl marked')

theorem last_mark_unique {mark : Text} {ts ts' us us' : List Token} {c c' : Token}
    (marked : c.text = mark) (marked' : c'.text = mark) (inert : c.IsInert) (inert' : c'.IsInert)
    (balanced : Balanced ts) (balanced' : Balanced ts') (free : Sealed mark us)
    (free' : Sealed mark us') (same : ts ++ c :: us = ts' ++ c' :: us') : us = us' := by
  have after {xs ys : List Token} {d : Token} (inert : d.IsInert) (front : Balanced xs)
      (whole : Balanced (xs ++ d :: ys)) : Balanced ys := by
    have rest := whole.right front
    rwa [Balanced, nesting_cons inert] at rest
  rcases List.append_eq_append_iff.mp same with ⟨zs, rfl, tail⟩ | ⟨zs, rfl, tail⟩
  · cases zs with
    | nil => exact (List.cons.inj tail).2
    | cons z zs =>
      obtain ⟨rfl, rest⟩ := List.cons.inj tail
      exact absurd (after inert balanced balanced') (free zs c' us' rest marked')
  · cases zs with
    | nil => exact (List.cons.inj tail).2.symm
    | cons z zs =>
      obtain ⟨rfl, rest⟩ := List.cons.inj tail
      exact absurd (after inert' balanced' balanced) (free' zs c us rest marked)

theorem inert_colons {t : Token} (same : t.text = [':', ':']) : t.IsInert := by
  simp [Token.IsInert, same]

mutual

theorem TypeNode.balanced : (d : TypeNode) → d.Valid → Formed d.yield → Balanced d.yield
  | .mk lead sign name decorations, valid, formed => by
    obtain ⟨leads, -, signs, named, decorated⟩ := valid
    have front : Balanced lead.toList := balanced_of_inert fun t member =>
      ((formed.append.1 t member).isPlain_of_const (leads t (Option.mem_toList.mp member))).inert
    have middle : Balanced sign.toList := by
      cases sign with
      | none => exact balanced_nil
      | some t =>
        have sign := (formed t (by simp [TypeNode.yield])).isPlain_of_sign (signs.mp rfl).isSign
        exact balanced_of_inert (by simpa using sign.inert)
    have back : Balanced decorations := balanced_of_inert fun t member =>
      ((formed.append.2.append.2 t member).isPlain_of_decoration (decorated t member)).inert
    have inner := name.balanced named formed.append.2.append.1.append.2
    exact front.append ((middle.append inner).append back)

theorem NameNode.balanced : (d : NameNode) → d.Valid → Formed d.yield → Balanced d.yield
  | .base segment, valid, formed => segment.balanced valid formed
  | .inside scope colons name, valid, formed => by
    have rest := name.balanced valid.2.2 formed.append.2.cons.2
    rw [Balanced, ← nesting_cons (inert_colons valid.2.1)] at rest
    exact (scope.balanced valid.1 formed.append.1).append rest

theorem SegmentNode.balanced : (d : SegmentNode) → d.Valid → Formed d.yield → Balanced d.yield
  | .plain _, valid, formed =>
    balanced_of_inert fun t member => (IsName.isPlain valid formed t member).inert
  | .template words opening arguments closing, valid, formed => by
    have front : Balanced words := balanced_of_inert fun t member =>
      (valid.1.isPlain formed.append.1 t member).inert
    have inner := arguments.balanced valid.2.2.1 formed.append.2.cons.2.append.1
    exact front.append (inner.bracketed valid.2.1 valid.2.2.2)

theorem ArgumentsNode.balanced : (d : ArgumentsNode) → d.Valid → Formed d.yield →
    Balanced d.yield
  | .one type, valid, formed => type.balanced valid formed
  | .cons type comma rest, valid, formed => by
    have others := rest.balanced valid.2.2 formed.append.2.cons.2
    have inert : comma.IsInert := by simp [Token.IsInert, valid.2.1]
    rw [Balanced, ← nesting_cons inert] at others
    exact (type.balanced valid.1 formed.append.1).append others

end

theorem SegmentNode.sealed {mark : Text} (d : SegmentNode) (valid : d.Valid)
    (formed : Formed d.yield) (solid : ¬ Text.IsWordRun mark) (other : mark ≠ ['<'])
    (other' : mark ≠ ['>']) : Sealed mark d.yield := by
  have unmarked {words : List Token} (name : IsName words) (formed : Formed words) :
      Sealed mark words := by
    apply sealed_of_inert
    intro t member same
    have run := (formed t member).isWordRun (name.word t member)
    rw [same] at run
    exact solid run
  cases d with
  | plain words => exact unmarked valid formed
  | template words opening arguments closing =>
    have front : Balanced words := balanced_of_inert fun t member =>
      (valid.1.isPlain formed.append.1 t member).inert
    have inner := arguments.balanced valid.2.2.1 formed.append.2.cons.2.append.1
    exact (unmarked valid.1 formed.append.1).append front
      (inner.sealed valid.2.1 valid.2.2.2 other other')

end Apidoc.PrintedType
