import Apidoc.Proofs.Page.PlainText

namespace Apidoc

namespace Entity

/-- No number of the text has too many decimal digits. -/
def NumbersFit (s : Text) : Prop :=
  ∀ u d v, s = u ++ ("&#".toList ++ (d ++ v)) → (∀ c ∈ d, c.isDigit) → d.length ≤ digitLimit

theorem length_le_decimals {d : Text} (digits : ∀ c ∈ d, c.isDigit) (v : Text) :
    d.length ≤ (decimals ('#' :: (d ++ v))).length := by
  rw [decimals, List.takeWhile_append_of_pos digits, List.length_append]
  exact Nat.le_add_right ..

theorem decimals_spec (s : Text) :
    decimals s = [] ∨ ∃ v, s = '#' :: (decimals s ++ v) ∧ ∀ c ∈ decimals s, c.isDigit := by
  unfold decimals
  split
  · rename_i s
    refine .inr ⟨s.dropWhile Char.isDigit, ?_, ?_⟩
    · rw [List.takeWhile_append_dropWhile]
    · exact List.all_eq_true.mp List.all_takeWhile
  · exact .inl rfl

theorem overlong?_eq_none_iff {s : Text} : overlong? s = none ↔ NumbersFit s := by
  induction s with
  | nil =>
    refine ⟨fun _ u d v split _ => ?_, fun _ => rfl⟩
    simp at split
  | cons c s ih =>
    have tail (fits : NumbersFit (c :: s)) : NumbersFit s := by
      intro u d v split
      exact fits (c :: u) d v (by rw [split]; rfl)
    simp only [overlong?]
    split
    · rename_i long
      obtain ⟨rfl, above⟩ := long
      refine ⟨(nomatch ·), fun fits => ?_⟩
      rcases decimals_spec s with none | ⟨v, split, digits⟩
      · rw [none] at above
        cases above
      · have bound := fits [] (decimals s) v (congrArg ('&' :: ·) split) digits
        exact absurd above (Nat.not_lt.mpr bound)
    · rename_i short
      refine ⟨fun none => ?_, fun fits => ih.mpr (tail fits)⟩
      intro u d v split digits
      cases u with
      | nil =>
        obtain ⟨rfl, rfl⟩ := List.cons.inj split
        have bound : (decimals ('#' :: (d ++ v))).length ≤ digitLimit :=
          Nat.le_of_not_lt fun above => short ⟨rfl, above⟩
        exact Nat.le_trans (length_le_decimals digits v) bound
      | cons a u => exact ih.mp none u d v (List.cons.inj split).2 digits

theorem overlong?_plain {c : Char} (plain : c ≠ '&') (rest : Text) :
    overlong? (c :: rest) = overlong? rest := by
  simp [overlong?, plain]

theorem overlong?_encode_append (s rest : Text) :
    overlong? (encode s ++ rest) = overlong? rest := by
  induction s with
  | nil => rfl
  | cons c s ih =>
    have written : encode (c :: s) ++ rest = encodeChar c ++ (encode s ++ rest) := by
      simp [encode]
    rw [written, ← ih]
    unfold encodeChar
    split
    case h_6 plain _ _ _ _ => exact overlong?_plain plain _
    all_goals simp [overlong?, decimals, digitLimit]

theorem overlong?_encode (s : Text) : overlong? (encode s) = none := by
  simpa [overlong?] using overlong?_encode_append s []

def decodeChecked (s : Text) : Except NumberError Text :=
  match overlong? s with
  | some e => .error e
  | none => .ok (decode s)

theorem decodeChecked_encode_append (s rest : Text) :
    decodeChecked (encode s ++ rest) = (decodeChecked rest).map (s ++ ·) := by
  unfold decodeChecked
  rw [overlong?_encode_append]
  cases overlong? rest with
  | some e => rfl
  | none => exact congrArg Except.ok (decodeFrom_encode_append s rest)

theorem decodeChecked_plain {c : Char} (plain : c ≠ '&') (rest : Text) :
    decodeChecked (c :: rest) = (decodeChecked rest).map (c :: ·) := by
  unfold decodeChecked
  rw [overlong?_plain plain]
  cases overlong? rest with
  | some e => rfl
  | none => exact congrArg Except.ok (decodeFrom_plain plain rest)

end Entity

namespace Page

def NumbersFit (source : Text) : Prop := Entity.NumbersFit (dropTags false [] source)

theorem readMarkup_of_fit {source : Text} (fit : NumbersFit source) :
    readMarkup source = .ok (plainText source) := by
  rw [readMarkup, Entity.overlong?_eq_none_iff.mpr fit]

/-- Text that is written as markup is read back as it was: what looks like a tag in it is kept, what
looks like a reference is not decoded, and no number in it is too long. -/
theorem readMarkup_encode (s : Text) : readMarkup (Entity.encode s) = .ok s := by
  obtain ⟨opening, closing⟩ := Entity.not_mem_encode s
  rw [readMarkup, dropTags_of_plain opening closing, Entity.overlong?_encode, plainText_encode]

theorem readMarkup_number {d : Text} (digits : ∀ c ∈ d, c.isDigit)
    (long : Entity.digitLimit < d.length) :
    readMarkup ("&#".toList ++ (d ++ [';'])) = .error ⟨d.length⟩ := by
  have plain {c : Char} (other : c.isDigit = false) (outside : c ∉ "&#;".toList) :
      c ∉ "&#".toList ++ (d ++ [';']) := by
    have absent : c ∉ d := fun member => absurd (digits c member) (ne_true_of_eq_false other)
    simp_all
  have number : Entity.decimals ('#' :: (d ++ [';'])) = d := by
    have stop : List.takeWhile Char.isDigit [';'] = [] := by decide
    rw [Entity.decimals, List.takeWhile_append_of_pos digits, stop, List.append_nil]
  have found : Entity.overlong? ("&#".toList ++ (d ++ [';'])) = some ⟨d.length⟩ := by
    change Entity.overlong? ('&' :: '#' :: (d ++ [';'])) = _
    rw [Entity.overlong?, number, if_pos ⟨rfl, long⟩]
  have tagless := dropTags_of_plain (plain (c := '<') (by decide) (by decide))
    (plain (c := '>') (by decide) (by decide))
  rw [readMarkup, tagless, found]

end Page

end Apidoc
