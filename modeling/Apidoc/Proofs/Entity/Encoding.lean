import Apidoc.Entity
import Mathlib.Data.List.TakeWhile

/-!
Decoding reads back what encoding writes. A reference with a semicolon ends at it, whatever follows,
so that each character is read back on its own and no reference reaches into the next one.
-/
namespace Apidoc.Entity

theorem decodeFrom_plain {c : Char} (plain : c ≠ '&') (rest : Text) :
    decodeFrom 0 (c :: rest) = c :: decodeFrom 0 rest := by
  rw [decodeFrom, if_neg plain]

theorem decodeFrom_skip (w rest : Text) :
    decodeFrom w.length (w ++ rest) = decodeFrom 0 rest := by
  induction w with
  | nil => rfl
  | cons c w ih => exact ih

theorem decodeFrom_reference {w rest : Text} {r : Reference}
    (found : read? (w ++ rest) = some (r, w.length)) :
    decodeFrom 0 ('&' :: (w ++ rest)) = r.value ++ decodeFrom 0 rest := by
  rw [decodeFrom, if_pos rfl, found]
  exact congrArg (r.value ++ ·) (decodeFrom_skip w rest)

theorem nameAt?_of_semicolon {w : Text} (nonempty : w ≠ []) (short : w.length ≤ 32)
    (letters : ∀ c ∈ w, isNameChar c) (rest : Text) :
    nameAt? (w ++ ';' :: rest) = some (.name (w ++ [';']), w.length + 1) := by
  have run : ((w ++ ';' :: rest).take 32).takeWhile isNameChar = w := by
    rw [List.take_append, List.take_of_length_le short, List.takeWhile_append_of_pos letters]
    cases 32 - w.length with
    | zero => exact List.append_nil w
    | succ n =>
      have stop : isNameChar ';' = false := by decide
      rw [List.take_succ_cons, List.takeWhile_cons, stop]
      exact List.append_nil w
  simp [nameAt?, run, nonempty, semicolon]

theorem read?_of_name {w : Text} (nonempty : w ≠ []) (short : w.length ≤ 32)
    (letters : ∀ c ∈ w, isNameChar c) (rest : Text) :
    read? (w ++ [';'] ++ rest) = some (.name (w ++ [';']), (w ++ [';']).length) := by
  cases w with
  | nil => exact absurd rfl nonempty
  | cons c w =>
    -- names have no number sign, so the text is not read as a number
    have other : c ≠ '#' := by
      intro same
      have letter := letters c (.head _)
      rw [same] at letter
      exact absurd letter (by decide)
    have named := nameAt?_of_semicolon nonempty short letters rest
    rw [List.length_append, List.append_assoc]
    unfold read?
    split
    · rename_i same
      exact absurd (List.cons.inj same).1 other
    · rename_i same
      exact absurd (List.cons.inj same).1 other
    · rename_i same
      exact absurd (List.cons.inj same).1 other
    · exact named

theorem read?_of_hexadecimal {w : Text} (nonempty : w ≠ []) (digits : ∀ c ∈ w, isHexDigit c)
    (rest : Text) :
    read? ("#x".toList ++ w ++ [';'] ++ rest) =
      some (.number (numeral 16 w), ("#x".toList ++ w ++ [';']).length) := by
  have stop : isHexDigit ';' = false := by decide
  have run : (w ++ ';' :: rest).takeWhile isHexDigit = w := by
    rw [List.takeWhile_append_of_pos digits, List.takeWhile_cons, stop]
    exact List.append_nil w
  have found : numberAt? 2 16 isHexDigit (w ++ ';' :: rest) =
      some (.number (numeral 16 w), 2 + w.length + 1) := by
    simp [numberAt?, run, nonempty, semicolon]
  have length : ("#x".toList ++ w ++ [';']).length = 2 + w.length + 1 := by
    rw [List.length_append, List.length_append]
    rfl
  calc
    _ = numberAt? 2 16 isHexDigit (w ++ ';' :: rest) := by simp [read?]
    _ = _ := by rw [found, length]

theorem decodeFrom_name {w : Text} {c : Char} (nonempty : w ≠ []) (short : w.length ≤ 32)
    (letters : w.all isNameChar) (known : Names.find? (w ++ [';']) = some [c]) (rest : Text) :
    decodeFrom 0 ('&' :: (w ++ [';'] ++ rest)) = c :: decodeFrom 0 rest := by
  rw [decodeFrom_reference (read?_of_name nonempty short (List.all_eq_true.mp letters) rest),
    Reference.value, known]
  rfl

theorem decodeFrom_hexadecimal {w : Text} {c : Char} (nonempty : w ≠ [])
    (digits : w.all isHexDigit) (code : ofCode (numeral 16 w) = [c]) (rest : Text) :
    decodeFrom 0 ('&' :: ("#x".toList ++ w ++ [';'] ++ rest)) = c :: decodeFrom 0 rest := by
  rw [decodeFrom_reference (read?_of_hexadecimal nonempty (List.all_eq_true.mp digits) rest),
    Reference.value, code]
  rfl

theorem decodeFrom_encodeChar (c : Char) (rest : Text) :
    decodeFrom 0 (encodeChar c ++ rest) = c :: decodeFrom 0 rest := by
  unfold encodeChar
  split
  · exact decodeFrom_name (w := "amp".toList) (by decide) (by decide) (by decide)
      (by decide +kernel) rest
  · exact decodeFrom_name (w := "lt".toList) (by decide) (by decide) (by decide)
      (by decide +kernel) rest
  · exact decodeFrom_name (w := "gt".toList) (by decide) (by decide) (by decide)
      (by decide +kernel) rest
  · exact decodeFrom_name (w := "quot".toList) (by decide) (by decide) (by decide)
      (by decide +kernel) rest
  · exact decodeFrom_hexadecimal (w := "27".toList) (by decide) (by decide) (by decide) rest
  · rename_i bare _ _ _ _
    exact decodeFrom_plain bare rest

theorem decodeFrom_encode_append (s rest : Text) :
    decodeFrom 0 (encode s ++ rest) = s ++ decodeFrom 0 rest := by
  induction s with
  | nil => rfl
  | cons c s ih =>
    have written : encode (c :: s) ++ rest = encodeChar c ++ (encode s ++ rest) := by
      simp [encode]
    rw [written, decodeFrom_encodeChar, ih, List.cons_append]

theorem decode_encode (s : Text) : decode (encode s) = s := by
  simpa [decode, decodeFrom] using decodeFrom_encode_append s []

theorem not_mem_encode (s : Text) : '<' ∉ encode s ∧ '>' ∉ encode s := by
  have each (c : Char) : '<' ∉ encodeChar c ∧ '>' ∉ encodeChar c := by
    unfold encodeChar
    split
    · decide
    · decide
    · decide
    · decide
    · decide
    · rename_i _ opening closing _ _
      simpa using ⟨Ne.symm opening, Ne.symm closing⟩
  simp [encode, each]

end Apidoc.Entity
