import Apidoc.Page.PlainText
import Apidoc.Proofs.Entity.Encoding

namespace Apidoc.Page

theorem dropTags_append {w : Text} (opening : '<' ∉ w) (closing : '>' ∉ w) (rest : Text) :
    dropTags false [] (w ++ rest) = w ++ dropTags false [] rest := by
  induction w with
  | nil => rfl
  | cons c w ih =>
    have notOpening : c ≠ '<' := (List.ne_of_not_mem_cons opening).symm
    have notClosing : c ≠ '>' := (List.ne_of_not_mem_cons closing).symm
    have kept := ih (List.not_mem_of_not_mem_cons opening) (List.not_mem_of_not_mem_cons closing)
    have noSeam : cellSeam.occursIn [] = false := by decide
    simp [dropTags, notOpening, notClosing, noSeam, kept]

theorem dropTags_of_plain {s : Text} (opening : '<' ∉ s) (closing : '>' ∉ s) :
    dropTags false [] s = s := by
  simpa [dropTags] using dropTags_append opening closing []

theorem plainText_encode (s : Text) : plainText (Entity.encode s) = s := by
  obtain ⟨opening, closing⟩ := Entity.not_mem_encode s
  rw [plainText, dropTags_of_plain opening closing, Entity.decode_encode]

end Apidoc.Page
