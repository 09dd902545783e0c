import Apidoc.Text.Alphanumeric
import Apidoc.Text.Basic
import Apidoc.Text.Blank

/-!
The lexemes of printed types. A token keeps the blanks in front of it, so the tokens of a text and
the blanks behind them spell the text.
-/
namespace Apidoc.PrintedType

inductive Kind
  | word
  | scope
  | array
  | mark
  deriving DecidableEq, Repr

structure Token where
  kind : Kind
  gap : Text
  text : Text
  deriving DecidableEq, Repr

def marks : Text := ['<', '>', ',', '*', '&']

def lexeme? : Text → Option (Kind × Text × Text)
  | [] => none
  | ':' :: ':' :: r => some (.scope, [':', ':'], r)
  | '[' :: cs =>
    match cs.dropWhile Text.isBlank with
    | ']' :: r => some (.array, '[' :: cs.takeWhile Text.isBlank ++ [']'], r)
    | _ => none
  | c :: cs =>
    if Text.isWord c then
      some (.word, c :: cs.takeWhile Text.isWord, cs.dropWhile Text.isWord)
    else if marks.contains c then some (.mark, [c], cs)
    else none

theorem length_dropWhile_le (p : Char → Bool) (s : Text) : (s.dropWhile p).length ≤ s.length :=
  (List.dropWhile_sublist p).length_le

theorem length_lt_of_lexeme? {s : Text} {kind : Kind} {text rest : Text}
    (h : lexeme? s = some (kind, text, rest)) : rest.length < s.length := by
  unfold lexeme? at h
  split at h
  · cases h
  · cases h
    simp only [List.length_cons]
    omega
  · rename_i cs
    have shorter := length_dropWhile_le Text.isBlank cs
    split at h
    · rename_i r closed
      cases h
      rw [closed] at shorter
      simp only [List.length_cons] at shorter ⊢
      omega
    · cases h
  · rename_i c cs _ _
    split at h
    · cases h
      have shorter := length_dropWhile_le Text.isWord cs
      simp only [List.length_cons]
      omega
    · split at h
      · cases h
        simp only [List.length_cons]
        omega
      · cases h

/-- Cuts a text into tokens. What starts no lexeme is reported by the character behind the last
token, which may be a blank. -/
def tokens (s : Text) : Except Char (List Token) :=
  match _h : lexeme? (Text.trimLeft s) with
  | some (kind, text, rest) =>
    (⟨kind, s.takeWhile Text.isBlank, text⟩ :: ·) <$> tokens rest
  | none =>
    match s with
    | [] => .ok []
    | c :: cs => if Text.allBlank (c :: cs) then .ok [] else .error c
termination_by s.length
decreasing_by
  exact Nat.lt_of_lt_of_le (length_lt_of_lexeme? ‹_›) (length_dropWhile_le _ _)

def Token.source (t : Token) : Text := t.gap ++ t.text

def spansFrom : Nat → List Token → List (Nat × Nat)
  | _, [] => []
  | offset, t :: ts =>
    let first := offset + t.gap.length
    (first, first + t.text.length) :: spansFrom (first + t.text.length) ts

def spans (ts : List Token) : List (Nat × Nat) := spansFrom 0 ts

end Apidoc.PrintedType
